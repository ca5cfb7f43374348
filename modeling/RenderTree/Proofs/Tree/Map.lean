import RenderTree.Proofs.Tree.Branch

/-!
# Trees made from other trees

What two walks find often differs in the same way at every component, or by some components that
are missing. Both are said by an operation on trees.

* `Component.tree_induction` — induction over trees, with all children at hand.
* `Component.map` — the tree with what is known of every component changed alike.
* `Component.keep` — the tree without those components below the root that do not meet a condition.
-/

namespace RenderTree.Component

/-! ### Induction -/

mutual
/-- What holds of a component if it holds of all its children holds of every component. -/
theorem holds_of_children {P : Component → Prop}
    (step : ∀ f cs, (∀ c ∈ cs, P c) → P (node f cs)) : (c : Component) → P c
  | node f cs => step f cs (forall_mem_of_children step cs)

/-- It holds of all components of a list. -/
theorem forall_mem_of_children {P : Component → Prop}
    (step : ∀ f cs, (∀ c ∈ cs, P c) → P (node f cs)) : (cs : List Component) → ∀ c ∈ cs, P c
  | [], _, h => by simp at h
  | d :: ds, c, h => by
    have hd := holds_of_children step d
    have hds := forall_mem_of_children step ds
    rcases List.mem_cons.1 h with rfl | h
    · exact hd
    · exact hds c h
end

/-- **Induction over trees.** What holds of a component if it holds of those that it renders holds
of all components. -/
@[elab_as_elim]
theorem tree_induction {P : Component → Prop} (c : Component)
    (node : ∀ f cs, (∀ c ∈ cs, P c) → P (node f cs)) : P c :=
  holds_of_children node c

/-! ### The same change everywhere -/

mutual
/-- The tree with `g` applied to what is known of each component. -/
def map (g : Facts → Facts) : Component → Component
  | node f cs => node (g f) (mapAll g cs)

/-- Several trees with `g` applied to what is known of each component. -/
def mapAll (g : Facts → Facts) : List Component → List Component
  | [] => []
  | c :: cs => map g c :: mapAll g cs
end

/-- Several trees are changed each by itself. -/
theorem mapAll_eq (g : Facts → Facts) (cs : List Component) : mapAll g cs = cs.map (map g) := by
  induction cs with
  | nil => rfl
  | cons c cs ih => simp [mapAll, ih]

@[simp] theorem map_node (g : Facts → Facts) (f : Facts) (cs : List Component) :
    (node f cs).map g = node (g f) (cs.map (map g)) := by
  rw [map, mapAll_eq]

@[simp] theorem facts_map (g : Facts → Facts) (c : Component) : (c.map g).facts = g c.facts := by
  cases c with
  | node f cs => rfl

/-- Two changes one after the other are one change. -/
theorem map_map (g h : Facts → Facts) (c : Component) : (c.map h).map g = c.map (g ∘ h) := by
  induction c using tree_induction with
  | node f cs ih =>
    rw [map_node, map_node, map_node, List.map_map]
    congr 1
    exact List.map_congr_left ih

/-! ### Components left out -/

mutual
/-- The tree without those components below its root, and what is below them, that do not meet a
condition. -/
def keep (p : Facts → Bool) : Component → Component
  | node f cs => node f (keepAll p cs)

/-- Those of several trees whose roots meet a condition, without what does not meet it in them. -/
def keepAll (p : Facts → Bool) : List Component → List Component
  | [] => []
  | c :: cs => if p c.facts then keep p c :: keepAll p cs else keepAll p cs
end

/-- Of several trees those are kept whose roots meet the condition. -/
theorem keepAll_eq (p : Facts → Bool) (cs : List Component) :
    keepAll p cs = (cs.filter (fun c => p c.facts)).map (keep p) := by
  induction cs with
  | nil => rfl
  | cons c cs ih => by_cases hc : p c.facts <;> simp [keepAll, ih, hc]

@[simp] theorem keep_node (p : Facts → Bool) (f : Facts) (cs : List Component) :
    (node f cs).keep p = node f ((cs.filter (fun c => p c.facts)).map (keep p)) := by
  rw [keep, keepAll_eq]

@[simp] theorem facts_keep (p : Facts → Bool) (c : Component) : (c.keep p).facts = c.facts := by
  cases c with
  | node f cs => rfl

@[simp] theorem children_keep (p : Facts → Bool) (c : Component) :
    (c.keep p).children = (c.children.filter (fun d => p d.facts)).map (keep p) := by
  cases c with
  | node f cs => simp

end RenderTree.Component
