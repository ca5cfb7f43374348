import RenderTree.Display
import RenderTree.Proofs.Tree.Map

/-!
# What is shown of a tree

Only the children of a component that are not hidden count when it is presented: a container gives
way to the first of them, and the others are sorted and shown below it.

* `Component.visible` — the children that are not hidden.
* `presentAs_eq` — the display tree of a component from those of its visible children.
* `present_keep_shown` — hidden components may as well be missing.
-/

namespace RenderTree

/-! ### Sorting by keys -/

/-- What keys are sorted by. -/
theorem not_decide_lt_iff {a b : Text} : (!decide (b < a)) = true ↔ a ≤ b := by
  rw [Bool.not_eq_true', decide_eq_false_iff_not, List.not_lt]

/-- Sorting by keys keeps all items. -/
theorem sortByKey_perm {α : Type} (items : List (Text × α)) : (sortByKey items).Perm items :=
  List.mergeSort_perm items _

/-! ### Visible children -/

/-- Whether a component is shown. -/
def Facts.shown (f : Facts) : Bool :=
  !f.hidden

namespace Component

variable {o : Presentation} {marks : Text} {c : Component} {cs : List Component}

/-- The children that are not hidden. -/
def visible (c : Component) : List Component :=
  c.children.filter (fun d => d.facts.shown)

/-- Without its hidden components a tree has the same visible children, without theirs. -/
theorem visible_keep_shown (c : Component) :
    (c.keep Facts.shown).visible = c.visible.map (keep Facts.shown) := by
  have hshown : ∀ d ∈ c.visible.map (keep Facts.shown), d.facts.shown = true := by
    intro d hd
    obtain ⟨e, he, rfl⟩ := List.mem_map.1 hd
    rw [facts_keep]
    exact (List.mem_filter.1 he).2
  rw [visible, children_keep]
  exact List.filter_eq_self.2 hshown

/-- Of several components the first one that is shown is presented in place of a container. -/
theorem presentFirst_eq (o : Presentation) (marks : Text) (cs : List Component) :
    presentFirst o marks cs =
      (cs.filter (fun c => c.facts.shown)).head?.map (presentAs o marks) := by
  induction cs with
  | nil => rfl
  | cons c cs ih => by_cases hc : c.facts.hidden <;> simp [presentFirst, Facts.shown, hc, ih]

/-- Of several components those that are shown are presented, each with its key. -/
theorem presentVisible_eq (o : Presentation) (cs : List Component) :
    presentVisible o cs =
      (cs.filter (fun c => c.facts.shown)).map (fun c => (c.facts.sortKey, presentAs o [] c)) := by
  induction cs with
  | nil => rfl
  | cons c cs ih => by_cases hc : c.facts.hidden <;> simp [presentVisible, Facts.shown, hc, ih]

/-- The component that a container gives way to: its first visible child. Other components give way
to none. -/
def successor (o : Presentation) (c : Component) : Option Component :=
  if isContainer o c.facts then c.visible.head? else none

/-- Unless containers are to be hidden, no component gives way. -/
theorem successor_of_hideContainers (ho : o.hideContainers = false) (c : Component) :
    c.successor o = none := by
  simp [successor, isContainer, ho]

/-- **Presenting a component.** It is shown as the component that it gives way to, with one more
mark, or else with its visible children below it, sorted. -/
theorem presentAs_eq (o : Presentation) (marks : Text) (c : Component) :
    c.presentAs o marks =
      match c.successor o with
      | some d => d.presentAs o (marks ++ o.containerSuffix)
      | none => display (c.facts.label ++ marks ++ c.facts.labelEnd)
          ((sortByKey (c.visible.map fun d => (d.facts.sortKey, d.presentAs o []))).map
            Prod.snd) := by
  obtain ⟨f, cs⟩ := c
  rw [presentAs, presentFirst_eq, presentVisible_eq, successor]
  by_cases hf : isContainer o f
  · simp only [facts_node, hf, if_true, visible, children_node]
    cases (cs.filter fun c => c.facts.shown).head? <;> rfl
  · simp [hf, visible]

/-- A container gives way to the same component if hidden components are missing. -/
theorem successor_keep_shown (o : Presentation) (c : Component) :
    (c.keep Facts.shown).successor o = (c.successor o).map (keep Facts.shown) := by
  rw [successor, successor, facts_keep, visible_keep_shown, List.head?_map]
  split <;> rfl

/-- A component gives way to one of its visible children, if to any. -/
theorem mem_visible_of_successor {d : Component} (h : c.successor o = some d) : d ∈ c.visible := by
  rw [successor] at h
  split at h
  · exact List.mem_of_head? h
  · cases h

/-- A tree is presented as if its hidden components were missing. -/
theorem presentAs_keep_shown (o : Presentation) (c : Component) :
    ∀ marks, (c.keep Facts.shown).presentAs o marks = c.presentAs o marks := by
  induction c using tree_induction with
  | node f cs ih =>
    intro marks
    -- Below the root this is known of all visible children.
    have hvisible : ∀ d ∈ (node f cs).visible, ∀ marks,
        (d.keep Facts.shown).presentAs o marks = d.presentAs o marks :=
      fun d hd => ih d (List.mem_filter.1 hd).1
    rw [presentAs_eq, presentAs_eq o marks (node f cs), successor_keep_shown]
    cases hs : (node f cs).successor o with
    | some d => exact hvisible d (mem_visible_of_successor hs) _
    | none =>
      have hitems : ((node f cs).visible.map (keep Facts.shown)).map
            (fun d => (d.facts.sortKey, d.presentAs o [])) =
          (node f cs).visible.map (fun d => (d.facts.sortKey, d.presentAs o [])) := by
        rw [List.map_map]
        apply List.map_congr_left
        intro d hd
        simp [hvisible d hd]
      rw [Option.map_none, visible_keep_shown, hitems, facts_keep]

/-- **Hidden components.** A tree is presented as if its hidden components were missing. -/
theorem present_keep_shown (o : Presentation) (c : Component) :
    (c.keep Facts.shown).present o = c.present o :=
  presentAs_keep_shown o c []

end Component

end RenderTree
