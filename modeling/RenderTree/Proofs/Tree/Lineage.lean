import RenderTree.Proofs.Tree.Branch
import RenderTree.Proofs.Tree.Map
import Mathlib.Data.List.Basic

/-!
# Components with their ancestors

What holds of a component often depends on those above it. This lists the components of a tree in
their order, each with its proper ancestors.

* `Component.lineages` — the components of a tree with their proper ancestors.
* `map_fst_lineages` — they are those that `nodes` lists, in the same order.
* `branch_of_mem_lineages` — the ancestors are those of a branch.
* `edges_eq_filterMap_lineages` — the edges of a tree lead from the nearest of them.
-/

namespace RenderTree.Component

mutual
/-- The components of a tree that stands below `above`, in the order of `preorder`, each with its
proper ancestors, the nearest first. -/
def lineagesBelow (above : List Component) : Component → List (Component × List Component)
  | node f cs => (node f cs, above) :: lineagesOf (node f cs :: above) cs

/-- The components of several trees that stand below `above`, with their proper ancestors. -/
def lineagesOf (above : List Component) : List Component → List (Component × List Component)
  | [] => []
  | c :: cs => lineagesBelow above c ++ lineagesOf above cs
end

/-- The components of a tree, in the order of `preorder`, each with its proper ancestors, the nearest
first. -/
def lineages (root : Component) : List (Component × List Component) :=
  lineagesBelow [] root

/-- The lineages of several trees are those of each of them. -/
theorem lineagesOf_eq_flatMap (above cs : List Component) :
    lineagesOf above cs = cs.flatMap (lineagesBelow above) := by
  induction cs with
  | nil => simp [lineagesOf]
  | cons c cs ih => simp [lineagesOf, ih]

@[simp] theorem lineagesBelow_node (above : List Component) (f : Facts) (cs : List Component) :
    lineagesBelow above (node f cs) =
      (node f cs, above) :: cs.flatMap (lineagesBelow (node f cs :: above)) := by
  rw [lineagesBelow, lineagesOf_eq_flatMap]

/-- The components of several trees are those of each of them, in order. -/
theorem preorders_eq_flatMap (cs : List Component) : preorders cs = cs.flatMap preorder := by
  induction cs with
  | nil => simp [preorders]
  | cons c cs ih => simp [preorders, ih]

/-- Without their ancestors these are the components in order, wherever the tree stands. -/
theorem map_fst_lineagesBelow (c : Component) :
    ∀ above, (lineagesBelow above c).map Prod.fst = c.preorder := by
  induction c using tree_induction with
  | node f cs ih =>
    intro above
    rw [lineagesBelow_node, preorder, preorders_eq_flatMap, List.map_cons, List.map_flatMap]
    congr 1
    exact List.flatMap_congr fun c hc => ih c hc _

/-- The components are listed in the order of `nodes`. -/
theorem map_fst_lineages (root : Component) : root.lineages.map Prod.fst = root.nodes := by
  rw [nodes_eq_preorder]
  exact map_fst_lineagesBelow root []

/-- Below a branch the ancestors go on with it. -/
theorem branch_of_mem_lineagesBelow {root x : Component} {xs : List Component} (c : Component) :
    ∀ above, Branch root c above → (x, xs) ∈ lineagesBelow above c → Branch root x xs := by
  induction c using tree_induction with
  | node f cs ih =>
    intro above hb hx
    rw [lineagesBelow_node, List.mem_cons, Prod.mk.injEq] at hx
    rcases hx with ⟨rfl, rfl⟩ | hx
    · exact hb
    · obtain ⟨c, hc, hx⟩ := List.mem_flatMap.1 hx
      exact ih c hc _ (.child hb hc) hx

/-- The ancestors that are listed with a component are those on a branch to it. -/
theorem branch_of_mem_lineages {root c : Component} {above : List Component}
    (h : (c, above) ∈ root.lineages) : Branch root c above :=
  branch_of_mem_lineagesBelow root [] .root h

/-- The edge that leads to a component from its nearest ancestor, if it has any. -/
def edge? (x : Component × List Component) : Option (Component × Component) :=
  x.2.head?.map fun p => (p, x.1)

/-- The edges to the components below, in their order. -/
theorem filterMap_edge?_lineagesBelow (c : Component) :
    ∀ above, (lineagesBelow above c).filterMap edge? = (edge? (c, above)).toList ++ c.edges := by
  induction c using tree_induction with
  | node f cs ih =>
    intro above
    have hbelow : (cs.flatMap (lineagesBelow (node f cs :: above))).filterMap edge? =
        (node f cs).edges := by
      rw [List.filterMap_flatMap, edges_eq, edgesTo_eq_flatMap]
      exact List.flatMap_congr fun c hc => ih c hc _
    rw [lineagesBelow_node, List.filterMap_cons, hbelow]
    cases edge? (node f cs, above) <;> rfl

/-- The edges of a tree lead to its components from the nearest of their ancestors. -/
theorem edges_eq_filterMap_lineages (root : Component) :
    root.edges = root.lineages.filterMap edge? :=
  (filterMap_edge?_lineagesBelow root []).symm

end RenderTree.Component
