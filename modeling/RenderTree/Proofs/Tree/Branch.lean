import RenderTree.Component

/-!
# Branches of component trees

Where a component stands in a tree: below which others, and at which position.

* `Component.preorder` — the components of a tree by recursion on it, and `nodes_eq_preorder`: the
  loop over a stack lists the same ones in the same order.
* `Component.Branch` — the proper ancestors of a component in a tree, the nearest first.
* `mem_nodes_iff` — the components of a tree are those at the end of a branch.
* `Component.at?` — the component at a position, the numbers of the children that lead to it.
* `Component.edges` — every component but the root, behind the one that renders it.
-/

namespace RenderTree.Component

/-! ### The order of components -/

mutual
/-- The components of a tree, each before those it renders. -/
def preorder : Component → List Component
  | node f cs => node f cs :: preorders cs

/-- The components of several trees, tree by tree. -/
def preorders : List Component → List Component
  | [] => []
  | c :: cs => preorder c ++ preorders cs
end

/-- A component comes first, then those below it. -/
theorem preorder_eq (c : Component) : c.preorder = c :: preorders c.children := by
  cases c with
  | node f cs => simp [preorder]

/-- The components of two lists of trees stand one behind the other. -/
theorem preorders_append (cs ds : List Component) :
    preorders (cs ++ ds) = preorders cs ++ preorders ds := by
  induction cs with
  | nil => simp [preorders]
  | cons c cs ih => simp [preorders, ih]

/-- The components of several trees are those of each of them. -/
theorem mem_preorders {c : Component} {cs : List Component} :
    c ∈ preorders cs ↔ ∃ d ∈ cs, c ∈ d.preorder := by
  induction cs with
  | nil => simp [preorders]
  | cons d ds ih => simp [preorders, ih]

/-- What is part of a child is part of the component. -/
theorem mem_preorder_of_mem_children {c d p : Component} (hc : c ∈ p.children)
    (hd : d ∈ c.preorder) : d ∈ p.preorder := by
  rw [preorder_eq p]
  exact List.mem_cons_of_mem _ (mem_preorders.2 ⟨c, hc, hd⟩)

/-- What the stack loop lists: the components already visited, oldest first, and then all those of
the trees on the stack. -/
theorem visit_eq_preorders (stack visited : List Component) :
    visit stack visited = visited.reverse ++ preorders stack := by
  fun_induction visit stack visited with
  | case1 visited => simp [preorders]
  | case2 c stack visited ih => simp [ih, preorders, preorders_append, preorder_eq c]

/-- The stack loop lists the components in the order of the recursion. -/
theorem nodes_eq_preorder (c : Component) : c.nodes = c.preorder := by
  rw [nodes, visit_eq_preorders]
  simp [preorders]

/-! ### Branches -/

/-- The proper ancestors of a component in a tree, the nearest first: `Branch root c above` says
that they can be `above`. One component can stand in a tree more than once. -/
inductive Branch (root : Component) : Component → List Component → Prop where
  | root : Branch root root []
  | child {c p : Component} {above : List Component} :
      Branch root p above → c ∈ p.children → Branch root c (p :: above)

/-- A branch of the tree below a child goes on upwards to the root. -/
theorem Branch.append {root d c : Component} {above : List Component} (hd : d ∈ root.children)
    (h : Branch d c above) : Branch root c (above ++ [root]) := by
  induction h with
  | root => exact .child .root hd
  | child _ hc ih => exact .child ih hc

/-- The tree below a component of a tree is part of it. -/
theorem Branch.preorder_subset {root c : Component} {above : List Component}
    (h : Branch root c above) : c.preorder ⊆ root.preorder := by
  induction h with
  | root => exact List.Subset.refl _
  | @child c p above _ hc ih =>
    intro d hd
    exact ih (mem_preorder_of_mem_children hc hd)

mutual
/-- Every component of a tree stands at the end of a branch. -/
theorem exists_branch : (root : Component) → {c : Component} → c ∈ root.preorder →
    ∃ above, Branch root c above
  | node f cs, c, h => by
    rw [preorder, List.mem_cons] at h
    rcases h with rfl | h
    · exact ⟨[], .root⟩
    · obtain ⟨d, hd, above, hb⟩ := exists_branch_of_mem_preorders cs h
      exact ⟨above ++ [node f cs], hb.append hd⟩

/-- Every component of several trees stands at the end of a branch of one of them. -/
theorem exists_branch_of_mem_preorders : (cs : List Component) → {c : Component} →
    c ∈ preorders cs → ∃ d ∈ cs, ∃ above, Branch d c above
  | [], _, h => by simp [preorders] at h
  | d :: ds, c, h => by
    rw [preorders, List.mem_append] at h
    rcases h with h | h
    · obtain ⟨above, hb⟩ := exists_branch d h
      exact ⟨d, List.mem_cons_self, above, hb⟩
    · obtain ⟨e, he, hb⟩ := exists_branch_of_mem_preorders ds h
      exact ⟨e, List.mem_cons_of_mem _ he, hb⟩
end

/-- **Nodes and branches.** The components that are listed are those at the end of a branch. -/
theorem mem_nodes_iff {root c : Component} : c ∈ root.nodes ↔ ∃ above, Branch root c above := by
  rw [nodes_eq_preorder]
  constructor
  · exact exists_branch root
  · rintro ⟨above, h⟩
    apply h.preorder_subset
    rw [preorder_eq]
    exact List.mem_cons_self

/-! ### Positions -/

/-- The component at a position: the numbers of the children that lead to it from the root. -/
def at? (c : Component) : List Nat → Option Component
  | [] => some c
  | i :: rest => c.children[i]?.bind (fun d => d.at? rest)

@[simp] theorem at?_nil (c : Component) : c.at? [] = some c := rfl

/-- A position is looked up step by step from the root. -/
theorem at?_cons (c : Component) (i : Nat) (rest : List Nat) :
    c.at? (i :: rest) = c.children[i]?.bind (fun d => d.at? rest) := rfl

/-- A single step leads to a child. -/
theorem at?_singleton (c : Component) (i : Nat) : c.at? [i] = c.children[i]? := by
  rw [at?_cons]
  exact Option.bind_fun_some _

/-- To go on from a position is to go on from the component there. -/
theorem at?_append (c : Component) (pos rest : List Nat) :
    c.at? (pos ++ rest) = (c.at? pos).bind (fun d => d.at? rest) := by
  induction pos generalizing c with
  | nil => rfl
  | cons i pos ih =>
    rw [List.cons_append, at?_cons, at?_cons]
    cases c.children[i]? with
    | none => rfl
    | some d => exact ih d

/-- The component at the end of a branch has a position as long as the branch. -/
theorem Branch.exists_at? {root c : Component} {above : List Component} (h : Branch root c above) :
    ∃ pos, pos.length = above.length ∧ root.at? pos = some c := by
  induction h with
  | root => exact ⟨[], rfl, rfl⟩
  | @child c p above _ hc ih =>
    -- The number of the child comes behind the position of its parent.
    obtain ⟨pos, hlen, hp⟩ := ih
    obtain ⟨i, hi⟩ := List.mem_iff_getElem?.1 hc
    refine ⟨pos ++ [i], by simp [hlen], ?_⟩
    rw [at?_append, hp, Option.bind_some, at?_singleton, hi]

/-- The component at a position stands at the end of a branch as long as the position. -/
theorem branch_of_at? {root c : Component} {pos : List Nat} (h : root.at? pos = some c) :
    ∃ above, Branch root c above ∧ above.length = pos.length := by
  induction pos generalizing root with
  | nil =>
    rw [at?_nil, Option.some.injEq] at h
    subst h
    exact ⟨[], .root, rfl⟩
  | cons i pos ih =>
    rw [at?_cons] at h
    obtain ⟨d, hd, hc⟩ := Option.bind_eq_some_iff.1 h
    obtain ⟨above, hb, hlen⟩ := ih hc
    -- A position begins at the root, where a branch ends.
    exact ⟨above ++ [root], hb.append (List.mem_of_getElem? hd), by simp [hlen]⟩

/-- What is at a position is one of the components. -/
theorem mem_nodes_of_at? {root c : Component} {pos : List Nat} (h : root.at? pos = some c) :
    c ∈ root.nodes := by
  obtain ⟨above, hb, -⟩ := branch_of_at? h
  exact mem_nodes_iff.2 ⟨above, hb⟩

/-- The names and the specifiers of the components it renders, in order. -/
def labels (c : Component) : List (Text × Option Text) :=
  c.children.map (fun d => (d.facts.name, d.facts.specifier))

/-! ### Edges -/

mutual
/-- The components below a component, in the order of `preorder`, each behind its parent. -/
def edges : Component → List (Component × Component)
  | node f cs => edgesTo (node f cs) cs

/-- The edges from a parent to some of its children and those below them. -/
def edgesTo (p : Component) : List Component → List (Component × Component)
  | [] => []
  | c :: cs => (p, c) :: edges c ++ edgesTo p cs
end

/-- The edges of a tree are those that lead to its children and those below. -/
theorem edges_eq (c : Component) : c.edges = edgesTo c c.children := by
  cases c with
  | node f cs => simp [edges]

/-- To each child leads an edge, and behind it come those of the child. -/
theorem edgesTo_eq_flatMap (p : Component) (cs : List Component) :
    edgesTo p cs = cs.flatMap (fun c => (p, c) :: c.edges) := by
  induction cs with
  | nil => simp [edgesTo]
  | cons c cs ih => simp [edgesTo, ih]

/-- An edge leads to a child, or is one of a child. -/
theorem mem_edges {c : Component} {e : Component × Component} :
    e ∈ c.edges ↔ ∃ d ∈ c.children, e = (c, d) ∨ e ∈ d.edges := by
  rw [edges_eq, edgesTo_eq_flatMap, List.mem_flatMap]
  simp only [List.mem_cons]

/-- What is picked from the edges of a tree is picked child by child. -/
theorem filterMap_edges {α : Type} (f : Component × Component → Option α) (c : Component) :
    c.edges.filterMap f = c.children.flatMap (fun d => ((c, d) :: d.edges).filterMap f) := by
  rw [edges_eq, edgesTo_eq_flatMap, List.filterMap_flatMap]

end RenderTree.Component
