import RenderTree.Proofs.Walk.Way

/-!
# Errors and the tree

A walk lists the files that could not be read apart from its tree, but they can be told from the
tree: they are the files of those components that remained unresolved although they have one.

* `Walker.fault?` — the file of a component that could not be read, and why.
* `component_errors`, `walk_errors` — the errors are the faults of the tree, in its order.
-/

namespace RenderTree

namespace Walker

variable {w : Walker} {l : Path} {above : List Path} {depth : Nat} {b : Binding}
  {c p : Component} {errors : List ScanError}

/-- The fault for which the component at the end of an edge remained unresolved. It has none if it
is not unresolved, or has no file. -/
def fault? (w : Walker) (e : Component × Component) : Option ScanError :=
  if e.2.facts.status = .unresolved then
    (w.target e.1 e.2).bind fun l =>
      match w.scan l with
      | .error fault => some ⟨l, fault⟩
      | .ok _ => none
  else none

/-- Only unresolved components have a file that could not be read. -/
theorem fault?_of_status (h : c.facts.status ≠ .unresolved) : w.fault? (p, c) = none :=
  if_neg h

/-- An unresolved component with a file has the fault of that. -/
theorem fault?_of_target (hc : c.facts.status = .unresolved) :
    w.fault? (p, c) = (w.target p c).bind fun l =>
      match w.scan l with
      | .error fault => some ⟨l, fault⟩
      | .ok _ => none :=
  if_pos hc

/-- A component that was not opened lists its own fault, if it has one. -/
theorem Exit.errors_eq (h : w.Exit l above depth b c errors) (hp : p.facts.path = some l)
    (hc : c.facts.status ≠ .scanned) : errors = (w.fault? (p, c)).toList := by
  have ht := h.target_eq hp
  cases h with
  | missing found =>
    rw [fault?_of_target rfl, ht, found]
    rfl
  | cycle | beyond => rw [fault?_of_status (by simp)]; rfl
  | @faulty next fault found new near scanned =>
    rw [fault?_of_target rfl, ht, found, Option.bind_some, scanned]
    rfl
  | opened => simp at hc

/-- The errors below the components of a file are picked from their trees if those of each are. The
errors may be those of another walker. -/
theorem components_errors_eq {v : Walker} {bs : List Binding} {facts : Facts}
    {f : Component × Component → Option ScanError}
    (h : ∀ b ∈ bs, (v.component l above depth b).2 =
      ((.node facts (w.components l above depth bs).1, (w.component l above depth b).1) ::
        (w.component l above depth b).1.edges).filterMap f) :
    (v.components l above depth bs).2 =
      (Component.node facts (w.components l above depth bs).1).edges.filterMap f := by
  rw [Component.filterMap_edges, Component.children_node]
  conv_rhs => rw [components_eq]
  rw [components_eq v, List.flatMap_map]
  apply List.flatMap_congr
  intro b hb
  rw [h b hb, components_eq]

/-- **Errors are faults.** The errors below a component that was handled, its own included, are the
faults of its tree. -/
theorem component_errors (w : Walker) (l : Path) (above : List Path) :
    ∀ depth b p, p.facts.path = some l →
      (w.component l above depth b).2 =
        ((p, (w.component l above depth b).1) ::
          (w.component l above depth b).1.edges).filterMap w.fault? := by
  induction l, above using w.way_induction with
  | step l above ih =>
    intro depth b p hp
    have hx := w.exit_component l above depth b
    generalize w.component l above depth b = r at hx ⊢
    obtain ⟨c, errors⟩ := r
    by_cases hc : c.facts.status = .scanned
    · -- The component itself is at no fault, and its children are handled one way further.
      cases hx with
      | missing | cycle | beyond | faulty => cases hc
      | @opened next used found new near scanned =>
        rw [List.filterMap_cons_none (fault?_of_status (by simp))]
        apply components_errors_eq
        intro b' _
        exact ih next ⟨used, scanned⟩ new (depth + 1) b' _ rfl
    · rw [hx.errors_eq hp hc, List.filterMap_cons, Component.filterMap_edges,
        hx.children_eq_nil hc]
      cases w.fault? (p, c) <;> rfl

end Walker

/-- The errors of a walk are the faults of its tree, in the order of its components. -/
theorem walk_errors {w : Walker} {root : Path} {t : Walked}
    (h : w.walk root = .ok t) :
    t.errors = t.root.edges.filterMap w.fault? := by
  obtain ⟨l, used, -, -, rfl⟩ := walk_eq_ok_iff.1 h
  apply Walker.components_errors_eq
  intro b _
  exact Walker.component_errors _ l [] 1 b _ rfl

end RenderTree
