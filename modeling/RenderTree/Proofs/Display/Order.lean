import RenderTree.Proofs.Display.Present
import RenderTree.Proofs.Text.Basic
import Mathlib.Data.List.Nodup

/-!
# The order of what is shown

The visible children of a component are shown by their keys, and those of one key in the order in
which they were found. With its number a child is apart from all others, even from those that are
the same component, and there is only one order.

* `Component.Before` — a child is shown before another.
* `Component.ShowsInOrder` — the visible children with their numbers, in the order in which they are
  shown.
* `Component.showsInOrder_iff` — there is exactly one such list, `Component.shownInOrder`.
* `Component.filter_shownInOrder` — sorting keeps children of one key in the order in which they were
  found.
* `Component.map_sortByKey_visible` — what is shown below a component comes in this order.
-/

namespace RenderTree.Component

open RenderTree.Text

variable {c d : Component} {i : Nat} {p q : Component × Nat} {ps : List (Component × Nat)}

/-- A child with its number is shown before another if its specifier and name, in lower case, come
before those of the other, or if they are the same and it was found earlier. -/
def Before (p q : Component × Nat) : Prop :=
  lower (p.1.facts.specifier.getD [] ++ p.1.facts.name) <
      lower (q.1.facts.specifier.getD [] ++ q.1.facts.name) ∨
    lower (p.1.facts.specifier.getD [] ++ p.1.facts.name) =
      lower (q.1.facts.specifier.getD [] ++ q.1.facts.name) ∧ p.2 < q.2

/-- The key that children are sorted by is their specifier and name in lower case. -/
theorem before_iff : Before p q ↔ p.1.facts.sortKey < q.1.facts.sortKey ∨
    p.1.facts.sortKey = q.1.facts.sortKey ∧ p.2 < q.2 := by
  unfold Before Facts.sortKey
  exact Iff.rfl

/-- All visible children of a component, each with its number, in the order in which they are
shown. -/
structure ShowsInOrder (c : Component) (ps : List (Component × Nat)) : Prop where
  mem_iff : ∀ d i, (d, i) ∈ ps ↔ c.children[i]? = some d ∧ d.facts.hidden = false
  pairwise : ps.Pairwise Before

/-- Of two children only one comes before the other. -/
theorem Before.asymm (h : Before p q) : ¬ Before q p := by
  rintro (hkey | ⟨hkey, hnumber⟩)
  · rcases h with h | ⟨h, -⟩
    · exact List.lt_asymm h hkey
    · exact List.lt_irrefl _ (h ▸ hkey)
  · rcases h with h | ⟨-, h⟩
    · exact List.lt_irrefl _ (hkey ▸ h)
    · exact Nat.lt_asymm h hnumber

/-- What is shown at a place is a visible child, with its number. -/
theorem ShowsInOrder.getElem?_eq {k : Nat} (h : c.ShowsInOrder ps) (hk : ps[k]? = some p) :
    c.children[p.2]? = some p.1 ∧ p.1.facts.hidden = false :=
  (h.mem_iff p.1 p.2).1 (List.mem_of_getElem? hk)

/-- No child is shown twice. -/
theorem ShowsInOrder.nodup (h : c.ShowsInOrder ps) : ps.Nodup := by
  refine h.pairwise.imp ?_
  rintro p _ hbefore rfl
  exact hbefore.asymm hbefore

/-- A component has no more than one such list. -/
theorem ShowsInOrder.unique {qs : List (Component × Nat)} (hp : c.ShowsInOrder ps)
    (hq : c.ShowsInOrder qs) : ps = qs := by
  have hperm : ps.Perm qs := by
    rw [List.perm_ext_iff_of_nodup hp.nodup hq.nodup]
    rintro ⟨d, i⟩
    rw [hp.mem_iff, hq.mem_iff]
  exact hperm.eq_of_pairwise (fun _ _ _ _ h h' => absurd h' h.asymm) hp.pairwise hq.pairwise

/-! ### Sorting numbered children -/

/-- Whether a child may be shown before another as far as their keys are concerned. -/
def noLater (p q : Component × Nat) : Bool :=
  !decide (q.1.facts.sortKey < p.1.facts.sortKey)

/-- The order by which children are sorted is that of their keys. -/
theorem noLater_iff : noLater p q = true ↔ p.1.facts.sortKey ≤ q.1.facts.sortKey :=
  not_decide_lt_iff

/-- The order is transitive, as the sorting asks for. -/
theorem noLater_trans (p q r : Component × Nat) (hpq : noLater p q = true)
    (hqr : noLater q r = true) : noLater p r = true :=
  noLater_iff.2 (List.le_trans (noLater_iff.1 hpq) (noLater_iff.1 hqr))

/-- Any two children are in order one way or the other. -/
theorem noLater_total (p q : Component × Nat) : (noLater p q || noLater q p) = true := by
  rw [Bool.or_eq_true, noLater_iff, noLater_iff]
  exact List.le_total ..

/-- The visible children with their numbers, in the order in which they were found. -/
def numbered (c : Component) : List (Component × Nat) :=
  c.children.zipIdx.filter (fun p => p.1.facts.shown)

/-- The visible children with their numbers, in the order in which they are shown. -/
def shownInOrder (c : Component) : List (Component × Nat) :=
  c.numbered.mergeSort noLater

/-- A child is numbered if it is visible, by its place among all of them. -/
theorem mem_numbered : (d, i) ∈ c.numbered ↔ c.children[i]? = some d ∧ d.facts.hidden = false := by
  rw [numbered, List.mem_filter, List.mem_zipIdx_iff_getElem?]
  simp [Facts.shown]

/-- The numbers of the visible children are in the order in which these were found. -/
theorem numbered_pairwise (c : Component) : c.numbered.Pairwise (fun p q => p.2 < q.2) := by
  apply List.Pairwise.filter
  rw [List.pairwise_iff_getElem]
  intro k l hk hl hkl
  simpa using hkl

/-- Without their numbers these are the visible children. -/
theorem map_fst_numbered (c : Component) : c.numbered.map Prod.fst = c.visible := by
  have hfst : c.children.zipIdx.map Prod.fst = c.children := List.zipIdx_map_fst 0 c.children
  rw [numbered, visible]
  conv_rhs => rw [← hfst, List.filter_map]
  rfl

/-- **Sorting is stable.** Children of one key are shown in the order in which they were found. -/
theorem filter_shownInOrder (c : Component) (key : Text) :
    c.shownInOrder.filter (fun p => p.1.facts.sortKey == key) =
      c.numbered.filter (fun p => p.1.facts.sortKey == key) := by
  have hperm := (List.mergeSort_perm c.numbered noLater).filter (fun p => p.1.facts.sortKey == key)
  -- None of them may be shown before the one found before it, so sorting leaves them as they are.
  have hsorted : (c.numbered.filter (fun p => p.1.facts.sortKey == key)).Pairwise
      (fun p q => noLater p q = true) := by
    refine (c.numbered_pairwise.filter _).imp_of_mem fun {p q} hp hq _ => ?_
    have hkey : p.1.facts.sortKey = q.1.facts.sortKey :=
      (beq_iff_eq.1 (List.mem_filter.1 hp).2).trans (beq_iff_eq.1 (List.mem_filter.1 hq).2).symm
    exact noLater_iff.2 (hkey ▸ List.le_refl _)
  have hsub := (List.sublist_mergeSort noLater_trans noLater_total hsorted
    List.filter_sublist).filter (fun p => p.1.facts.sortKey == key)
  rw [List.filter_filter] at hsub
  simp only [Bool.and_self] at hsub
  exact (hsub.eq_of_length hperm.length_eq.symm).symm

/-- The children that are shown come in order, the first found first where their keys are the same.
-/
theorem shownInOrder_pairwise (c : Component) : c.shownInOrder.Pairwise Before := by
  rw [List.pairwise_iff_forall_sublist]
  intro p q hpq
  have hle : noLater p q = true :=
    List.pairwise_iff_forall_sublist.1
      (List.pairwise_mergeSort noLater_trans noLater_total c.numbered) hpq
  by_cases hge : noLater q p = true
  · have hkey : p.1.facts.sortKey = q.1.facts.sortKey :=
      List.le_antisymm (noLater_iff.1 hle) (noLater_iff.1 hge)
    have hfound := hpq.filter (fun r => r.1.facts.sortKey == q.1.facts.sortKey)
    rw [filter_shownInOrder] at hfound
    simp only [List.filter_cons, hkey, beq_self_eq_true, if_true, List.filter_nil] at hfound
    exact before_iff.2
      (.inr ⟨hkey, List.pairwise_iff_forall_sublist.1 (c.numbered_pairwise.filter _) hfound⟩)
  · rw [noLater_iff, List.not_le] at hge
    exact before_iff.2 (.inl hge)

/-- The sorted list is one of the visible children in the order in which they are shown. -/
theorem showsInOrder_shownInOrder (c : Component) : c.ShowsInOrder c.shownInOrder where
  mem_iff d i := by
    rw [shownInOrder, List.mem_mergeSort, mem_numbered]
  pairwise := shownInOrder_pairwise c

/-- **Order.** There is exactly one such list. -/
theorem showsInOrder_iff : c.ShowsInOrder ps ↔ ps = c.shownInOrder := by
  constructor
  · intro h
    exact h.unique (showsInOrder_shownInOrder c)
  · rintro rfl
    exact showsInOrder_shownInOrder c

/-- Nothing is shown below a component exactly if all its children are hidden. -/
theorem shownInOrder_eq_nil_iff :
    c.shownInOrder = [] ↔ ∀ d ∈ c.children, d.facts.hidden = true := by
  have horder := showsInOrder_shownInOrder c
  constructor
  · intro hnil d hd
    by_contra hshown
    obtain ⟨i, hi⟩ := List.mem_iff_getElem?.1 hd
    have hmem := (horder.mem_iff d i).2 ⟨hi, by simpa using hshown⟩
    rw [hnil] at hmem
    cases hmem
  · intro hhidden
    rw [List.eq_nil_iff_forall_not_mem]
    rintro ⟨d, i⟩ hmem
    obtain ⟨hi, hshown⟩ := (horder.mem_iff d i).1 hmem
    rw [hhidden d (List.mem_of_getElem? hi)] at hshown
    cases hshown

/-- What stands for the visible children, sorted by their keys, stands in this order. -/
theorem map_sortByKey_visible {α : Type} (c : Component) (f : Component → α) :
    (sortByKey (c.visible.map fun d => (d.facts.sortKey, f d))).map Prod.snd =
      c.shownInOrder.map fun p => f p.1 := by
  have hitems : c.visible.map (fun d => (d.facts.sortKey, f d)) =
      c.numbered.map fun p => (p.1.facts.sortKey, f p.1) := by
    rw [← map_fst_numbered, List.map_map]
    rfl
  have hsort : sortByKey (c.numbered.map fun p => (p.1.facts.sortKey, f p.1)) =
      c.shownInOrder.map fun p => (p.1.facts.sortKey, f p.1) := by
    symm
    apply List.map_mergeSort
    intro p _ q _
    rfl
  rw [hitems, hsort, List.map_map]
  rfl

end RenderTree.Component
