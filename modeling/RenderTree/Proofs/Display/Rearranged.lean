import RenderTree.Proofs.Display.Standing

/-!
# Display trees do not depend on the order of discovery

Unless containers give way, a component is presented with all its visible children below it, sorted.
The order in which children were found is seen only where two of them have the same key.

* `Component.Rearranged` — the children of any components of a tree put in another order.
* `Component.DistinctKeys` — no two visible siblings have the same key.
* `sortByKey_eq_of_perm` — items of different keys are sorted in one way only.
* `Component.Rearranged.present_eq` — a tree whose keys are distinct is presented as before if it is
  rearranged.
* `Component.present_byKey` — all that is said of the order in a display tree.
-/

namespace RenderTree

open RenderTree.Text

/-! ### Sorting by keys -/

section Sorting

variable {α : Type} {items items' : List (Text × α)}

/-- Sorted items have ascending keys. -/
theorem sortByKey_pairwise (items : List (Text × α)) :
    (sortByKey items).Pairwise (fun a b => a.1 ≤ b.1) := by
  have htrans : ∀ a b c : Text × α, (!decide (b.1 < a.1)) = true →
      (!decide (c.1 < b.1)) = true → (!decide (c.1 < a.1)) = true := by
    intro a b c hab hbc
    rw [not_decide_lt_iff] at hab hbc ⊢
    exact List.le_trans hab hbc
  have htotal : ∀ a b : Text × α, (!decide (b.1 < a.1) || !decide (a.1 < b.1)) = true := by
    intro a b
    rw [Bool.or_eq_true, not_decide_lt_iff, not_decide_lt_iff]
    exact List.le_total ..
  exact (List.pairwise_mergeSort htrans htotal items).imp not_decide_lt_iff.1

/-- **One order.** Items of different keys are sorted in one way, whatever order they come in. -/
theorem sortByKey_eq_of_perm (h : items.Perm items') (hkeys : (items.map Prod.fst).Nodup) :
    sortByKey items' = sortByKey items := by
  have hperm : (sortByKey items').Perm (sortByKey items) :=
    (sortByKey_perm items').trans (h.symm.trans (sortByKey_perm items).symm)
  refine hperm.eq_of_pairwise ?_ (sortByKey_pairwise items') (sortByKey_pairwise items)
  intro a b ha hb hab hba
  -- Items of one key are one item.
  have ha : a ∈ items := h.mem_iff.2 ((sortByKey_perm items').mem_iff.1 ha)
  have hb : b ∈ items := (sortByKey_perm items).mem_iff.1 hb
  exact List.inj_on_of_nodup_map hkeys ha hb (List.le_antisymm hab hba)

end Sorting

namespace Component

variable {o : Presentation} {c c' d t : Component} {way : List Nat} {ps : List (Component × Nat)}

/-! ### Rearranged trees -/

/-- The second tree is the first one with the children of any of its components in another order. -/
inductive Rearranged : Component → Component → Prop where
  | node {f : Facts} {cs ds cs' : List Component} (below : List.Forall₂ Rearranged cs ds)
      (order : ds.Perm cs') : Rearranged (node f cs) (node f cs')

/-- At every component of a tree the children that are not hidden have keys that are all
different: their specifiers and names in lower case. -/
def DistinctKeys (c : Component) : Prop :=
  ∀ d ∈ c.nodes, (d.visible.map fun e => lower (e.facts.specifier.getD [] ++ e.facts.name)).Nodup

/-- A rearranged tree has the same root. -/
theorem Rearranged.facts_eq (h : Rearranged c c') : c'.facts = c.facts := by
  cases h
  rfl

/-- To leave a tree as it is is to rearrange it. -/
theorem Rearranged.refl (c : Component) : Rearranged c c := by
  induction c using tree_induction with
  | node f cs ih => exact .node (List.forall₂_same.2 ih) (List.Perm.refl cs)

/-- To put the children of one component in another order is a rearrangement. -/
theorem Rearranged.of_perm {f : Facts} {cs cs' : List Component} (h : cs.Perm cs') :
    Rearranged (Component.node f cs) (Component.node f cs') :=
  .node (List.forall₂_same.2 fun d _ => .refl d) h

/-- The visible children of the root have distinct keys. -/
theorem DistinctKeys.self (h : c.DistinctKeys) : (c.visible.map fun e => e.facts.sortKey).Nodup :=
  h c (mem_nodes_iff.2 ⟨[], .root⟩)

/-- Distinct keys are distinct below every child. -/
theorem DistinctKeys.child (h : c.DistinctKeys) (hd : d ∈ c.children) : d.DistinctKeys := by
  intro e he
  rw [nodes_eq_preorder] at he
  exact h e (by rw [nodes_eq_preorder]; exact mem_preorder_of_mem_children hd he)

/-- Distinct keys are distinct below every position. -/
theorem DistinctKeys.at? {pos : List Nat} (h : c.DistinctKeys) (hd : c.at? pos = some d) :
    d.DistinctKeys := by
  induction pos generalizing c with
  | nil => exact Option.some.inj hd ▸ h
  | cons i pos ih =>
    rw [at?_cons] at hd
    obtain ⟨e, he, hd⟩ := Option.bind_eq_some_iff.1 hd
    exact ih (h.child (List.mem_of_getElem? he)) hd

/-! ### Trees without containers -/

/-- A component is presented with its visible children, sorted, if no container gives way. -/
theorem present_node (ho : o.hideContainers = false) (f : Facts) (cs : List Component) :
    (node f cs).present o =
      display (f.label ++ [] ++ f.labelEnd) ((sortByKey (presentVisible o cs)).map Prod.snd) := by
  rw [present, presentAs_eq, successor_of_hideContainers ho, presentVisible_eq]
  rfl

/-- What is sorted below a component is the same items in another order if its children are. -/
theorem presentVisible_perm {cs cs' : List Component} (h : cs.Perm cs') :
    (presentVisible o cs).Perm (presentVisible o cs') := by
  rw [presentVisible_eq, presentVisible_eq]
  exact (h.filter _).map _

/-- Components with the same keys that are presented alike make the same items to sort. -/
theorem presentVisible_eq_of_forall₂ {cs ds : List Component}
    (h : List.Forall₂ (fun c d => d.facts = c.facts ∧ d.present o = c.present o) cs ds) :
    presentVisible o ds = presentVisible o cs := by
  induction h with
  | nil => rfl
  | cons h _ ih =>
    obtain ⟨hfacts, hpresent⟩ := h
    rw [present, present] at hpresent
    rw [presentVisible, presentVisible, hfacts, hpresent, ih]

/-- **Rearranging.** A tree in which no two visible siblings have the same key is presented in one
way, whatever order its children come in. -/
theorem Rearranged.present_eq (ho : o.hideContainers = false) (h : Rearranged c c')
    (hkeys : c.DistinctKeys) : c'.present o = c.present o := by
  induction c using tree_induction generalizing c' with
  | node f cs ih =>
    cases h with
    | @node _ _ ds cs' below order =>
      -- First the trees below are rearranged one by one, then put in another order.
      have hbelow : presentVisible o ds = presentVisible o cs := by
        have hmem : List.Forall₂ (fun d e => d ∈ cs ∧ Rearranged d e) cs ds :=
          (List.forall₂_and_left cs ds).2 ⟨fun _ hd => hd, below⟩
        refine presentVisible_eq_of_forall₂ (hmem.imp fun d e h => ?_)
        obtain ⟨hd, hde⟩ := h
        exact ⟨hde.facts_eq, ih d hd hde (hkeys.child hd)⟩
      have hnodup : ((presentVisible o cs).map Prod.fst).Nodup := by
        rw [presentVisible_eq, List.map_map]
        exact hkeys.self
      have hperm : (presentVisible o cs).Perm (presentVisible o cs') :=
        hbelow ▸ presentVisible_perm order
      rw [present_node ho, present_node ho, sortByKey_eq_of_perm hperm hnodup]

/-! ### Siblings -/

/-- What is shown is what is visible, in some order. -/
theorem ShowsInOrder.map_fst_perm (h : c.ShowsInOrder ps) : (ps.map Prod.fst).Perm c.visible := by
  rw [showsInOrder_iff.1 h, ← map_fst_numbered]
  exact (List.mergeSort_perm c.numbered noLater).map _

/-- Visible children of different keys are shown with their keys increasing. -/
theorem ShowsInOrder.sortKey_pairwise_lt (h : c.ShowsInOrder ps)
    (hkeys : (c.visible.map fun d => d.facts.sortKey).Nodup) :
    ps.Pairwise (fun p q => p.1.facts.sortKey < q.1.facts.sortKey) := by
  have hnodup : (ps.map fun p => p.1.facts.sortKey).Nodup := by
    have hperm := h.map_fst_perm.map fun d => d.facts.sortKey
    rw [List.map_map] at hperm
    exact hperm.nodup_iff.2 hkeys
  refine (h.pairwise.and (List.pairwise_map.1 hnodup)).imp ?_
  rintro p q ⟨hbefore, hne⟩
  rcases before_iff.1 hbefore with hlt | ⟨heq, -⟩
  · exact hlt
  · exact absurd heq hne

/-- Visible children of one key are shown in the order in which they were found. -/
theorem ShowsInOrder.number_pairwise_lt (h : c.ShowsInOrder ps) :
    ps.Pairwise (fun p q => p.1.facts.sortKey = q.1.facts.sortKey → p.2 < q.2) := by
  refine h.pairwise.imp ?_
  intro p q hbefore heq
  rcases before_iff.1 hbefore with hlt | ⟨-, hnumber⟩
  · rw [heq] at hlt
    exact absurd hlt (List.lt_irrefl _)
  · exact hnumber

/-- Where containers are not hidden a component is shown as itself. -/
theorem ShownAs.eq_self (ho : o.hideContainers = false) (h : ShownAs o c way t) : t = c := by
  cases h with
  | self => rfl
  | step hgives => exact absurd hgives (successor_eq_none_iff.1 (successor_of_hideContainers ho c))

/-- Below a display tree stand the visible children of a component, each with its number. None has a
lesser key than one before it, and those of one key are in the order in which they were found. -/
structure Siblings (o : Presentation) (c : Component) (ps : List (Component × Nat))
    (e : Display) : Prop where
  mem_iff : ∀ d i, (d, i) ∈ ps ↔ c.children[i]? = some d ∧ d.facts.hidden = false
  children_eq : e.children = ps.map fun p => p.1.present o
  sorted : ps.Pairwise fun p q => lower (p.1.facts.specifier.getD [] ++ p.1.facts.name) ≤
    lower (q.1.facts.specifier.getD [] ++ q.1.facts.name)
  stable : ps.Pairwise fun p q => lower (p.1.facts.specifier.getD [] ++ p.1.facts.name) =
    lower (q.1.facts.specifier.getD [] ++ q.1.facts.name) → p.2 < q.2

/-- What is shown in order of a component are the siblings below its label. -/
theorem ShowsInOrder.siblings (ho : o.hideContainers = false) (h : c.ShowsInOrder ps) :
    Siblings o c ps (c.present o) where
  mem_iff := h.mem_iff
  children_eq := by
    have hself : ShownAs o c [] c :=
      .self (successor_eq_none_iff.1 (successor_of_hideContainers ho c))
    rw [Component.present_eq hself, children_display, showsInOrder_iff.1 h]
  sorted := by
    refine h.pairwise.imp ?_
    intro p q hbefore
    show p.1.facts.sortKey ≤ q.1.facts.sortKey
    rcases before_iff.1 hbefore with hlt | ⟨heq, -⟩
    · exact List.not_lt.1 (List.lt_asymm hlt)
    · exact heq ▸ List.le_refl p.1.facts.sortKey
  stable := h.number_pairwise_lt

/-- What is to be said of the order in a display tree of a component tree. -/
structure PresentedByKey (o : Presentation) (c : Component) (e : Display) : Prop where
  /-- If no two visible siblings have the same key, the tree is presented like this whatever order
  the children of any components come in. -/
  rearranged : c.DistinctKeys → ∀ c', Rearranged c c' → c'.present o = e
  /-- What stands at a position is what a component of the tree is presented as. Below it are the
  visible children of that, sorted, and strictly so if no two visible siblings have the same key. -/
  siblings : ∀ pos e', e.at? pos = some e' → ∃ n src ps,
    Origin o c pos n src ∧ c.at? src = some n ∧ e' = n.present o ∧ Siblings o n ps e' ∧
      (c.DistinctKeys →
        ps.Pairwise fun p q => lower (p.1.facts.specifier.getD [] ++ p.1.facts.name) <
          lower (q.1.facts.specifier.getD [] ++ q.1.facts.name))

/-- **Order of discovery.** If no container gives way, a tree with distinct keys is presented in one
way, whatever order its components were found in, and siblings stand in the order of their keys.
Siblings of one key stand in the order in which they were found. -/
theorem present_byKey (o : Presentation) (c : Component) (ho : o.hideContainers = false) :
    PresentedByKey o c (c.present o) where
  rearranged hkeys _ h := h.present_eq ho hkeys
  siblings pos e' h := by
    obtain ⟨n, src, origin, hn⟩ := at?_present_eq_some_iff.1 h
    obtain rfl := shows_iff.1 hn
    obtain ⟨way, t, target, -, hsrc, -⟩ := origin.exists_target
    obtain rfl := target.eq_self ho
    have horder := showsInOrder_shownInOrder t
    refine ⟨t, src, _, origin, hsrc, rfl, horder.siblings ho, fun hkeys => ?_⟩
    exact horder.sortKey_pairwise_lt (hkeys.at? hsrc).self

/-! ### One page, found in two orders -/

/-- A component with a name that is imported by a specifier. -/
def imported (name specifier : Text) (hidden : Bool) (cs : List Component) : Component :=
  node { name, specifier := some specifier, hidden } cs

/-- A page whose components have different keys, but for a hidden one. -/
def foundPage : Component :=
  node { name := "Page" } [imported "Footer" "./Footer" false [], imported "Footer" "./Footer" true [],
    imported "body" "./body" false [imported "Row" "./Row" false [], imported "Card" "./Card" false []]]

/-- The same page, in which the body was found first, and what is in it the other way round. -/
def foundPage' : Component :=
  node { name := "Page" } [
    imported "body" "./body" false [imported "Card" "./Card" false [], imported "Row" "./Row" false []],
    imported "Footer" "./Footer" false [], imported "Footer" "./Footer" true []]

/-- Both pages are presented alike. -/
theorem foundPage_byKey :
    ({} : Presentation).hideContainers = false ∧ foundPage.DistinctKeys ∧
      Rearranged foundPage foundPage' ∧ foundPage'.present {} = foundPage.present {} := by
  have hkeys : foundPage.DistinctKeys := by
    rw [DistinctKeys, nodes_eq_preorder]
    decide +kernel
  have hfound : Rearranged foundPage foundPage' :=
    .node (.cons (.refl _) (.cons (.refl _) (.cons (.of_perm (.swap ..)) .nil)))
      (List.perm_append_singleton _ [_, _])
  exact ⟨rfl, hkeys, hfound, (present_byKey {} foundPage rfl).rearranged hkeys _ hfound⟩

end Component

end RenderTree
