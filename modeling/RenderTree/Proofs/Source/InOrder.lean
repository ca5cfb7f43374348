import Mathlib.Data.List.Sort

/-!
# What stands in a tree, in order

To read a tree from its beginning to its end is to go through its positions in lexicographic order.
A search that goes level by level finds the same things in the same order.

* `InOrder` — a list of what a predicate places in a tree, in the order of the positions.
* `InOrder.flatMap` — a level more: what is placed below the elements of a list; `InOrder.cons`: what
  stands above it.
* `InOrder.unique` — there is one such list.
* `First`, `InOrder.head?_eq_some_iff` — what is placed first is the head of it.
-/

namespace RenderTree

variable {α β γ : Type} {P Q : List Nat → α → Prop} {xs ys : List α} {x y : α}

/-- The list consists of what `P` places, one for each position, in the order of the positions. -/
def InOrder (P : List Nat → α → Prop) (xs : List α) : Prop :=
  ∃ placed : List (List Nat × α), placed.Pairwise (fun p q => p.1 < q.1) ∧
    placed.map Prod.snd = xs ∧ ∀ way x, P way x ↔ (way, x) ∈ placed

/-- Of all that `P` places, `x` stands first. -/
def First (P : List Nat → α → Prop) (x : α) : Prop :=
  ∃ way, P way x ∧ ∀ way' y, P way' y → ¬ way' < way

namespace InOrder

/-- Only what is asked for matters, not how it is said. -/
theorem congr (h : InOrder P xs) (hPQ : ∀ way x, Q way x ↔ P way x) : InOrder Q xs := by
  obtain ⟨placed, hpairwise, hmap, hmem⟩ := h
  exact ⟨placed, hpairwise, hmap, fun way x => (hPQ way x).trans (hmem way x)⟩

/-- **One list.** What is placed has one list. -/
theorem unique (h : InOrder P xs) (h' : InOrder P ys) : ys = xs := by
  obtain ⟨placed, hpairwise, rfl, hmem⟩ := h
  obtain ⟨placed', hpairwise', rfl, hmem'⟩ := h'
  have hirrefl : Std.Irrefl fun p q : List Nat × α => p.1 < q.1 := ⟨fun p => List.lt_irrefl p.1⟩
  have hantisymm : Std.Antisymm fun p q : List Nat × α => p.1 < q.1 :=
    ⟨fun p q hpq hqp => absurd hqp (List.lt_asymm hpq)⟩
  rw [hpairwise'.eq_of_mem_iff hpairwise fun p => (hmem' p.1 p.2).symm.trans (hmem p.1 p.2)]

/-! ### Level by level -/

/-- Where nothing is asked for the empty list is in order. -/
theorem nil (h : ∀ way x, ¬ P way x) : InOrder P [] :=
  ⟨[], .nil, rfl, fun way x => by simp [h way x]⟩

/-- A thing by itself stands at the beginning of it. -/
theorem single (x : α) : InOrder (fun way y => way = [] ∧ y = x) [x] :=
  ⟨[([], x)], List.pairwise_singleton .., rfl, fun way y => by simp⟩

/-- What stands at the beginning of a tree comes before all that is placed in it. -/
theorem cons (h : InOrder P xs) (hP : ∀ y, ¬ P [] y) (x : α) :
    InOrder (fun way y => way = [] ∧ y = x ∨ P way y) (x :: xs) := by
  obtain ⟨placed, hpairwise, rfl, hmem⟩ := h
  refine ⟨([], x) :: placed, List.pairwise_cons.2 ⟨?_, hpairwise⟩, rfl, ?_⟩
  · rintro ⟨way, y⟩ hy
    cases way with
    | nil => exact absurd ((hmem [] y).2 hy) (hP y)
    | cons i rest => exact List.nil_lt_cons ..
  · intro way y
    rw [List.mem_cons, Prod.mk.injEq, ← hmem]

/-- What is found at a single place is in order. -/
theorem toList (found : Option α) :
    InOrder (fun way x => way = [] ∧ found = some x) found.toList := by
  cases found with
  | none => exact nil (by simp)
  | some x =>
    refine (single x).congr fun way y => and_congr_right' ?_
    rw [Option.some.injEq, eq_comm]

/-- What is made of things stands where they do. -/
theorem filterMap (h : InOrder P xs) (f : α → Option β) :
    InOrder (fun way y => ∃ x, P way x ∧ f x = some y) (xs.filterMap f) := by
  obtain ⟨placed, hpairwise, rfl, hmem⟩ := h
  -- Each item keeps its place.
  refine ⟨placed.filterMap (fun p => (f p.2).map (p.1, ·)), ?_, ?_, ?_⟩
  · refine hpairwise.filterMap _ fun p q hpq p' hp' q' hq' => ?_
    obtain ⟨y, -, rfl⟩ := Option.map_eq_some_iff.1 hp'
    obtain ⟨z, -, rfl⟩ := Option.map_eq_some_iff.1 hq'
    exact hpq
  · rw [List.map_filterMap, List.filterMap_map]
    refine List.filterMap_congr fun p _ => ?_
    rw [Option.map_map]
    exact Option.map_id' 
  · intro way y
    rw [List.mem_filterMap]
    constructor
    · rintro ⟨x, hx, hy⟩
      exact ⟨(way, x), (hmem way x).1 hx, by rw [hy]; rfl⟩
    · rintro ⟨⟨way', x⟩, hx, heq⟩
      obtain ⟨z, hz, heq⟩ := Option.map_eq_some_iff.1 heq
      obtain ⟨rfl, rfl⟩ := Prod.mk.inj heq
      exact ⟨x, (hmem way' x).2 hx, hz⟩

/-- What is made of each item is in the same order. -/
theorem map (h : InOrder P xs) (f : α → β) :
    InOrder (fun way y => ∃ x, P way x ∧ y = f x) (xs.map f) := by
  rw [← List.filterMap_eq_map]
  refine (h.filterMap (some ∘ f)).congr fun way y => ?_
  simp only [Function.comp_apply, Option.some.injEq, eq_comm]

/-- **A level more.** What stands below the elements of a list stands in the order of the elements.
The first of these has the number `k`. -/
theorem flatMap_from {f : α → List β} {P : α → List Nat → β → Prop}
    (h : ∀ x ∈ xs, InOrder (P x) (f x)) : ∀ k, InOrder
      (fun way y => ∃ i x rest, way = (k + i) :: rest ∧ xs[i]? = some x ∧ P x rest y)
      (xs.flatMap f) := by
  induction xs with
  | nil => exact fun k => nil (by simp)
  | cons x xs ih =>
    intro k
    obtain ⟨here, hhere, hmap, hmem⟩ := h x List.mem_cons_self
    obtain ⟨later, hlater, hmap', hmem'⟩ := ih (fun y hy => h y (List.mem_cons_of_mem x hy)) (k + 1)
    refine ⟨here.map (fun p => (k :: p.1, p.2)) ++ later, ?_, ?_, ?_⟩
    · rw [List.pairwise_append, List.pairwise_map]
      refine ⟨hhere.imp List.cons_lt_cons_self.2, hlater, ?_⟩
      -- All that is below an element comes before the elements that follow it.
      intro p hp q hq
      obtain ⟨p', -, rfl⟩ := List.mem_map.1 hp
      obtain ⟨i, z, rest, hway, -⟩ := (hmem' q.1 q.2).2 hq
      rw [hway]
      exact List.cons_lt_cons_iff.2 (.inl (by omega))
    · rw [List.map_append, List.map_map, List.flatMap_cons, ← hmap, ← hmap']
      rfl
    · intro way y
      rw [List.mem_append, List.mem_map, ← hmem']
      constructor
      · rintro ⟨i, z, rest, rfl, hz, hP⟩
        cases i with
        | zero =>
          rw [List.getElem?_cons_zero, Option.some.injEq] at hz
          subst hz
          exact .inl ⟨(rest, y), (hmem rest y).1 hP, rfl⟩
        | succ i => exact .inr ⟨i, z, rest, by rw [Nat.add_right_comm, Nat.add_assoc], hz, hP⟩
      · rintro (⟨⟨rest, z⟩, hz, heq⟩ | ⟨i, z, rest, rfl, hz, hP⟩)
        · obtain ⟨rfl, rfl⟩ := Prod.mk.inj heq
          exact ⟨0, x, rest, rfl, rfl, (hmem rest z).2 hz⟩
        · exact ⟨i + 1, z, rest, by rw [Nat.add_right_comm, Nat.add_assoc], hz, hP⟩

/-- **A level more.** What stands below the elements of a list stands in the order of the elements.
-/
theorem flatMap {f : α → List β} {P : α → List Nat → β → Prop}
    (h : ∀ x ∈ xs, InOrder (P x) (f x)) :
    InOrder (fun way y => ∃ i x rest, way = i :: rest ∧ xs[i]? = some x ∧ P x rest y)
      (xs.flatMap f) :=
  (flatMap_from h 0).congr fun way y => by simp only [Nat.zero_add]

/-- The elements of a list stand in the order of their numbers. -/
theorem elements (xs : List α) : InOrder (fun way x => ∃ i, way = [i] ∧ xs[i]? = some x) xs := by
  have h : InOrder _ (xs.flatMap fun x => [x]) := .flatMap fun x _ => .single x
  rw [List.flatMap_singleton'] at h
  refine h.congr fun way x => ?_
  constructor
  · rintro ⟨i, rfl, hx⟩
    exact ⟨i, x, [], rfl, hx, rfl, rfl⟩
  · rintro ⟨i, x, _, rfl, hx, rfl, rfl⟩
    exact ⟨i, rfl, hx⟩

/-- **A level more.** Elements of which nothing is made keep their numbers. -/
theorem flatMap_filterMap {g : α → Option γ} {f : γ → List β} {P : γ → List Nat → β → Prop}
    (h : ∀ z, InOrder (P z) (f z)) :
    InOrder (fun way y => ∃ i x rest, way = i :: rest ∧ xs[i]? = some x ∧
      ∃ z, g x = some z ∧ P z rest y) ((xs.filterMap g).flatMap f) := by
  rw [List.filterMap_eq_flatMap_toList, List.flatMap_assoc]
  refine flatMap (P := fun x rest y => ∃ z, g x = some z ∧ P z rest y) fun x _ => ?_
  cases hx : g x with
  | none => exact nil (by simp)
  | some z =>
    rw [Option.toList_some, List.flatMap_singleton]
    exact (h z).congr fun way y => by simp

/-- Where lists are in order for some of the items, the lists one behind the other are. -/
theorem flatMap_filter {keep : α → Bool} {f : α → List β} {P : α → List Nat → β → Prop}
    (h : ∀ x, InOrder (P x) (f x)) :
    InOrder (fun way y => ∃ i x rest, way = i :: rest ∧ xs[i]? = some x ∧ keep x = true ∧
      P x rest y) ((xs.filter keep).flatMap f) := by
  rw [← List.filterMap_eq_filter]
  refine (flatMap_filterMap h).congr fun way y => ?_
  simp only [Option.guard_eq_some_iff]
  constructor
  · rintro ⟨i, x, rest, hway, hx, hkeep, hP⟩
    exact ⟨i, x, rest, hway, hx, x, ⟨rfl, hkeep⟩, hP⟩
  · rintro ⟨i, x, rest, hway, hx, _, ⟨rfl, hkeep⟩, hP⟩
    exact ⟨i, x, rest, hway, hx, hkeep, hP⟩

/-! ### The first of them -/

/-- **The first.** The head of the list is what is placed first. -/
theorem head?_eq_some_iff (h : InOrder P xs) : xs.head? = some x ↔ First P x := by
  obtain ⟨placed, hpairwise, rfl, hmem⟩ := h
  cases placed with
  | nil =>
    simp only [List.not_mem_nil, iff_false] at hmem
    constructor
    · simp
    · rintro ⟨way, hway, -⟩
      exact absurd hway (hmem way x)
  | cons p placed =>
    obtain ⟨hfirst, -⟩ := List.pairwise_cons.1 hpairwise
    rw [List.map_cons, List.head?_cons, Option.some.injEq]
    constructor
    · rintro rfl
      refine ⟨p.1, (hmem p.1 p.2).2 List.mem_cons_self, ?_⟩
      intro way y hway
      rcases List.mem_cons.1 ((hmem way y).1 hway) with rfl | hlater
      · exact List.lt_irrefl _
      · exact List.lt_asymm (hfirst _ hlater)
    · -- What comes later in the list comes later in the tree than its head.
      rintro ⟨way, hway, hleast⟩
      rcases List.mem_cons.1 ((hmem way x).1 hway) with rfl | hlater
      · rfl
      · exact absurd (hfirst _ hlater) (hleast p.1 p.2 ((hmem p.1 p.2).2 List.mem_cons_self))

end InOrder

end RenderTree
