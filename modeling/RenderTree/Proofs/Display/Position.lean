import RenderTree.Display
import Mathlib.Data.List.Basic

/-!
# Positions in display trees

Where a label stands in a display tree: the numbers of the children that lead to it. All that is
said about the lines of a drawn tree is said about the positions of its labels.

* `Display.at?` — the tree at a position.
* `Display.positions` — the positions of a tree, each before those below it.
* `mem_positions_iff`, `positions_pairwise_lt` — they are all positions at which there is a tree, in
  lexicographic order.
* `length_positions` — there are as many as labels.
-/

namespace RenderTree.Display

/-- The tree at a position: the numbers of the children that lead to it from the root. -/
def at? (d : Display) : List Nat → Option Display
  | [] => some d
  | i :: rest => d.children[i]?.bind (fun e => e.at? rest)

@[simp] theorem at?_nil (d : Display) : d.at? [] = some d := rfl

/-- A position is looked up step by step from the root. -/
theorem at?_cons (d : Display) (i : Nat) (rest : List Nat) :
    d.at? (i :: rest) = d.children[i]?.bind (fun e => e.at? rest) := rfl

/-- To go on from a position is to go on from the tree there. -/
theorem at?_append (d : Display) (pos rest : List Nat) :
    d.at? (pos ++ rest) = (d.at? pos).bind (fun e => e.at? rest) := by
  induction pos generalizing d with
  | nil => rfl
  | cons i pos ih =>
    rw [List.cons_append, at?_cons, at?_cons]
    cases d.children[i]? with
    | none => rfl
    | some e => exact ih e

mutual
/-- The positions of a tree, each before those below it. -/
def positions : Display → List (List Nat)
  | leaf _ => [[]]
  | branch _ ds => [] :: positionsFrom 0 ds

/-- The positions of siblings and of what is below them; the first of them has the number `i`. -/
def positionsFrom (i : Nat) : List Display → List (List Nat)
  | [] => []
  | d :: ds => (positions d).map (i :: ·) ++ positionsFrom (i + 1) ds
end

mutual
/-- There are as many positions as labels. -/
theorem length_positions : (d : Display) → d.positions.length = d.count
  | leaf _ => rfl
  | branch _ ds => by
    rw [positions, count, List.length_cons, length_positionsFrom 0 ds, Nat.add_comm]

/-- There are as many positions of siblings, and below them, as labels. -/
theorem length_positionsFrom (i : Nat) : (ds : List Display) →
    (positionsFrom i ds).length = countAll ds
  | [] => rfl
  | d :: ds => by
    rw [positionsFrom, countAll, List.length_append, List.length_map, length_positions d,
      length_positionsFrom (i + 1) ds]
end

mutual
/-- The positions of a tree are those at which there is a tree. -/
theorem mem_positions_iff : (d : Display) → {pos : List Nat} →
    pos ∈ d.positions ↔ (d.at? pos).isSome
  | leaf l, pos => by
    cases pos <;> simp [positions, at?, children]
  | branch l ds, pos => by
    rw [positions, List.mem_cons, mem_positionsFrom_iff 0 ds]
    cases pos with
    | nil => simp
    | cons i rest => simp [at?_cons, children]

/-- The positions of siblings, and below them, are those at which there is a tree. -/
theorem mem_positionsFrom_iff (i : Nat) : (ds : List Display) → {pos : List Nat} →
    pos ∈ positionsFrom i ds ↔
      ∃ k rest, pos = (i + k) :: rest ∧ (ds[k]?.bind (fun e => e.at? rest)).isSome
  | [], pos => by simp [positionsFrom]
  | d :: ds, pos => by
    rw [positionsFrom, List.mem_append, List.mem_map, mem_positionsFrom_iff (i + 1) ds]
    constructor
    · rintro (⟨rest, hrest, rfl⟩ | ⟨k, rest, rfl, h⟩)
      · exact ⟨0, rest, rfl, (mem_positions_iff d).1 hrest⟩
      · exact ⟨k + 1, rest, by rw [Nat.add_right_comm, Nat.add_assoc], h⟩
    · rintro ⟨k, rest, rfl, h⟩
      cases k with
      | zero => exact .inl ⟨rest, (mem_positions_iff d).2 h, rfl⟩
      | succ k => exact .inr ⟨k, rest, by rw [Nat.add_right_comm, Nat.add_assoc], h⟩
end

mutual
/-- **Order.** The positions of a tree stand in lexicographic order. -/
theorem positions_pairwise_lt : (d : Display) → d.positions.Pairwise (· < ·)
  | leaf _ => List.pairwise_singleton ..
  | branch _ ds => by
    rw [positions, List.pairwise_cons]
    refine ⟨?_, positionsFrom_pairwise_lt 0 ds⟩
    intro pos hpos
    obtain ⟨k, rest, rfl, -⟩ := (mem_positionsFrom_iff 0 ds).1 hpos
    exact List.nil_lt_cons ..

/-- The positions of siblings, and below them, stand in lexicographic order. -/
theorem positionsFrom_pairwise_lt (i : Nat) : (ds : List Display) →
    (positionsFrom i ds).Pairwise (· < ·)
  | [] => .nil
  | d :: ds => by
    rw [positionsFrom, List.pairwise_append, List.pairwise_map]
    refine ⟨?_, positionsFrom_pairwise_lt (i + 1) ds, ?_⟩
    · exact (positions_pairwise_lt d).imp List.cons_lt_cons_self.2
    · -- All that is below a sibling comes before the siblings that follow it.
      intro pos hpos pos' hpos'
      obtain ⟨rest, -, rfl⟩ := List.mem_map.1 hpos
      obtain ⟨k, rest', rfl, -⟩ := (mem_positionsFrom_iff (i + 1) ds).1 hpos'
      exact List.cons_lt_cons_iff.2 (.inl (by omega))
end

end RenderTree.Display
