import RenderTree.Proofs.Source.InOrder
import RenderTree.Proofs.Tree.Lineage
import Mathlib.Logic.Function.Iterate

/-!
# The loop over a component tree

The components of a tree come off a stack, which begins with the root alone. The one at the top is
listed, and those that it renders are pushed in reverse, so that the first of them comes to the top.
Whatever the tree is like, the stack is empty in the end, and the components have been listed in the
order of the recursion on the tree.

* `Component.turn` — a turn of the loop.
* `Component.ahead`, `ahead_concat` — what is still to be listed when a stack is left, and that a turn
  lists the first of it.
* `turns_eq` — what any number of turns has listed, and what it has left.
* `inOrder_nodes` — the components are listed by their positions, in lexicographic order.
* `length_nodes`, `count_eq_tally` — numbers of components are those of the recursion on the tree.
* `turns_preorder` — all of this together.
-/

namespace RenderTree.Component

variable {cs stack : List Component}

/-! ### Turns -/

/-- One turn of the loop over a stack, whose top is its end. The component at the top is listed and
makes way for those that it renders, the last of them first. -/
def turn : List Component × List Component → List Component × List Component
  | (stack, listed) =>
    match stack.getLast? with
    | none => (stack, listed)
    | some c => (stack.dropLast ++ c.children.reverse, listed ++ [c])

@[simp] theorem turn_nil (listed : List Component) : turn ([], listed) = ([], listed) := rfl

/-- A turn takes the tree at the end of the stack and puts its children there instead. -/
@[simp] theorem turn_concat (stack : List Component) (c : Component) (listed : List Component) :
    turn (stack ++ [c], listed) = (stack ++ c.children.reverse, listed ++ [c]) := by
  simp [turn]

/-- What is still to be listed when a stack is left: all of its trees, from the top down. -/
def ahead (stack : List Component) : List Component :=
  preorders stack.reverse

@[simp] theorem ahead_nil : ahead [] = [] := by
  simp [ahead, preorders]

/-- At the beginning the whole tree is ahead. -/
theorem ahead_root (c : Component) : ahead [c] = c.preorder := by
  simp [ahead, preorders]

/-- **A turn.** What is ahead begins with the top of the stack, and goes on with what is ahead once
that has made way. -/
theorem ahead_concat (stack : List Component) (c : Component) :
    ahead (stack ++ [c]) = c :: ahead (stack ++ c.children.reverse) := by
  simp [ahead, preorders, preorders_append, preorder_eq c]

/-- Nothing is ahead only when the stack is empty. -/
theorem ahead_eq_nil_iff : ahead stack = [] ↔ stack = [] := by
  rcases List.eq_nil_or_concat stack with rfl | ⟨below, c, rfl⟩
  · simp
  · -- The root of the tree at the top is the first of what is ahead.
    simp [ahead_concat]

/-- **Turns.** After `n` turns the first `n` components of what was ahead are listed, and what is ahead
are the others. -/
theorem turns_eq (n : Nat) : ∀ stack listed,
    (turn^[n] (stack, listed)).2 = listed ++ (ahead stack).take n ∧
      ahead (turn^[n] (stack, listed)).1 = (ahead stack).drop n := by
  induction n with
  | zero => simp
  | succ n ih =>
    intro stack listed
    rw [Function.iterate_succ_apply]
    rcases List.eq_nil_or_concat stack with rfl | ⟨below, c, rfl⟩
    · -- The loop has ended, and nothing changes any more.
      simpa using ih [] listed
    · obtain ⟨hlisted, hahead⟩ := ih (below ++ c.children.reverse) (listed ++ [c])
      rw [List.concat_eq_append, turn_concat, ahead_concat, hlisted, hahead]
      simp

/-! ### Numbers of components -/

/-- Several trees have as many components as their sizes say if each of them has. -/
theorem length_preorders (h : ∀ c ∈ cs, c.preorder.length = c.size) :
    (preorders cs).length = sizes cs := by
  induction cs with
  | nil => rfl
  | cons c cs ih =>
    have hc := h c List.mem_cons_self
    have hcs := ih fun d hd => h d (List.mem_cons_of_mem _ hd)
    simp [preorders, sizes, hc, hcs]

/-- A tree has as many components as its size says. -/
theorem length_preorder (c : Component) : c.preorder.length = c.size := by
  induction c using tree_induction with
  | node f cs ih =>
    have hcs := length_preorders ih
    simp only [preorder, size, List.length_cons, hcs]
    omega

/-- The size of a tree is the number of its components. -/
theorem length_nodes (c : Component) : c.nodes.length = c.size := by
  rw [nodes_eq_preorder, length_preorder]

mutual
/-- The number of components of a tree that have a status: one or none for its root, and those of the
trees below. -/
def tally (status : Status) : Component → Nat
  | node f cs => (if f.status = status then 1 else 0) + tallies status cs

/-- The number of components of several trees that have a status. -/
def tallies (status : Status) : List Component → Nat
  | [] => 0
  | c :: cs => tally status c + tallies status cs
end

mutual
/-- The tally of a status counts the components in pre-order that have it. -/
theorem countP_preorder (status : Status) : (c : Component) →
    c.preorder.countP (fun d => d.facts.status == status) = c.tally status
  | node f cs => by
    rw [preorder, tally, List.countP_cons, countP_preorders status cs, Nat.add_comm]
    simp

theorem countP_preorders (status : Status) : (cs : List Component) →
    (preorders cs).countP (fun d => d.facts.status == status) = tallies status cs
  | [] => rfl
  | c :: cs => by
    rw [preorders, tallies, List.countP_append, countP_preorder status c,
      countP_preorders status cs]
end

/-- The components that have a status are counted alike by the loop and by recursion. -/
theorem count_eq_tally (c : Component) (status : Status) : c.count status = c.tally status := by
  rw [count, nodes_eq_preorder, countP_preorder]

/-! ### The order of positions -/

/-- **Order.** The components of a tree are listed once for each position, and in the order of the
positions. -/
theorem inOrder_preorder (c : Component) :
    InOrder (fun pos d => c.at? pos = some d) c.preorder := by
  induction c using tree_induction with
  | node f cs ih =>
    rw [preorder, preorders_eq_flatMap]
    refine ((InOrder.flatMap ih).cons (by simp) (node f cs)).congr ?_
    intro pos d
    -- A position is that of the root, or begins with the number of a child.
    cases pos with
    | nil => simp [eq_comm]
    | cons i rest => simp [at?_cons, Option.bind_eq_some_iff]

/-- The components are listed in the order of their positions. -/
theorem inOrder_nodes (c : Component) : InOrder (fun pos d => c.at? pos = some d) c.nodes := by
  rw [nodes_eq_preorder]
  exact inOrder_preorder c

/-! ### The whole loop -/

/-- The stack is empty after as many turns as there are components, and not before. -/
theorem turns_eq_nil_iff (c : Component) (n : Nat) :
    (turn^[n] ([c], [])).1 = [] ↔ c.size ≤ n := by
  have hahead := (turns_eq n [c] []).2
  rw [← ahead_eq_nil_iff, hahead, ahead_root, List.drop_eq_nil_iff, length_preorder]

/-- **The loop.** The loop over a stack that begins with the root of a tree lists one component in each
turn and ends when it has listed all of them. They are those of the tree in pre-order, as the
recursion on the tree gives it: one for each position, a component before what is below it, and all
that is below a child before the children that follow. So the numbers of components, and of those that
have a status, are those that are counted by recursion. -/
theorem turns_preorder (c : Component) :
    (∀ n, (turn^[n] ([c], [])).2 = c.nodes.take n ∧
        ((turn^[n] ([c], [])).1 = [] ↔ c.size ≤ n)) ∧
      c.nodes = c.preorder ∧
      InOrder (fun pos d => c.at? pos = some d) c.nodes ∧
      c.nodes.length = c.size ∧
      ∀ status, c.count status = c.tally status := by
  refine ⟨fun n => ⟨?_, turns_eq_nil_iff c n⟩, nodes_eq_preorder c, inOrder_nodes c, length_nodes c,
    count_eq_tally c⟩
  rw [(turns_eq n [c] []).1, ahead_root, nodes_eq_preorder, List.nil_append]

end RenderTree.Component
