import RenderTree.Path.Basic

/-!
# Component trees

The tree of components that a walk finds: each with the name it is imported by, where it was looked
up, how deep it lies and what became of it.

* `Status`, `Facts`, `Component` — a component and those it renders.
* `Component.nodes` — all components of a tree, parents first.
* `Component.count` — how many of them have a status.
-/

namespace RenderTree

/-- What became of a component: not yet looked up, found but not opened, opened, not found or not
readable, or open further up already. -/
inductive Status where
  | pending | resolved | scanned | unresolved | cycle
deriving DecidableEq, Repr, Inhabited

/-- What is known of a component apart from those it renders. -/
structure Facts where
  name : Text
  specifier : Option Text := none
  path : Option Path := none
  depth : Nat := 0
  hidden : Bool := false
  status : Status := .pending
deriving DecidableEq, Inhabited

/-- A component with those it renders, in the order in which they were found. -/
inductive Component where
  | node (facts : Facts) (children : List Component)
deriving Inhabited

namespace Component

/-- What is known of the component itself. -/
def facts : Component → Facts
  | node f _ => f

/-- The components it renders. -/
def children : Component → List Component
  | node _ cs => cs

@[simp] theorem facts_node (f cs) : (node f cs).facts = f := rfl
@[simp] theorem children_node (f cs) : (node f cs).children = cs := rfl

mutual
/-- The number of components of a tree. -/
def size : Component → Nat
  | node _ cs => 1 + sizes cs

/-- The number of components of several trees. -/
def sizes : List Component → Nat
  | [] => 0
  | c :: cs => size c + sizes cs
end

/-- The sizes of two lists of trees add up. -/
theorem sizes_append (cs ds : List Component) : sizes (cs ++ ds) = sizes cs + sizes ds := by
  induction cs with
  | nil => simp [sizes]
  | cons c cs ih => simp [sizes, ih, Nat.add_assoc]

/-- A tree has one component more than the trees below its root. -/
theorem size_eq (c : Component) : c.size = 1 + sizes c.children := by
  cases c with
  | node f cs => simp [size]

/-- The components of the trees on a stack, behind those already visited (latest first). -/
def visit : List Component → List Component → List Component
  | [], visited => visited.reverse
  | c :: stack, visited => visit (c.children ++ stack) (c :: visited)
termination_by stack => sizes stack
decreasing_by
  have := c.size_eq
  simp only [sizes_append, sizes]
  omega

/-- All components of a tree, each before those it renders. -/
def nodes (c : Component) : List Component :=
  visit [c] []

/-- The number of components of a tree that have a status. -/
def count (c : Component) (status : Status) : Nat :=
  c.nodes.countP (fun d => d.facts.status == status)

/-- Whether the component renders one that has a file. -/
def hasResolvedChildren (c : Component) : Bool :=
  c.children.any (fun d => d.facts.path.isSome)

end Component

end RenderTree
