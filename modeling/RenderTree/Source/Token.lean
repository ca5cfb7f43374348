import RenderTree.Source.Chars
import RenderTree.Source.Tree

/-!
# Tokens

The leaves of a source tree in source order, each with its text, its line and the class that later
analyses go by. Comments give no token, and an atomic node is one token, whatever it consists of.

* `TokenKind`, `Token` — a classified leaf.
* `Tree.tokens` — the tokens of a tree, collected with an explicit stack so that depth costs
  nothing.
* `lineAt` — the line of an offset, counted by line feeds.
-/

namespace RenderTree.Source

/-- The classes of token. -/
inductive TokenKind where
  | tagOpen | name | literal | text | punctuation
deriving DecidableEq, Repr, Inhabited

/-- A leaf of a source tree: its class, its text and the line on which it starts. -/
structure Token where
  kind : TokenKind
  value : String
  line : Nat := 0
deriving DecidableEq, Repr, Inhabited

namespace Kind

/-- Nodes that are one token, whatever they consist of. -/
def isAtomic : Kind → Bool
  | string | template | regex | number | literalTypeName => true
  | _ => false

/-- Nodes whose opening bracket is the beginning of a tag that can name a component. -/
def isTag : Kind → Bool
  | openingTag | selfClosingTag => true
  | _ => false

/-- The class of a leaf or atomic node, given the kind of its parent. -/
def tokenKind (k : Kind) (parent : Option Kind) : TokenKind :=
  match k with
  | sign s => if s == "<" && parent.any isTag then .tagOpen else .punctuation
  | identifier | propertyName => .name
  | string | template | regex | number | literalTypeName => .literal
  | markupText => .text
  | _ => .punctuation

/-- A token opens a tag exactly if it is the bracket of a tag. -/
theorem tokenKind_eq_tagOpen_iff {k : Kind} {parent : Option Kind} :
    k.tokenKind parent = .tagOpen ↔ k = .sign "<" ∧ parent.any isTag = true := by
  cases k <;> simp [tokenKind]

end Kind

/-- The line of an offset: one more than the number of line feeds before it. -/
def lineAt (text : Array Char) (offset : Nat) : Nat :=
  1 + (text.extract 0 offset).count '\n'

namespace Tree

/-- The token of a leaf or atomic node. -/
def token (text : Array Char) (parent : Option Kind) (t : Tree) : Token where
  kind := t.kind.tokenKind parent
  value := slice text t.start t.stop
  line := lineAt text t.start

/-- Whether a node is read as one token. -/
def isToken (t : Tree) : Bool :=
  t.children.isEmpty || t.kind.isAtomic

/-- The tokens of the trees on a stack, each with the kind of its parent, behind those already
collected (latest first). -/
def collect (text : Array Char) : List (Tree × Option Kind) → List Token → List Token
  | [], done => done.reverse
  | (t, parent) :: stack, done =>
    if t.kind == .comment then collect text stack done
    else if t.isToken then collect text stack (t.token text parent :: done)
    else collect text (t.children.map (fun c => (c, some t.kind)) ++ stack) done
termination_by stack => sizes (stack.map Prod.fst)
decreasing_by
  · have := t.size_eq
    simp only [List.map_cons, sizes]
    omega
  · have := t.size_eq
    simp only [List.map_cons, sizes]
    omega
  · have := t.size_eq
    simp only [List.map_append, List.map_map, List.map_cons, sizes_append, sizes]
    have h : t.children.map (Prod.fst ∘ fun c => (c, some t.kind)) = t.children := by
      simp [Function.comp_def]
    rw [h]
    omega

/-- The tokens of a tree, in source order. -/
def tokens (text : Array Char) (t : Tree) : List Token :=
  collect text [(t, none)] []

end Tree

end RenderTree.Source
