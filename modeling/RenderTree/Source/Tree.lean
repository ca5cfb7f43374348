/-!
# Source trees

The tree that reading a component's source text gives: nodes of a kind, with the role they play
in their parent, the half-open range of characters they span, and their children in source order.

* `Form`, `Kind`, `Role` — what a node is, and what it is to its parent.
* `Form.title`, `Kind.title` — the names by which a listing of a module's statements calls them.
* `Tree` — the tree itself; `Tree.child?` looks a child up by its role.
* `Tree.size` — the number of nodes, the measure of every walk over a tree.
* `Tree.hasFault`, `Tree.firstFault?` — whether and where reading went wrong.
-/

namespace RenderTree.Source

/-- The forms of statement that a module consists of. -/
inductive Form where
  | expression | importing | exporting | lexical | variables | function | generator | classLike
  | abstractClass | conditional | loop | loopOver | whileLoop | doLoop | switch | guarded | throwing
  | returning | breaking | continuing | withScope | labelled | debugger | empty | block
  | typeAlias | interface | enumeration | ambient | module | importAlias | functionSignature
deriving DecidableEq, Repr, Inhabited

/-- What a node of a source tree is. A `sign` is a keyword, an operator or any other leaf that is
known by its text alone. -/
inductive Kind where
  | program | interpreterLine | comment | htmlComment
  | statement (form : Form)
  | importClause | namespaceImport | namedImports | importSpecifier
  | declarator | call | arguments
  | openingTag | closingTag | selfClosingTag | element
  | object | array | pair | spread | member | subscript | assignment | parenthesised
  | group
  | string | template | regex | number
  | identifier | propertyName
  | markupText
  | literalTypeName
  | sign (text : String)
  | error | missing
deriving DecidableEq, Repr, Inhabited

/-- What a node is to its parent, where an analysis asks for it. -/
inductive Role where
  | plain | source | name | alias | value | declaration | arguments | callee
deriving DecidableEq, Repr, Inhabited

/-- A node of a source tree with its children in source order. -/
inductive Tree where
  | node (kind : Kind) (role : Role) (start stop : Nat) (children : List Tree)
deriving Inhabited

namespace Tree

/-- What the node is. -/
def kind : Tree → Kind
  | node k _ _ _ _ => k

/-- What the node is to its parent. -/
def role : Tree → Role
  | node _ r _ _ _ => r

/-- Offset of the first character of the node. -/
def start : Tree → Nat
  | node _ _ a _ _ => a

/-- Offset after the last character of the node. -/
def stop : Tree → Nat
  | node _ _ _ b _ => b

/-- The parts of the node, in source order. -/
def children : Tree → List Tree
  | node _ _ _ _ cs => cs

/-- A node without parts. -/
def leaf (kind : Kind) (start stop : Nat) : Tree :=
  node kind .plain start stop []

/-- The same node in another role. -/
def withRole (r : Role) : Tree → Tree
  | node k _ a b cs => node k r a b cs

@[simp] theorem kind_node (k r a b cs) : (node k r a b cs).kind = k := rfl
@[simp] theorem children_node (k r a b cs) : (node k r a b cs).children = cs := rfl

/-- The first child in a role. -/
def child? (t : Tree) (r : Role) : Option Tree :=
  t.children.find? (fun c => c.role == r)

/-! ### Size -/

mutual
/-- The number of nodes of a tree. -/
def size : Tree → Nat
  | node _ _ _ _ cs => 1 + sizes cs

/-- The number of nodes of several trees. -/
def sizes : List Tree → Nat
  | [] => 0
  | t :: ts => size t + sizes ts
end

/-- The sizes of two lists of trees add up. -/
theorem sizes_append (ts us : List Tree) : sizes (ts ++ us) = sizes ts + sizes us := by
  induction ts with
  | nil => simp [sizes]
  | cons t ts ih => simp [sizes, ih, Nat.add_assoc]

/-- A tree has one node more than the trees below it. -/
theorem size_eq (t : Tree) : t.size = 1 + sizes t.children := by
  cases t with
  | node k r a b cs => simp [size]

/-! ### Faults -/

/-- Whether the node itself marks a place where reading went wrong. -/
def isFault (t : Tree) : Bool :=
  t.kind == .error || t.kind == .missing

mutual
/-- Whether the node or a node below it marks a fault. -/
def hasFault : Tree → Bool
  | node k _ _ _ cs => k == .error || k == .missing || anyFault cs

/-- Whether one of the trees has a fault. -/
def anyFault : List Tree → Bool
  | [] => false
  | t :: ts => hasFault t || anyFault ts
end

/-- The first node that marks a fault in the trees of a stack, descending only where there is a
fault to find. -/
def searchFault : List Tree → Option Tree
  | [] => none
  | t :: stack =>
    if t.isFault then some t
    else if t.hasFault then searchFault (t.children ++ stack)
    else searchFault stack
termination_by stack => sizes stack
decreasing_by
  · have := t.size_eq
    simp only [sizes_append, sizes]
    omega
  · have := t.size_eq
    simp only [sizes]
    omega

/-- The first node of the tree, in source order, that marks a fault. -/
def firstFault? (t : Tree) : Option Tree :=
  searchFault [t]

end Tree

/-! ### Names of statements -/

/-- The name of a form of statement. -/
def Form.title : Form → String
  | .expression => "expression_statement"
  | .importing => "import_statement"
  | .exporting => "export_statement"
  | .lexical => "lexical_declaration"
  | .variables => "variable_declaration"
  | .function => "function_declaration"
  | .generator => "generator_function_declaration"
  | .classLike => "class_declaration"
  | .abstractClass => "abstract_class_declaration"
  | .conditional => "if_statement"
  | .loop => "for_statement"
  | .loopOver => "for_in_statement"
  | .whileLoop => "while_statement"
  | .doLoop => "do_statement"
  | .switch => "switch_statement"
  | .guarded => "try_statement"
  | .throwing => "throw_statement"
  | .returning => "return_statement"
  | .breaking => "break_statement"
  | .continuing => "continue_statement"
  | .withScope => "with_statement"
  | .labelled => "labeled_statement"
  | .debugger => "debugger_statement"
  | .empty => "empty_statement"
  | .block => "statement_block"
  | .typeAlias => "type_alias_declaration"
  | .interface => "interface_declaration"
  | .enumeration => "enum_declaration"
  | .ambient => "ambient_declaration"
  | .module => "module"
  | .importAlias => "import_alias"
  | .functionSignature => "function_signature"

/-- The name of a node in a listing of statements. -/
def Kind.title : Kind → String
  | .statement form => form.title
  | .htmlComment => "html_comment"
  | .group => "internal_module"
  | _ => "ERROR"

end RenderTree.Source
