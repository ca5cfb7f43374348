import RenderTree.Grammar.Statement
import RenderTree.Source.Token

/-!
# Reading a module

Ties the rules of the grammar into one reader and runs it over a text.

* `rules` — the reader of each recurring rule, to a bounded depth.
* `Script.tree` — the tree of a text, a tree with a fault where the text has none.
* `Module`, `parse` — a module that was read without fault; the typed dialect is tried where the
  script dialect fails.
-/

namespace RenderTree.Source

open RenderTree.Grammar
open RenderTree.Source.Reader

/-- The reader of each recurring rule; `depth` bounds how deep the rules nest. -/
def rules : Nat → Rules
  | 0, _ => stop
  | depth + 1, s =>
    let rec_ := rules depth
    match s with
    | .statement => statementRule rec_
    | .expression mode => expressionRule rec_ mode
    | .operand mode => operandRule rec_ mode
    | .construction => constructionRule rec_
    | .pattern => patternRule rec_
    | .element => elementRule rec_
    | .type line => typeRule rec_ (parameters rec_) line
    | .operandType line => operandTypeRule rec_ (parameters rec_) line

/-- Reads the statements of a module up to the end of the text. -/
def moduleBody (rec_ : Rules) : Reader Unit := do
  let s ← script
  resume 0
  let i := (← place).here
  if standsAt s.text "#!".toList i then
    lexeme .interpreterLine (endOf s.text (fun c => c != '\n') i)
  many (do
    let p ← place
    setPlace { p with opening := p.here }
    rec_ .statement)
  markupRemarks
  settle
  if (← place).here < s.text.size then stop

namespace Script

/-- How deep the rules can nest in a text: each level but a few reads a character. -/
def depth (s : Script) : Nat :=
  8 * (s.text.size + 4)

/-- The tree of a text. A text that is at fault gives a tree whose only part marks the fault. -/
def tree (s : Script) : Tree :=
  let start : Place := ⟨0, 0, [], [], 0, false⟩
  let first := (skipRemarks s.text (s.text.size + 1) 0 []).1
  match moduleBody (rules s.depth) s start ⟨0, .leaf .error 0 0, {}⟩ with
  | .done _ p _ => .node .program .plain first s.text.size p.made.reverse
  | .stuck m => .node .program .plain 0 s.text.size [m.fault]

end Script

/-! ### Modules -/

namespace Dialect

/-- The name a dialect goes by. -/
def name : Dialect → String
  | script => "javascript"
  | typed => "tsx"

/-- The dialect of a name. -/
def ofName? (s : String) : Option Dialect :=
  [script, typed].find? (fun d => d.name == s)

/-- The dialect to try where a text is at fault in this one. -/
def fallback? : Dialect → Option Dialect
  | script => some typed
  | typed => none

end Dialect

/-- Why a text gives no module. -/
inductive ReadError where
  | unknownDialect (name : String)
  | fault (line : Option Nat)
deriving DecidableEq, Repr, Inhabited

namespace ReadError

/-- The line at fault. -/
def line? : ReadError → Option Nat
  | unknownDialect _ => none
  | fault line => line

/-- What is reported. -/
def message : ReadError → String
  | unknownDialect name => "No parser configured for dialect: " ++ name
  | fault (some line) => "Syntax error at line " ++ toString line
  | fault none => "Syntax error"

end ReadError

/-- A text that was read without fault: its characters, the dialect it was read in and its tree. -/
structure Module where
  text : Array Char
  dialect : Dialect
  root : Tree
deriving Inhabited

namespace Module

/-- The statements of the module. -/
def declarations (m : Module) : List Tree :=
  m.root.children.filter (fun t => t.kind != .comment && t.kind != .interpreterLine)

/-- The tokens of the module. -/
def tokens (m : Module) : List Token :=
  m.root.tokens m.text

/-- The text of a node. -/
def textOf (m : Module) (t : Tree) : String :=
  slice m.text t.start t.stop

end Module

/-- Reads a text in one dialect, with the tree that `tree` gives. -/
def readIn (tree : Script → Tree) (text : Array Char) (dialect : Dialect) :
    Except ReadError Module :=
  let root := tree ⟨text, dialect⟩
  if root.hasFault then
    .error (.fault (root.firstFault?.map (fun t => lineAt text t.start)))
  else .ok ⟨text, dialect, root⟩

/-- Reads a text in a dialect or, where it is at fault there, in that dialect's fallback. If both
fail, the fault in the dialect asked for is reported. -/
def readWithFallback (tree : Script → Tree) (text : Array Char) (dialect : Dialect) :
    Except ReadError Module :=
  match readIn tree text dialect with
  | .ok m => .ok m
  | .error e =>
    match dialect.fallback? with
    | none => .error e
    | some other =>
      match readIn tree text other with
      | .ok m => .ok m
      | .error _ => .error e

/-- Reads a text in the dialect of a name, by the rules of the grammar if no other trees are given. -/
def parse (text : String) (dialect : String := Dialect.script.name)
    (tree : Script → Tree := Script.tree) : Except ReadError Module :=
  match Dialect.ofName? dialect with
  | some d => readWithFallback tree text.toList.toArray d
  | none => .error (.unknownDialect dialect)

end RenderTree.Source
