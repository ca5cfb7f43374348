import RenderTree.Source.LineEnd
import RenderTree.Source.Tree
import Std.Data.TreeSet

/-!
# Readers

Reading source text is done by readers: functions that take the place reached and either go on from
it, having added trees to the construct they are part of, or get stuck. A stuck reader leaves no
trace but the furthest offset that was tried, which is where the text is at fault.

* `Place` — the lexeme at hand and the trees made so far.
* `Memory` — what outlives a reader that got stuck.
* `Reader` — the readers, with choice `<|>` that goes back to the place before.
* `lexeme`, `sign`, `keyword`, `word?` — reading one lexeme.
* `node`, `grow` — gathering trees into a node.
-/

namespace RenderTree.Source

/-- A text to be read and the dialect to read it in. -/
structure Script where
  text : Array Char
  dialect : Dialect

/-- The state of reading: the offset of the lexeme at hand, the offset after the one before it, the
comments between the two and the trees of the construct that is being read (both latest first), the
offset of the statement of the module that is being read, and whether an object literal holds an
initialiser that only a pattern may hold. -/
structure Place where
  here : Nat
  last : Nat
  waiting : List Tree
  made : List Tree
  opening : Nat
  cover : Bool

/-- What is kept when a reader gets stuck: the furthest offset tried, the fault to report there, and
attempts known to fail. -/
structure Memory where
  reach : Nat
  fault : Tree
  failed : Std.TreeSet Nat

/-- The outcome of a reader. -/
inductive Outcome (α : Type) where
  | done (value : α) (place : Place) (memory : Memory)
  | stuck (memory : Memory)

/-- A reader of source text. -/
def Reader (α : Type) : Type :=
  Script → Place → Memory → Outcome α

namespace Reader

instance : Monad Reader where
  pure a := fun _ p m => .done a p m
  bind r f := fun s p m =>
    match r s p m with
    | .done a p m => f a s p m
    | .stuck m => .stuck m

/-- Goes on with the second reader, from the place before, where the first got stuck. -/
def orElse {α : Type} (r : Reader α) (q : Unit → Reader α) : Reader α := fun s p m =>
  match r s p m with
  | .done a p m => .done a p m
  | .stuck m => q () s p m

instance {α : Type} : OrElse (Reader α) where
  orElse := orElse

/-- The script that is being read. -/
def script : Reader Script := fun s p m => .done s p m

/-- The place reached. -/
def place : Reader Place := fun _ p m => .done p p m

/-- Goes on from another place. -/
def setPlace (p : Place) : Reader Unit := fun _ _ m => .done () p m

/-- Whether a fault tells more than another at the same offset: a sign that is missing does, and
otherwise the one that begins earlier. -/
def tellsMore (fault other : Tree) : Bool :=
  if fault.kind == .missing then true
  else other.kind != .missing && fault.start < other.start

/-- Gets stuck at an offset with a fault. The fault furthest on is kept. -/
def stuckAt {α : Type} (i : Nat) (fault : Tree) : Reader α := fun _ _ m =>
  .stuck (if m.reach < i || (m.reach == i && tellsMore fault m.fault) then
    { m with reach := i, fault := fault } else m)

/-- Gets stuck at the lexeme at hand. Where the text has ended, the statement that it leaves open is
at fault. -/
def stop {α : Type} : Reader α := do
  let p ← place
  if (← script).text.size ≤ p.here then stuckAt p.here (.leaf .error p.opening p.here)
  else stuckAt p.here (.leaf .error p.here p.here)

/-- Gets stuck without a trace. -/
def refuse {α : Type} : Reader α := fun _ _ m => .stuck m

/-- Goes on only if the condition holds. -/
def check (b : Bool) : Reader Unit :=
  if b then pure () else stop

/-- Goes on only in the typed dialect. -/
def typedOnly : Reader Unit := do
  if (← script).dialect == .typed then pure () else refuse

/-- Whether the text is read in the typed dialect. -/
def isTyped : Reader Bool := do
  return (← script).dialect == .typed

/-- Reads with `r` where it succeeds, and nothing otherwise. -/
def optional (r : Reader Unit) : Reader Unit :=
  r <|> pure ()

/-- Whether `r` succeeds, without going anywhere. -/
def ahead (r : Reader Unit) : Reader Bool := fun s p m =>
  match r s p m with
  | .done _ _ m' => .done true p { m with failed := m'.failed }
  | .stuck m' => .done false p { m with failed := m'.failed }

/-- An attempt that is not made twice at one place: `tag` tells kinds of attempt apart. -/
def attempt (tag : Nat) (r : Reader Unit) : Reader Unit := fun s p m =>
  let key := 8 * p.here + tag
  if m.failed.contains key then .stuck m
  else match r s p m with
    | .done a p m => .done a p m
    | .stuck m => .stuck { m with failed := m.failed.insert key }

/-- Repeats a reader until it gets stuck or goes nowhere. -/
def repeated (r : Reader Unit) : Nat → Reader Unit
  | 0 => pure ()
  | fuel + 1 => fun s p m =>
    match r s p m with
    | .stuck m => .done () p m
    | .done _ q m => if p.here < q.here then repeated r fuel s q m else .done () q m

/-- Repeats a reader as often as it succeeds. -/
def many (r : Reader Unit) : Reader Unit := do
  repeated r ((← script).text.size + 1 - (← place).here)

/-! ### Between lexemes -/

/-- The offset of the next lexeme from `i` on, with the comments before it, latest first. -/
def skipRemarks (text : Array Char) : Nat → Nat → List Tree → Nat × List Tree
  | 0, i, remarks => (i, remarks)
  | fuel + 1, i, remarks =>
    let i := endOf text isBlank i
    match commentEnd text i with
    | some j => skipRemarks text fuel j (.leaf .comment i j :: remarks)
    | none => (i, remarks)

/-- Goes on from the offset `i`, at which the last lexeme ended. -/
def resume (i : Nat) : Reader Unit := do
  let text := (← script).text
  let p ← place
  let (j, remarks) := skipRemarks text (text.size - i + 1) i []
  setPlace { p with here := j, last := i, waiting := remarks }

/-- Adds the comments before the lexeme at hand to the construct that is being read. -/
def settle : Reader Unit := do
  let p ← place
  setPlace { p with made := p.waiting ++ p.made, waiting := [] }

/-! ### Lexemes -/

/-- Reads the characters up to `stop` as a leaf. -/
def lexeme (kind : Kind) (stop : Nat) : Reader Unit := do
  settle
  let p ← place
  setPlace { p with made := .leaf kind p.here stop :: p.made }
  resume stop

/-- The signs made of several punctuation characters, longer ones first. -/
def longSigns : List (List Char) :=
  [">>>=", "...", "===", "!==", "**=", "<<=", ">>=", ">>>", "&&=", "||=", "??=", "=>", "==", "!=",
    "<=", ">=", "&&", "||", "??", "?.", "++", "--", "+=", "-=", "*=", "/=", "%=", "&=", "|=", "^=",
    "<<", ">>", "**"].map String.toList

/-- The length of the longest sign at an offset. A question mark before a decimal fraction stands
alone. -/
def signLength (text : Array Char) (i : Nat) : Nat :=
  match longSigns.find? (fun s => standsAt text s i) with
  | some s => if s == ['?', '.'] && (charAt text (i + 2)).isDigit then 1 else s.length
  | none => 1

/-- Whether the lexeme at hand is a certain sign. -/
def atSign (s : String) : Reader Bool := do
  let text := (← script).text
  let i := (← place).here
  return standsAt text s.toList i && signLength text i == s.length

/-- Reads a certain sign. -/
def sign (s : String) : Reader Unit := do
  if ← atSign s then lexeme (.sign s) ((← place).here + s.length) else stop

/-- Reads a certain sign that ends a statement. Where the text has ended, the sign is missing behind the
lexeme or comment before. -/
def closing (s : String) : Reader Unit := do
  let p ← place
  if (← script).text.size ≤ p.here then
    let i := (p.waiting.head?.map Tree.stop).getD p.last
    stuckAt p.here (.leaf .missing i i)
  else sign s

/-- Reads certain characters as a sign, whatever follows them. -/
def looseSign (s : String) : Reader Unit := do
  let text := (← script).text
  let i := (← place).here
  if standsAt text s.toList i then lexeme (.sign s) (i + s.length) else stop

/-- Reads the first of several signs that is at hand. -/
def oneOf (signs : List String) : Reader Unit := do
  let text := (← script).text
  let i := (← place).here
  let n := signLength text i
  match signs.find? (fun s => s.length == n && standsAt text s.toList i) with
  | some s => lexeme (.sign s) (i + n)
  | none => stop

/-- The word at hand, empty where none is. -/
def word : Reader String := do
  let text := (← script).text
  let i := (← place).here
  return slice text i (wordEnd text i)

/-- Reads the word at hand as a leaf of some kind. -/
def wordAs (kind : Kind) : Reader Unit := do
  let text := (← script).text
  let i := (← place).here
  let j := wordEnd text i
  if i < j then lexeme kind j else stop

/-- Reads a certain word as a sign. -/
def keyword (w : String) : Reader Unit := do
  if (← word) == w then wordAs (.sign w) else stop

/-- Reads one of several words as a sign. -/
def keywords (ws : List String) : Reader Unit := do
  let w ← word
  if ws.contains w then wordAs (.sign w) else stop

/-! ### Nodes -/

/-- Gathers what `r` makes into a node, whose kind `r` returns. -/
def nodeOf (r : Reader Kind) : Reader Kind := do
  settle
  let p ← place
  setPlace { p with made := [] }
  let kind ← r
  let q ← place
  setPlace { q with made := .node kind .plain p.here q.last q.made.reverse :: p.made }
  return kind

/-- Gathers what `r` makes into a node. -/
def node (kind : Kind) (r : Reader Unit) : Reader Unit := do
  let _ ← nodeOf (do r; return kind)

/-- Gives the tree made last a role. -/
def withRole (role : Role) (r : Reader Unit) : Reader Unit := do
  r
  let p ← place
  match p.made with
  | t :: ts => setPlace { p with made := t.withRole role :: ts }
  | [] => pure ()

/-- The tree made last. -/
def madeLast : Reader (Option Tree) := do
  return (← place).made.head?

/-- Reads suffixes as long as there are any. Each becomes a node of the kind that it returns, in
which what was read before it comes first, in the role of the callee if the node is a call. -/
def suffixes (suffix : Reader Kind) (start : Nat) : Nat → Reader Unit
  | 0 => pure ()
  | fuel + 1 => fun s p m =>
    match suffix s p m with
    | .stuck m => .done () p m
    | .done kind q m =>
      let parts := match kind, q.made.reverse with
        | .call, t :: ts => t.withRole .callee :: ts
        | _, ts => ts
      suffixes suffix start fuel s
        { q with made := [.node kind .plain start q.last parts] } m

/-- Reads with `first` and then, as long as it succeeds, with `suffix`; each suffix becomes a node
together with all that was read before it. -/
def grow (first : Reader Unit) (suffix : Reader Kind) : Reader Unit := do
  settle
  let p ← place
  setPlace { p with made := [] }
  first
  let q ← place
  suffixes suffix p.here ((← script).text.size + 1 - q.here)
  let q ← place
  setPlace { q with made := q.made ++ p.made }

/-- Reads one or more items with commas between them. -/
def listed1 (item : Reader Unit) : Reader Unit := do
  item
  many (do sign ","; item)

/-- Reads one or more items with commas between them; a comma may follow the last. -/
def closedList (item : Reader Unit) : Reader Unit := do
  listed1 item
  optional (sign ",")

/-- Reads items with commas between them; a comma may follow them, even if there are none. -/
def listed (item : Reader Unit) : Reader Unit := do
  optional (listed1 item)
  optional (sign ",")

/-- Reads items with commas between them, any of which may be missing. -/
def sparse (item : Reader Unit) : Reader Unit := do
  optional item
  many (do sign ","; optional item)

/-! ### Statement ends -/

/-- Whether the tree made last ends with the value of an initialiser. -/
def madeValue : Reader Bool := do
  return match (← place).made with
    | t :: _ => t.children.getLast?.any (fun c => c.role == .value)
    | [] => false

/-- Whether a statement may end at the lexeme at hand without a semicolon, and if so how many of
the comments before it belong to the statement. -/
def closedBy (operand : Bool) : Reader (Option Nat) := do
  let s ← script
  let p ← place
  let remarks := p.waiting.reverse
  let ends := p.last :: remarks.map Tree.stop
  return ends.findIdx? (fun i => LineEnd.closes s.dialect s.text operand i)

/-- Ends a statement without a semicolon. -/
def lineEnd (operand : Bool) : Reader Unit := do
  match ← closedBy operand with
  | some n =>
    let p ← place
    let own := (p.waiting.reverse.take n).reverse
    let last := match own with
      | t :: _ => t.stop
      | [] => p.last
    setPlace { p with made := own ++ p.made, last := last,
                      waiting := (p.waiting.reverse.drop n).reverse }
  | none => stop

/-- Ends a statement, with a semicolon or without. -/
def semicolon (operand : Bool) : Reader Unit :=
  sign ";" <|> lineEnd operand

/-- Goes on only if the statement need not end here, at a place where one may. -/
def unlessClosed (line operand : Bool) : Reader Unit := do
  let p ← place
  if line && p.last < p.here then
    if (← closedBy operand).isSome then refuse else pure ()
  else pure ()

end Reader

end RenderTree.Source
