import RenderTree.Source.Chars

/-!
# Line ends that close a statement

A statement may do without its semicolon where a line ends, where a block ends and at the end of
the text, unless what follows goes on with the statement. The two dialects differ in what they take
for a line end, in how they treat comments, and in the signs they take for a continuation.

* `Dialect` — the two dialects.
* `closes` — whether a statement may end at an offset.
-/

namespace RenderTree.Source

/-- The dialects that source text is read in: scripts with markup, and scripts with markup and type
annotations. -/
inductive Dialect where
  | script | typed
deriving DecidableEq, Repr, Inhabited

namespace LineEnd

/-- How skipping white space and comments ended: before other text, behind a block comment that
stays on its line, or at a slash that begins no comment. -/
inductive Skipped where
  | reached | sameLine | refused
deriving DecidableEq, Repr

/-- Offset behind a block comment that was entered before `i`, and whether a line ended in it. -/
def leaveBlock (text : Array Char) : Nat → Bool → Nat → Nat × Bool
  | 0, newline, i => (i, newline)
  | fuel + 1, newline, i =>
    if i < text.size then
      if charAt text i == '*' then
        if charAt text (i + 1) == '/' then (i + 2, newline)
        else leaveBlock text fuel newline (i + 1)
      else leaveBlock text fuel (newline || isLineEnd (charAt text i)) (i + 1)
    else (i, newline)

/-- Skips white space and comments from `i` on. When not to `consume` all of them, it halts behind
the first block comment that no slash follows. -/
def skip (text : Array Char) (consume : Bool) : Nat → Bool → Nat → Skipped × Nat
  | 0, _, i => (.reached, i)
  | fuel + 1, newline, i =>
    let i := endOf text isSpacing i
    if charAt text i == '/' then
      if charAt text (i + 1) == '/' then
        skip text consume fuel newline (endOf text (fun c => !isLineEnd c) (i + 2))
      else if charAt text (i + 1) == '*' then
        let (j, newline) := leaveBlock text (text.size - i) newline (i + 2)
        let closed := charAt text (j - 1) == '/' && i + 3 < j
        if closed && charAt text j != '/' && !consume then
          (if newline then .reached else .sameLine, j)
        else skip text consume fuel newline j
      else (.refused, i)
    else (.reached, i)

/-- Whether the word at `i`, which begins with `i`, is other than `in` and `instanceof`. -/
def otherThanIn (text : Array Char) (i : Nat) : Bool :=
  let letter (c : Char) : Bool := c.isAlpha || 0x7F < c.toNat
  if charAt text (i + 1) != 'n' then true
  else if !letter (charAt text (i + 2)) then false
  else if !standsAt text "stanceof".toList (i + 2) then true
  else letter (charAt text (i + 10))

/-- Whether the text at `i`, on a new line, begins a statement of its own in the script dialect. -/
def beginsScript (text : Array Char) (i : Nat) : Bool :=
  let c := charAt text i
  if "\x60,:;*%><=[(?^|&/".toList.contains c then false
  else match c with
    | '.' => (charAt text (i + 1)).isDigit
    | '+' => charAt text (i + 1) == '+'
    | '-' => charAt text (i + 1) == '-'
    | '!' => charAt text (i + 1) != '='
    | 'i' => otherThanIn text i
    | _ => true

/-- Whether the text at `i`, on a new line, begins a statement of its own in the typed dialect. A
bracket goes on with an operand, but not with a type. -/
def beginsTyped (text : Array Char) (operand : Bool) (i : Nat) : Bool :=
  let c := charAt text i
  if "\x60,.;*%><=?^|&/:".toList.contains c then false
  else match c with
    | '(' | '[' => !operand
    | '+' => charAt text (i + 1) == '+'
    | '-' => charAt text (i + 1) == '-'
    | '!' => charAt text (i + 1) != '='
    | 'i' => otherThanIn text i
    | _ => true

/-- `closes` for the script dialect, from an offset on the line of the statement. -/
def closesScript (text : Array Char) (operand : Bool) : Nat → Nat → Bool
  | 0, _ => false
  | fuel + 1, i =>
    if text.size ≤ i then true
    else
      let check (j : Nat) : Bool :=
        let c := charAt text j
        if text.size ≤ j then false
        else if c == '\x7d' then true
        else if isLineEnd c then
          match skip text true (text.size - j) false (j + 1) with
          | (.refused, _) => false
          | (_, k) => beginsScript text k
        else if isSpacing c then closesScript text operand fuel (j + 1)
        else false
      if charAt text i == '/' then
        match skip text false (text.size - i) false i with
        | (.refused, _) => false
        | (.reached, j) =>
          if !operand && charAt text j != ',' && charAt text j != '=' then true else check j
        | (.sameLine, j) => check j
      else check i

/-- `closes` for the typed dialect, from an offset on the line of the statement. -/
def closesTyped (text : Array Char) (operand : Bool) (i : Nat) : Bool :=
  let j := endOf text (fun c => isSpacing c && c != '\n') i
  if text.size ≤ j then true
  else if charAt text j == '\x7d' then
    let k := endOf text isSpacing (j + 1)
    charAt text k != ':' || operand
  else if charAt text j == '\n' then
    match skip text true (text.size - j) false (j + 1) with
    | (.refused, _) => false
    | (_, k) => beginsTyped text operand k
  else false

/-- Whether a statement may end at an offset without a semicolon. `operand` says that it ends with
an operand, which an operator could follow. -/
def closes (dialect : Dialect) (text : Array Char) (operand : Bool) (i : Nat) : Bool :=
  match dialect with
  | .script => closesScript text operand (text.size - i + 1) i
  | .typed => closesTyped text operand i

end LineEnd

end RenderTree.Source
