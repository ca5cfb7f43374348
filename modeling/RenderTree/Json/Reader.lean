import RenderTree.Json.Basic

/-!
# Reading JSON text

A JSON value is read from left to right. The names of the numbers that decimals cannot write are
read as well, of members with one key the last counts, and whole numbers have a limited number of
digits. A flaw is told by its kind and place.

* `Json.Flaw` — what can be wrong with a text.
* `Json.value` — reads a value at the beginning of a text.
* `Json.parse` — reads a whole document.
-/

namespace RenderTree.Json

/-- What can be wrong with a text. -/
inductive Flaw where
  | noValue
  | noKey
  | noColon
  | noComma
  | openString
  | controlCharacter
  | escape
  | unicodeEscape
  | extraData
  | byteOrderMark
  | longNumber (digits : Nat)
deriving DecidableEq, Repr, Inhabited

/-- A flaw, and how many symbols of the text are left where it lies. -/
structure Stop where
  flaw : Flaw
  left : Nat
deriving DecidableEq, Repr, Inhabited

/-- The text behind the blanks at the beginning of a text. -/
def skip : Text → Text
  | [] => []
  | s :: t =>
    if s = Symbol.char ' ' ∨ s = Symbol.char '\t' ∨ s = Symbol.char '\n' ∨ s = Symbol.char '\r' then
      skip t
    else s :: t

/-! ### Strings -/

/-- The value of a hexadecimal digit. -/
def hexValue? : Symbol → Option Nat
  | .char c =>
    if '0' ≤ c ∧ c ≤ '9' then some (c.toNat - 48)
    else if 'a' ≤ c ∧ c ≤ 'f' then some (c.toNat - 87)
    else if 'A' ≤ c ∧ c ≤ 'F' then some (c.toNat - 55)
    else none
  | .surrogate _ => none

/-- The value of four hexadecimal digits. -/
def unit? (a b c d : Symbol) : Option Nat :=
  match hexValue? a, hexValue? b, hexValue? c, hexValue? d with
  | some a, some b, some c, some d => some (4096 * a + 256 * b + 16 * c + d)
  | _, _, _, _ => none

/-- Whether a unit is the first of a pair that stands for one character. -/
def isHigh (u : Nat) : Bool := 0xD800 ≤ u && u ≤ 0xDBFF

/-- Whether a unit is the second of a pair that stands for one character. -/
def isLow (u : Nat) : Bool := 0xDC00 ≤ u && u ≤ 0xDFFF

/-- The symbol of a unit by itself; one that has no partner is a surrogate. -/
def unitSymbol (u : Nat) : Symbol :=
  if h : firstSurrogate ≤ u ∧ u - firstSurrogate < 0x800 then
    .surrogate ⟨u - firstSurrogate, h.2⟩
  else .char (Char.ofNat u)

/-- The character that a letter stands for behind a backslash. -/
def escaped? (c : Char) : Option Char :=
  match c with
  | '"' => some '"'
  | '\\' => some '\\'
  | '/' => some '/'
  | 'b' => some '\x08'
  | 'f' => some '\x0c'
  | 'n' => some '\n'
  | 'r' => some '\r'
  | 't' => some '\t'
  | _ => none

/-- Reads the rest of a string behind the symbols `done` (latest first), up to the closing quote.
The opening quote has `start` symbols from it to the end of the text. Four digits of an escape have
to be followed by something. -/
def stringRest (start : Nat) (done : Text) : Text → Except Stop (Text × Text)
  | [] => .error ⟨.openString, start⟩
  | .char '"' :: cs => .ok (done.reverse, cs)
  | .char '\\' :: cs =>
    match cs with
    | [] => .error ⟨.openString, start⟩
    | .char 'u' :: a :: b :: c :: d :: rest =>
      let here := rest.length + 5
      match rest, unit? a b c d with
      | [], _ => .error ⟨.unicodeEscape, here⟩
      | _, none => .error ⟨.unicodeEscape, here⟩
      | .char '\\' :: .char 'u' :: e :: f :: g :: h :: x :: more, some u =>
        let behind : Text := .char '\\' :: .char 'u' :: e :: f :: g :: h :: x :: more
        match isHigh u, unit? e f g h with
        | true, none => .error ⟨.unicodeEscape, more.length + 6⟩
        | true, some v =>
          if isLow v then
            stringRest start
              (.char (Char.ofNat (0x10000 + 1024 * (u - 0xD800) + (v - 0xDC00))) :: done) (x :: more)
          else stringRest start (unitSymbol u :: done) behind
        | false, _ => stringRest start (unitSymbol u :: done) behind
      | y :: more, some u => stringRest start (unitSymbol u :: done) (y :: more)
    | .char 'u' :: few => .error ⟨.unicodeEscape, few.length + 1⟩
    | .char c :: rest =>
      match escaped? c with
      | some x => stringRest start (.char x :: done) rest
      | none => .error ⟨.escape, rest.length + 2⟩
    | .surrogate _ :: rest => .error ⟨.escape, rest.length + 2⟩
  | s :: cs =>
    if s.toNat < 32 then .error ⟨.controlCharacter, cs.length + 1⟩
    else stringRest start (s :: done) cs

/-! ### Numbers -/

/-- Whether a symbol is a decimal digit. -/
def isDigit : Symbol → Bool
  | .char c => '0' ≤ c && c ≤ '9'
  | .surrogate _ => false

/-- The number that digits stand for. -/
def natOf (t : Text) : Nat :=
  t.foldl (fun n s => 10 * n + (s.toNat - 48)) 0

/-- The greatest number of digits of a whole number. -/
def maxDigits : Nat := 4300

/-- The digits of the whole part, and the rest: a single zero, or digits that do not begin with
one. -/
def wholePart? : Text → Option (Text × Text)
  | .char '0' :: cs => some ([.char '0'], cs)
  | c :: cs =>
    if isDigit c then some (c :: cs.takeWhile isDigit, cs.dropWhile isDigit) else none
  | [] => none

/-- The digits of the fraction, if there is one, and the rest. -/
def fraction : Text → Text × Text
  | .char '.' :: d :: cs =>
    if isDigit d then (d :: cs.takeWhile isDigit, cs.dropWhile isDigit)
    else ([], .char '.' :: d :: cs)
  | cs => ([], cs)

/-- The exponent, if there is one, and the rest. -/
def exponent? (cs : Text) : Option Int × Text :=
  match cs with
  | e :: rest =>
    if e = Symbol.char 'e' ∨ e = Symbol.char 'E' then
      let (negative, digits) := match rest with
        | .char '-' :: ds => (true, ds)
        | .char '+' :: ds => (false, ds)
        | ds => (false, ds)
      match digits.takeWhile isDigit with
      | [] => (none, cs)
      | ds =>
        let n : Int := natOf ds
        (some (if negative then -n else n), digits.dropWhile isDigit)
    else (none, cs)
  | [] => (none, cs)

/-- Reads a number without its sign. The number, sign included, has `start` symbols from it to the
end of the text. -/
def magnitude (negative : Bool) (start : Nat) (cs : Text) : Except Stop (Json × Text) :=
  match wholePart? cs with
  | none => .error ⟨.noValue, start⟩
  | some (whole, rest) =>
    let (part, rest) := fraction rest
    let (power, rest) := exponent? rest
    if part.isEmpty && power.isNone then
      if whole.length > maxDigits then .error ⟨.longNumber whole.length, start⟩
      else
        let n : Int := natOf whole
        .ok (integer (if negative then -n else n), rest)
    else
      .ok (real (.ofDecimal negative (natOf (whole ++ part)) (power.getD 0 - part.length)), rest)

/-- Reads a number. -/
def number (cs : Text) : Except Stop (Json × Text) :=
  match cs with
  | .char '-' :: rest => magnitude true cs.length rest
  | _ => magnitude false cs.length cs

/-! ### Values -/

/-- The names that stand for values. -/
def names : List (Text × Json) :=
  [("null", .null), ("true", .bool true), ("false", .bool false), ("NaN", .real .notANumber),
   ("Infinity", .real (.infinity false)), ("-Infinity", .real (.infinity true))]

/-- The value whose name stands at the beginning of a text, and the rest. -/
def named? (cs : Text) : Option (Json × Text) :=
  (names.find? (fun n => n.1.isPrefixOf cs)).map (fun n => (n.2, cs.drop n.1.length))

mutual
/-- Reads a value that stands at the beginning of a text, in at most `fuel` steps. -/
def value : Nat → Text → Except Stop (Json × Text)
  | 0, cs => .error ⟨.noValue, cs.length⟩
  | fuel + 1, cs =>
    match cs with
    | [] => .error ⟨.noValue, 0⟩
    | .char '"' :: rest => do
      let (s, rest) ← stringRest cs.length [] rest
      return (string s, rest)
    | .char '[' :: rest =>
      match skip rest with
      | .char ']' :: rest => .ok (array [], rest)
      | rest => items fuel [] rest
    | .char '\x7b' :: rest =>
      match skip rest with
      | .char '\x7d' :: rest => .ok (object [], rest)
      | rest => members fuel [] rest
    | _ =>
      match named? cs with
      | some answer => .ok answer
      | none => number cs

/-- Reads the items of an array behind those in `done` (latest first). -/
def items : Nat → List Json → Text → Except Stop (Json × Text)
  | 0, _, cs => .error ⟨.noValue, cs.length⟩
  | fuel + 1, done, cs => do
    let (v, rest) ← value fuel cs
    match skip rest with
    | .char ',' :: rest => items fuel (v :: done) (skip rest)
    | .char ']' :: rest => return (array (v :: done).reverse, rest)
    | rest => .error ⟨.noComma, rest.length⟩

/-- Reads the members of an object behind those in `done`. -/
def members : Nat → List (Text × Json) → Text → Except Stop (Json × Text)
  | 0, _, cs => .error ⟨.noValue, cs.length⟩
  | fuel + 1, done, cs =>
    match cs with
    | .char '"' :: rest => do
      let (k, rest) ← stringRest cs.length [] rest
      match skip rest with
      | .char ':' :: rest => do
        let (v, rest) ← value fuel (skip rest)
        match skip rest with
        | .char ',' :: rest => members fuel (put k v done) (skip rest)
        | .char '\x7d' :: rest => return (object (put k v done), rest)
        | rest => .error ⟨.noComma, rest.length⟩
      | rest => .error ⟨.noColon, rest.length⟩
    | _ => .error ⟨.noKey, cs.length⟩
end

/-! ### Documents -/

/-- A mark that must not stand at the beginning of a document. -/
def byteOrderMark : Char := Char.ofNat 0xFEFF

/-- Reads a document: a value with nothing but blanks around it. -/
def document (cs : Text) : Except Stop Json :=
  if cs.head? = some (Symbol.char byteOrderMark) then .error ⟨.byteOrderMark, cs.length⟩
  else do
    let (v, rest) ← value (2 * cs.length + 2) (skip cs)
    match skip rest with
    | [] => return v
    | rest => .error ⟨.extraData, rest.length⟩

/-- A flaw and its place: how many symbols stand before it, in which line it lies and in which
column, both counted from one. -/
structure Fault where
  flaw : Flaw
  offset : Nat
  line : Nat
  column : Nat
deriving DecidableEq, Repr, Inhabited

/-- The place of a flaw in a text. -/
def Stop.locate (text : Text) (s : Stop) : Fault :=
  let before := text.take (text.length - s.left)
  { flaw := s.flaw
    offset := before.length
    line := before.count (Symbol.char '\n') + 1
    column := (before.reverse.takeWhile (· != Symbol.char '\n')).length + 1 }

/-- Reads a document. -/
def parse (text : Text) : Except Fault Json :=
  (document text).mapError (Stop.locate text)

/-- What a flaw is called. -/
def Flaw.title : Flaw → String
  | noValue => "Expecting value"
  | noKey => "Expecting property name enclosed in double quotes"
  | noColon => "Expecting ':' delimiter"
  | noComma => "Expecting ',' delimiter"
  | openString => "Unterminated string starting at"
  | controlCharacter => "Invalid control character at"
  | escape => "Invalid \\escape"
  | unicodeEscape => "Invalid \\uXXXX escape"
  | extraData => "Extra data"
  | byteOrderMark => "Unexpected UTF-8 BOM (decode using utf-8-sig)"
  | longNumber digits =>
    s!"Exceeds the limit ({maxDigits} digits) for integer string conversion: value has {digits} " ++
      "digits; use sys.set_int_max_str_digits() to increase the limit"

/-- Whether a flaw is one of the text's form; the length of a number is not. -/
def Flaw.isFormal : Flaw → Bool
  | longNumber _ => false
  | _ => true

/-- The message that tells of a flaw; with its place if it is one of the text's form. -/
def Fault.message (f : Fault) : String :=
  if f.flaw.isFormal then
    s!"{f.flaw.title}: line {f.line} column {f.column} (char {f.offset})"
  else f.flaw.title

end RenderTree.Json
