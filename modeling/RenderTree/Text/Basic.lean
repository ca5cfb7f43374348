/-!
# Texts

A text consists of characters and of surrogates, the halves of pairs that stand for one character in
other encodings. A surrogate by itself is no character: it stands for a byte of a name or an argument
that is none, or it was written as an escape. Texts that are read from files have no surrogates; they
are strings.

* `Symbol`, `Text` — what texts consist of, and texts. Strings count as texts.
* `Text.toString?` — the string of a text, or its first surrogates.
* `Text.shown` — a text with escapes for its surrogates.
* `isBlank`, `isSpace`, `trim` — blanks, and a text without those around it.
* `beforeFirst`, `afterLast`, `pieces` — the parts of a list around the occurrences of an element.
* `splitExtension` — a path's text without its extension, and the extension.
-/

namespace RenderTree

/-- A half of a surrogate pair, by its distance from the first of them. -/
abbrev Surrogate := Fin 0x800

/-- The code point of the first surrogate. -/
def firstSurrogate : Nat := 0xD800

/-- What texts consist of. -/
inductive Symbol where
  | char (c : Char)
  | surrogate (s : Surrogate)
deriving DecidableEq, Repr, Inhabited

namespace Symbol

instance : Coe Char Symbol := ⟨char⟩

/-- The code point of a symbol. -/
def toNat : Symbol → Nat
  | char c => c.toNat
  | surrogate s => firstSurrogate + s.val

/-- Symbols are told apart by their code points. -/
theorem eq_of_toNat_eq {a b : Symbol} (h : a.toNat = b.toNat) : a = b := by
  -- No character has the code point of a surrogate.
  have hne : ∀ (c : Char) (u : Surrogate), c.toNat ≠ firstSurrogate + u.val := by
    intro c u
    have hvalid := c.valid
    have hlt := u.isLt
    simp only [firstSurrogate, Char.toNat, UInt32.isValidChar, Nat.isValidChar] at hvalid ⊢
    omega
  cases a with
  | char c =>
    cases b with
    | char d => exact congrArg char (Char.toNat_inj.1 h)
    | surrogate u => exact absurd h (hne c u)
  | surrogate u =>
    cases b with
    | char d => exact absurd h.symm (hne d u)
    | surrogate v => exact congrArg surrogate (Fin.ext (Nat.add_left_cancel h))

/-- Symbols are ordered by their code points. -/
instance : LT Symbol := ⟨fun a b => a.toNat < b.toNat⟩

instance (a b : Symbol) : Decidable (a < b) :=
  inferInstanceAs (Decidable (a.toNat < b.toNat))

/-- Whether a symbol is a surrogate. -/
def isSurrogate : Symbol → Bool
  | char _ => false
  | surrogate _ => true

/-- Whether a symbol is a surrogate that stands for a byte by itself. -/
def isByte : Symbol → Bool
  | char _ => false
  | surrogate s => 0x480 ≤ s.val && s.val < 0x500

/-- The character that a symbol is. -/
def char? : Symbol → Option Char
  | char c => some c
  | surrogate _ => none

/-- The number of bytes that a symbol has in the name of a file. -/
def size : Symbol → Nat
  | char c => c.utf8Size
  | surrogate _ => 1

end Symbol

/-- A text. -/
abbrev Text := List Symbol

namespace Text

/-- The text that a string is. -/
def ofString (s : String) : Text :=
  s.toList.map .char

instance : Coe String Text := ⟨ofString⟩

/-! ### Surrogates -/

/-- Surrogates where there should be none: their place, their number and the first of them. -/
structure SymbolFault where
  offset : Nat
  count : Nat
  first : Surrogate
deriving DecidableEq, Repr, Inhabited

/-- A number in hexadecimal digits, filled up with zeros. -/
def hexText (width n : Nat) : List Char :=
  let digits := Nat.toDigits 16 n
  List.replicate (width - digits.length) '0' ++ digits

/-- The escape that stands for a surrogate. -/
def surrogateEscape (s : Surrogate) : List Char :=
  '\\' :: 'u' :: hexText 4 (firstSurrogate + s.val)

/-- The message that tells of surrogates where there should be none. -/
def SymbolFault.message (f : SymbolFault) : String :=
  if f.count ≤ 1 then
    s!"'utf-8' codec can't encode character '{String.ofList (surrogateEscape f.first)}' in " ++
      s!"position {f.offset}: surrogates not allowed"
  else
    s!"'utf-8' codec can't encode characters in position {f.offset}-{f.offset + f.count - 1}: " ++
      "surrogates not allowed"

/-- The first surrogate of a text that is not allowed, which has `offset` symbols before it, with
all those next to it. -/
def symbolFault? (allowed : Symbol → Bool) (offset : Nat) : Text → Option SymbolFault
  | [] => none
  | .char _ :: t => symbolFault? allowed (offset + 1) t
  | .surrogate s :: t =>
    if allowed (.surrogate s) then symbolFault? allowed (offset + 1) t
    else some ⟨offset, 1 + (t.takeWhile Symbol.isSurrogate).length, s⟩

/-- The string that a text is, or the first of its surrogates. -/
def toString? (t : Text) : Except SymbolFault String :=
  match symbolFault? (fun _ => false) 0 t with
  | some f => .error f
  | none => .ok (String.ofList (t.filterMap Symbol.char?))

/-- A text with escapes for its surrogates. -/
def shown (t : Text) : String :=
  String.ofList (t.flatMap fun
    | .char c => [c]
    | .surrogate s => surrogateEscape s)

/-- The number of bytes that a text has in the name of a file. -/
def size : Text → Nat
  | [] => 0
  | s :: t => s.size + size t

/-! ### Blanks -/

/-- The code points of the blanks, as ranges. -/
def blankRanges : List (Nat × Nat) :=
  [(0x9, 0xd), (0x20, 0x20), (0x85, 0x85), (0xa0, 0xa0), (0x1680, 0x1680), (0x2000, 0x200a),
    (0x2028, 0x2029), (0x202f, 0x202f), (0x205f, 0x205f), (0x3000, 0x3000)]

/-- Whether a symbol is a blank. -/
def isBlank : Symbol → Bool
  | .char c => blankRanges.any (fun r => r.1 ≤ c.toNat && c.toNat ≤ r.2)
  | .surrogate _ => false

/-- Whether a symbol is white space: a blank, or one of the separators of information. -/
def isSpace (s : Symbol) : Bool :=
  isBlank s || (0x1c ≤ s.toNat && s.toNat ≤ 0x1f)

/-- A text without the symbols of a kind around it. -/
def trim (p : Symbol → Bool) (t : Text) : Text :=
  ((t.dropWhile p).reverse.dropWhile p).reverse

/-! ### Parts -/

section Parts

variable {α : Type} [DecidableEq α]

/-- What stands before the first `c`; all of the text where there is none. -/
def beforeFirst (c : α) (cs : List α) : List α :=
  cs.takeWhile (· != c)

/-- What stands behind the last `c`; all of the text where there is none. -/
def afterLast (c : α) (cs : List α) : List α :=
  (cs.reverse.takeWhile (· != c)).reverse

/-- The parts between the occurrences of `c`. -/
def pieces (c : α) : List α → List (List α)
  | [] => [[]]
  | x :: xs =>
    match pieces c xs with
    | p :: ps => if x = c then [] :: p :: ps else (x :: p) :: ps
    | [] => [[x]]

end Parts

/-- The extension of a path's text: the last dot of its last segment and what follows, where dots
at the beginning of the segment do not count. -/
def extension (path : Text) : Text :=
  let core := (afterLast (Symbol.char '/') path).dropWhile (· == Symbol.char '.')
  if core.contains (Symbol.char '.') then '.' :: afterLast (Symbol.char '.') core else []

/-- A path's text without its extension, and the extension. -/
def splitExtension (path : Text) : Text × Text :=
  (path.take (path.length - (extension path).length), extension path)

end Text

end RenderTree
