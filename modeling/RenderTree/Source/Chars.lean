/-!
# Characters of source text

The classes of characters that reading source text distinguishes, and the extent of the lexemes
that are recognised without looking at their surroundings.

* `isBlank`, `isSpacing` — white space between lexemes; white space as the line rules see it.
* `isWordStart`, `isWordPart` — the characters of an identifier.
* `charAt` — the character at an offset, NUL past the end.
* `wordEnd`, `numberEnd`, `stringEnd`, `regexEnd`, `entityEnd` — where a lexeme ends.
-/

namespace RenderTree.Source

/-- Characters that separate lexemes and mean nothing else. -/
def isBlank (c : Char) : Bool :=
  let n := c.toNat
  (9 ≤ n && n ≤ 13) || n == 0x20 || n == 0xA0 || n == 0x1680 || (0x2000 ≤ n && n ≤ 0x200B)
    || n == 0x2028 || n == 0x2029 || n == 0x202F || n == 0x205F || n == 0x2060 || n == 0x3000
    || n == 0xFEFF

/-- Characters that the rules about line ends and about text between tags take for white space: no
non-breaking and no zero-width ones. -/
def isSpacing (c : Char) : Bool :=
  let n := c.toNat
  (9 ≤ n && n ≤ 13) || n == 0x20 || n == 0x1680 || (0x2000 ≤ n && n ≤ 0x2006)
    || (0x2008 ≤ n && n ≤ 0x200A) || n == 0x2028 || n == 0x2029 || n == 0x205F || n == 0x3000

/-- Characters that end a line for the rules that let a line end close a statement. -/
def isLineEnd (c : Char) : Bool :=
  c == '\n' || c.toNat == 0x2028 || c.toNat == 0x2029

/-- The characters of punctuation, none of which is part of a word. -/
def isMark (c : Char) : Bool :=
  ":;\x60\x22'@#.,|^&<=>+-*/\\%?!~()[]\x7b\x7d".toList.contains c

/-- Characters an identifier may go on with. -/
def isWordPart (c : Char) : Bool :=
  0x1F < c.toNat && !isBlank c && !isMark c

/-- Characters an identifier may begin with. -/
def isWordStart (c : Char) : Bool :=
  isWordPart c && !c.isDigit

/-- Hexadecimal digits. -/
def isHex (c : Char) : Bool :=
  c.isDigit || ('a' ≤ c && c ≤ 'f') || ('A' ≤ c && c ≤ 'F')

/-- The character at an offset; NUL stands for the end of the text. -/
def charAt (text : Array Char) (i : Nat) : Char :=
  text.getD i '\x00'

/-- The first offset from `i` on whose character fails the test, at most `fuel` further on. -/
def skipWhile (text : Array Char) (p : Char → Bool) : Nat → Nat → Nat
  | 0, i => i
  | fuel + 1, i =>
    if h : i < text.size then
      if p text[i] then skipWhile text p fuel (i + 1) else i
    else i

/-- The first offset from `i` on whose character fails the test. -/
def endOf (text : Array Char) (p : Char → Bool) (i : Nat) : Nat :=
  skipWhile text p (text.size - i) i

/-- Whether the characters of `s` stand at offset `i`. -/
def standsAt (text : Array Char) (s : List Char) (i : Nat) : Bool :=
  match s with
  | [] => true
  | c :: cs => i < text.size && charAt text i == c && standsAt text cs (i + 1)

/-- The text between two offsets. -/
def slice (text : Array Char) (start stop : Nat) : String :=
  String.ofList (text.extract start stop).toList

/-! ### Words -/

/-- The end of an escape for one character of a word, `\u` with four digits or any number of them
in braces. -/
def wordEscapeEnd (text : Array Char) (i : Nat) : Option Nat :=
  if charAt text i == '\\' && charAt text (i + 1) == 'u' then
    if charAt text (i + 2) == '\x7b' then
      let j := endOf text isHex (i + 3)
      if i + 3 < j && charAt text j == '\x7d' then some (j + 1) else none
    else
      let four := (List.range 4).all (fun k => isHex (charAt text (i + 2 + k)))
      if four then some (i + 6) else none
  else none

/-- The end of the part of a word that begins at `i`. -/
def wordPartsEnd (text : Array Char) : Nat → Nat → Nat
  | 0, i => i
  | fuel + 1, i =>
    if i < text.size && isWordPart (charAt text i) then wordPartsEnd text fuel (i + 1)
    else match wordEscapeEnd text i with
      | some j => wordPartsEnd text fuel j
      | none => i

/-- The end of the word that begins at `i`; `i` itself where none does. -/
def wordEnd (text : Array Char) (i : Nat) : Nat :=
  if i < text.size && isWordStart (charAt text i) then wordPartsEnd text (text.size - i) (i + 1)
  else match wordEscapeEnd text i with
    | some j => wordPartsEnd text (text.size - i) j
    | none => i

/-- The end of a name between the angle brackets of a tag, which may hold hyphens when it is made
of ASCII letters; `i` itself where none begins. -/
def tagNameEnd (text : Array Char) (i : Nat) : Nat :=
  let plain := wordEnd text i
  let c := charAt text i
  let first := c.isAlpha || c == '_' || c == '$'
  let j := endOf text (fun c => c.isAlphanum || c == '_' || c == '$') i
  if first && charAt text j == '-' then
    endOf text (fun c => c.isAlphanum || c == '_' || c == '$' || c == '-') j
  else plain

/-! ### Numbers -/

/-- The end of digits that single underscores may separate; `i` itself where no digit stands. -/
def digitsEnd (text : Array Char) (p : Char → Bool) : Nat → Nat → Nat
  | 0, i => i
  | fuel + 1, i =>
    if p (charAt text i) then
      let j := i + 1
      if charAt text j == '_' && p (charAt text (j + 1)) then digitsEnd text p fuel (j + 1)
      else digitsEnd text p fuel j
    else i

/-- The end of an exponent that begins at `i`; `i` itself where none does. -/
def exponentEnd (text : Array Char) (i : Nat) : Nat :=
  if charAt text i == 'e' || charAt text i == 'E' then
    let j := if charAt text (i + 1) == '-' || charAt text (i + 1) == '+' then i + 2 else i + 1
    let k := digitsEnd text Char.isDigit (text.size - j) j
    if j < k then k else i
  else i

/-- The end of a number with a radix letter, such as `0x1F`; `i` itself where none begins. -/
def radixEnd (text : Array Char) (i : Nat) : Nat :=
  let digits (p : Char → Bool) : Nat :=
    let j := digitsEnd text p (text.size - i) (i + 2)
    if i + 2 < j then (if charAt text j == 'n' then j + 1 else j) else i
  if charAt text i == '0' then
    match charAt text (i + 1) with
    | 'x' | 'X' => digits isHex
    | 'b' | 'B' => digits (fun c => c == '0' || c == '1')
    | 'o' | 'O' => digits (fun c => '0' ≤ c && c ≤ '7')
    | _ => i
  else i

/-- The end of an integer part that a fraction or an exponent may follow: `0`, or digits with at
most one zero in front. -/
def wholeEnd (text : Array Char) (i : Nat) : Nat :=
  let j := if charAt text i == '0' then i + 1 else i
  let c := charAt text j
  if c.isDigit && c != '0' then
    let k := j + 1
    let k := if charAt text k == '_' && (charAt text (k + 1)).isDigit then k + 1 else k
    digitsEnd text Char.isDigit (text.size - k) k
  else j

/-- The end of the number that begins at `i`; `i` itself where none does. The longest of its
spellings counts. -/
def numberEnd (text : Array Char) (i : Nat) : Nat :=
  let digits (k : Nat) : Nat := digitsEnd text Char.isDigit (text.size - k) k
  let plain := digits i
  let big := if i < plain && charAt text plain == 'n' then plain + 1 else plain
  let whole := wholeEnd text i
  let fraction :=
    if i < whole && charAt text whole == '.' then exponentEnd text (digits (whole + 1)) else whole
  let scaled := if i < whole then exponentEnd text whole else i
  let bare :=
    if charAt text i == '.' && (charAt text (i + 1)).isDigit then exponentEnd text (digits (i + 1))
    else i
  [radixEnd text i, big, fraction, scaled, bare].foldl max i

/-! ### Strings and regular expressions -/

/-- The end of an escape in a string or template; none where it is malformed. A carriage return or a
question mark takes the line end behind it with it. -/
def escapeEnd (text : Array Char) (i : Nat) : Option Nat :=
  let hex (start count : Nat) : Bool :=
    (List.range count).all (fun k => isHex (charAt text (start + k)))
  let octal (c : Char) : Bool := '0' ≤ c && c ≤ '7'
  if text.size ≤ i + 1 then none
  else
    let c := charAt text (i + 1)
    if c == 'x' then if hex (i + 2) 2 then some (i + 4) else none
    else if c == 'u' then
      if charAt text (i + 2) == '\x7b' then
        let j := endOf text isHex (i + 3)
        if i + 3 < j && charAt text j == '\x7d' then some (j + 1) else none
      else if hex (i + 2) 4 then some (i + 6) else none
    else if octal c then
      let two := octal (charAt text (i + 2))
      some (if two && octal (charAt text (i + 3)) then i + 4 else if two then i + 3 else i + 2)
    else if (c == '\r' || c == '?') && isLineEnd (charAt text (i + 2)) then some (i + 3)
    else some (i + 2)

/-- The end of a string whose quote was read before `i`. -/
def stringRestEnd (text : Array Char) (quote : Char) : Nat → Nat → Option Nat
  | 0, _ => none
  | fuel + 1, i =>
    if h : i < text.size then
      let c := text[i]
      if c == quote then some (i + 1)
      else if c == '\\' then
        match escapeEnd text i with
        | some j => stringRestEnd text quote fuel j
        | none => none
      else if c == '\n' || c == '\r' then none
      else stringRestEnd text quote fuel (i + 1)
    else none

/-- The end of the string that begins at `i`. -/
def stringEnd (text : Array Char) (i : Nat) : Option Nat :=
  let q := charAt text i
  if q == '\x22' || q == '\'' then stringRestEnd text q (text.size - i) (i + 1) else none

/-- The end of the character entity that begins at `i`, such as `&lt;` or `&#160;`. -/
def entityEnd (text : Array Char) (i : Nat) : Option Nat :=
  let close (start stop most : Nat) : Option Nat :=
    if start < stop && stop ≤ start + most && charAt text stop == ';' then some (stop + 1) else none
  if charAt text i != '&' then none
  else if charAt text (i + 1) == '#' then
    if charAt text (i + 2) == 'x' || charAt text (i + 2) == 'X' then
      close (i + 3) (endOf text isHex (i + 3)) 6
    else close (i + 2) (endOf text Char.isDigit (i + 2)) 5
  else close (i + 1) (endOf text Char.isAlpha (i + 1)) 30

/-- The end of an attribute string whose quote was read before `i`. It may span lines. An ampersand
before a letter or `#` must begin an entity; any other takes the character behind it with it, be it
the quote. -/
def tagStringRestEnd (text : Array Char) (quote : Char) : Nat → Nat → Option Nat
  | 0, _ => none
  | fuel + 1, i =>
    if h : i < text.size then
      let c := text[i]
      if c == quote then some (i + 1)
      else if c == '&' then
        let d := charAt text (i + 1)
        match entityEnd text i with
        | some j => tagStringRestEnd text quote fuel j
        | none => if d == '#' || d.isAlpha then none else tagStringRestEnd text quote fuel (i + 2)
      else tagStringRestEnd text quote fuel (i + 1)
    else none

/-- The end of the attribute string that begins at `i`. -/
def tagStringEnd (text : Array Char) (i : Nat) : Option Nat :=
  let q := charAt text i
  if q == '\x22' || q == '\'' then tagStringRestEnd text q (text.size - i) (i + 1) else none

/-- The end of the body of a regular expression, the offset of its closing slash. Brackets hide a
slash, and no line end stands in it. -/
def regexBodyEnd (text : Array Char) : Nat → Bool → Nat → Option Nat
  | 0, _, _ => none
  | fuel + 1, bracket, i =>
    if h : i < text.size then
      let c := text[i]
      if c == '\n' then none
      else if c == '\\' then
        if i + 1 < text.size && charAt text (i + 1) != '\n' then
          regexBodyEnd text fuel bracket (i + 2)
        else none
      else if bracket then regexBodyEnd text fuel (c != ']') (i + 1)
      else if c == '/' then some i
      else regexBodyEnd text fuel (c == '[') (i + 1)
    else none

/-- The end of the regular expression that begins at `i`. -/
def regexEnd (text : Array Char) (i : Nat) : Option Nat :=
  if charAt text i == '/' then
    match regexBodyEnd text (text.size - i) false (i + 1) with
    | some j =>
      if i + 1 < j then some (endOf text (fun c => 'a' ≤ c && c ≤ 'z') (j + 1)) else none
    | none => none
  else none

/-! ### Comments -/

/-- The end of the block comment whose opening was read before `i`. -/
def blockCommentRestEnd (text : Array Char) : Nat → Nat → Option Nat
  | 0, _ => none
  | fuel + 1, i =>
    if i < text.size then
      if charAt text i == '*' && charAt text (i + 1) == '/' then some (i + 2)
      else blockCommentRestEnd text fuel (i + 1)
    else none

/-- The end of the comment that begins at `i`. -/
def commentEnd (text : Array Char) (i : Nat) : Option Nat :=
  if charAt text i == '/' then
    if charAt text (i + 1) == '/' then
      some (endOf text (fun c => !isLineEnd c && c != '\r') (i + 2))
    else if charAt text (i + 1) == '*' then blockCommentRestEnd text (text.size - i) (i + 2)
    else none
  else none

end RenderTree.Source
