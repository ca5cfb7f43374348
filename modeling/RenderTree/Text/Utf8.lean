/-!
# UTF-8

Text as bytes. Bytes that are no text are refused at the first sequence that is not a character: the
sequence is reported as far as it goes.

* `encode` — the bytes of a text.
* `decode` — the text of bytes, or where they cannot be read and why.
* `unixLines` — a text with every line end written as a line feed.
-/

namespace RenderTree.Text

/-- The bytes of a text. -/
def encode (s : String) : List UInt8 :=
  s.toList.flatMap String.utf8EncodeChar

/-- Why bytes are not a character. -/
inductive ByteFlaw where
  | start
  | continuation
  | endOfData
deriving DecidableEq, Repr, Inhabited

/-- What a flaw is called. -/
def ByteFlaw.title : ByteFlaw → String
  | start => "invalid start byte"
  | continuation => "invalid continuation byte"
  | endOfData => "unexpected end of data"

/-- Bytes that are not a character: their place, their number and the first of them. -/
structure ByteFault where
  flaw : ByteFlaw
  offset : Nat
  count : Nat
  first : UInt8
deriving DecidableEq, Repr, Inhabited

/-- The number of bytes that follow the first byte of a character, and the least and the greatest
value of the next byte; none if no character begins with the byte. -/
def tail? (b : UInt8) : Option (Nat × UInt8 × UInt8) :=
  if b < 0x80 then some (0, 0x80, 0xBF)
  else if b < 0xC2 then none
  else if b < 0xE0 then some (1, 0x80, 0xBF)
  else if b = 0xE0 then some (2, 0xA0, 0xBF)
  else if b = 0xED then some (2, 0x80, 0x9F)
  else if b < 0xF0 then some (2, 0x80, 0xBF)
  else if b = 0xF0 then some (3, 0x90, 0xBF)
  else if b < 0xF4 then some (3, 0x80, 0xBF)
  else if b = 0xF4 then some (3, 0x80, 0x8F)
  else none

/-- The bits that the first byte of a character has for its code point. -/
def leadBits (b : UInt8) (following : Nat) : Nat :=
  match following with
  | 0 => b.toNat
  | n + 1 => b.toNat % Nat.pow 2 (5 - n)

/-- Decodes bytes behind the text `done` (latest character first). A character that has begun with
`first`, `read` bytes ago, waits for `waiting` more, the next of them between `low` and `high`, and
has collected the bits of `point`. -/
def decodeFrom (done : List Char) (offset read waiting point : Nat) (first low high : UInt8) :
    List UInt8 → Except ByteFault (List Char)
  | [] => if waiting = 0 then .ok done.reverse else .error ⟨.endOfData, offset, read, first⟩
  | b :: bs =>
    match waiting with
    | 0 =>
      match tail? b with
      | none => .error ⟨.start, offset, 1, b⟩
      | some (0, _, _) => decodeFrom (Char.ofNat b.toNat :: done) (offset + 1) 0 0 0 0 0 0 bs
      | some (n + 1, low, high) =>
        decodeFrom done offset 1 (n + 1) (leadBits b (n + 1)) b low high bs
    | n + 1 =>
      if low ≤ b ∧ b ≤ high then
        let point := point * 64 + b.toNat % 64
        match n with
        | 0 => decodeFrom (Char.ofNat point :: done) (offset + read + 1) 0 0 0 0 0 0 bs
        | k + 1 => decodeFrom done offset (read + 1) (k + 1) point first 0x80 0xBF bs
      else .error ⟨.continuation, offset, read, first⟩

/-- The text of bytes. -/
def decode (bytes : List UInt8) : Except ByteFault String :=
  (decodeFrom [] 0 0 0 0 0 0 0 bytes).map String.ofList

/-- Two hexadecimal digits. -/
def hexByte (b : UInt8) : String :=
  String.ofList ((if b < 16 then ['0'] else []) ++ Nat.toDigits 16 b.toNat)

/-- The message that tells of bytes that are not a character. -/
def ByteFault.message (f : ByteFault) : String :=
  if f.count ≤ 1 then
    s!"'utf-8' codec can't decode byte 0x{hexByte f.first} in position {f.offset}: {f.flaw.title}"
  else
    s!"'utf-8' codec can't decode bytes in position {f.offset}-{f.offset + f.count - 1}: " ++
      f.flaw.title

/-- The characters of a text with every line end written as a line feed. -/
def unixLineEnds : List Char → List Char
  | '\r' :: '\n' :: cs => '\n' :: unixLineEnds cs
  | '\r' :: cs => '\n' :: unixLineEnds cs
  | c :: cs => c :: unixLineEnds cs
  | [] => []

/-- A text with every line end, be it a carriage return, a line feed or both, written as a line
feed. -/
def unixLines (s : String) : String :=
  String.ofList (unixLineEnds s.toList)

end RenderTree.Text
