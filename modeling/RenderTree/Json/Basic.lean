import RenderTree.Decimal.Shortest
import RenderTree.Text.Quoted

/-!
# JSON values

A JSON value, and how it is written: on one line in messages, with quoted strings and capitalised
names for what is neither text nor number, and as a document, with every item and every member on a
line of its own, indented by two blanks for each level. Symbols outside ASCII stand for themselves in
documents.

* `Json` — a value. Objects keep the order of their members.
* `Json.put`, `Json.find?` — gives a member of an object its value, and finds it.
* `Json.inMessage` — the text of a value in a message.
* `Json.write` — the text of a value at a level.
* `Json.render` — the text of a document.
-/

namespace RenderTree

/-- A JSON value. Numbers written with a fraction or an exponent are apart from whole ones. -/
inductive Json where
  | null
  | bool (b : Bool)
  | integer (n : Int)
  | real (x : Binary64)
  | string (s : Text)
  | array (items : List Json)
  | object (members : List (Text × Json))
deriving Inhabited

namespace Json

open RenderTree.Decimal RenderTree.Text

/-- Members with the value `v` for the key `k`: a key that is there already keeps its place. -/
def put (k : Text) (v : Json) : List (Text × Json) → List (Text × Json)
  | [] => [(k, v)]
  | (l, w) :: rest => if l = k then (k, v) :: rest else (l, w) :: put k v rest

/-- The value of the first member with the key `k`. -/
def find? (k : Text) : List (Text × Json) → Option Json
  | [] => none
  | (l, v) :: rest => if l = k then some v else find? k rest

/-! ### Messages -/

/-- How numbers with a fraction or an exponent are shown. -/
def shownReal : DecimalFormat :=
  { least := -4, limit := 16, mark := 'e', exponentWidth := 2, notANumber := "nan",
    infinity := "inf" }

mutual
/-- The text of a value in a message. -/
def inMessage : Json → String
  | null => "None"
  | bool true => "True"
  | bool false => "False"
  | integer n => toString n
  | real x => shownReal.write x
  | string s => quoted s
  | array vs => "[" ++ ", ".intercalate (itemsInMessage vs) ++ "]"
  | object ms => "\x7b" ++ ", ".intercalate (membersInMessage ms) ++ "\x7d"

/-- The texts of several values. -/
def itemsInMessage : List Json → List String
  | [] => []
  | v :: vs => inMessage v :: itemsInMessage vs

/-- The texts of members, each with its key. -/
def membersInMessage : List (Text × Json) → List String
  | [] => []
  | (k, v) :: ms => (quoted k ++ ": " ++ inMessage v) :: membersInMessage ms
end

/-! ### Documents -/

/-- The digit of a number below sixteen, letters in lower case. -/
def hexDigit (n : Nat) : Char :=
  if n < 10 then Char.ofNat (48 + n) else Char.ofNat (87 + n)

/-- How a character of a string is written. -/
def encodeChar (c : Char) : List Char :=
  if c = '"' then ['\\', '"']
  else if c = '\\' then ['\\', '\\']
  else if c = '\n' then ['\\', 'n']
  else if c = '\r' then ['\\', 'r']
  else if c = '\t' then ['\\', 't']
  else if c = '\x0c' then ['\\', 'f']
  else if c = '\x08' then ['\\', 'b']
  else if c.toNat < 32 then ['\\', 'u', '0', '0', hexDigit (c.toNat / 16), hexDigit (c.toNat % 16)]
  else [c]

/-- How a symbol of a string is written. A surrogate stands for itself, too. -/
def encodeSymbol : Symbol → Text
  | .char c => (encodeChar c).map .char
  | .surrogate s => [.surrogate s]

/-- How a string is written, quotes included. -/
def encodeString (s : Text) : Text :=
  Symbol.char '"' :: s.flatMap encodeSymbol ++ [Symbol.char '"']

/-- How numbers with a fraction or an exponent are written. -/
def realFormat : DecimalFormat :=
  { least := -4, limit := 16, mark := 'e', exponentWidth := 2, notANumber := "NaN",
    infinity := "Infinity" }

/-- The beginning of a line at a level. -/
def newLine (level : Nat) : Text :=
  Symbol.char '\n' :: List.replicate (2 * level) (Symbol.char ' ')

mutual
/-- The text of a value at a level. -/
def write (level : Nat) : Json → Text
  | null => "null"
  | bool b => if b then "true" else "false"
  | integer n => toString n
  | real x => realFormat.write x
  | string s => encodeString s
  | array [] => [Symbol.char '[', Symbol.char ']']
  | array (v :: vs) =>
    Symbol.char '[' :: newLine (level + 1) ++ write (level + 1) v ++ writeItems (level + 1) vs
      ++ newLine level ++ [Symbol.char ']']
  | object [] => [Symbol.char '\x7b', Symbol.char '\x7d']
  | object (m :: ms) =>
    Symbol.char '\x7b' :: newLine (level + 1) ++ writeMember (level + 1) m
      ++ writeMembers (level + 1) ms ++ newLine level ++ [Symbol.char '\x7d']

/-- The text of the items of an array behind the first. -/
def writeItems (level : Nat) : List Json → Text
  | [] => []
  | v :: vs => Symbol.char ',' :: newLine level ++ write level v ++ writeItems level vs

/-- The text of a member of an object. -/
def writeMember (level : Nat) : Text × Json → Text
  | (k, v) => encodeString k ++ Symbol.char ':' :: Symbol.char ' ' :: write level v

/-- The text of the members of an object behind the first. -/
def writeMembers (level : Nat) : List (Text × Json) → Text
  | [] => []
  | m :: ms => Symbol.char ',' :: newLine level ++ writeMember level m ++ writeMembers level ms
end

/-- The text of a document. -/
def render (v : Json) : Text :=
  write 0 v

end Json

end RenderTree
