import RenderTree.Grammar.Binding

/-!
# Markup

Elements: tags with attributes and children, where the text between two tags is kept as it stands.

* `textEnd` — the extent of a run of text, and whether it is more than a line break.
* `children` — what stands between two tags.
* `elementRule` — an element.
-/

namespace RenderTree.Grammar

open RenderTree.Source
open RenderTree.Source.Reader

/-- The end of the run of text that begins at `i`, and whether it holds anything but line feeds and
the white space behind them. -/
def textEnd (text : Array Char) : Nat → Bool → Bool → Nat → Nat × Bool
  | 0, _, seen, i => (i, seen)
  | fuel + 1, fresh, seen, i =>
    if i < text.size then
      let c := charAt text i
      if "<>\x7b\x7d&".toList.contains c then (i, seen)
      else if c == '\n' then textEnd text fuel true seen (i + 1)
      else
        let fresh := fresh && isSpacing c
        textEnd text fuel fresh (seen || !fresh) (i + 1)
    else (i, seen)

/-- Reads a name in a tag, which may hold hyphens. -/
def tagName (kind : Kind) (anyWord : Bool) : Reader Unit := do
  let text := (← script).text
  let i := (← place).here
  let j := tagNameEnd text i
  if i < j then
    if !anyWord && !(← isTyped) && reservedWords.contains (slice text i j) then stop
    else lexeme kind j
  else stop

/-- Reads a name in a tag that holds no hyphens. -/
def plainTagName (kind : Kind) : Reader Unit := do
  let text := (← script).text
  let i := (← place).here
  if tagNameEnd text i == wordEnd text i then tagName kind false else stop

/-- Reads the name of an element, which may be qualified by a dot or a colon. In the typed dialect a
name without hyphens and colons can have type arguments. -/
def elementName (typeArguments : Reader Unit) : Reader Unit :=
  node .group (do
    tagName .identifier false
    sign ":"
    tagName .identifier false)
  <|> (do
    grow (plainTagName .identifier) (do
      sign "."
      plainTagName .propertyName
      return .member)
    optional (do typedOnly; typeArguments))
  <|> tagName .identifier false

/-- Reads what stands between braces in a tag or between tags. -/
def embedded (rec : Rules) : Reader Unit :=
  node .group (do
    sign "\x7b"
    optional (node .spread (do sign "..."; rec (.expression {})) <|> sequence rec {})
    sign "\x7d")

/-- Reads the value of an attribute. -/
def attributeValue (rec : Rules) : Reader Unit := do
  match ← nextChar with
  | '\x7b' => embedded rec
  | '<' => rec .element
  | _ =>
    match tagStringEnd (← script).text (← place).here with
    | some j => lexeme .string j
    | none => stop

/-- Reads an attribute. -/
def tagAttribute (rec : Rules) : Reader Unit := do
  if (← nextChar) == '\x7b' then embedded rec
  else
    node .group (do
      node .group (do
        tagName .propertyName false
        sign ":"
        tagName .propertyName false)
      <|> tagName .propertyName true
      optional (do sign "="; attributeValue rec))

/-- Reads the children of an element and the opening of its closing tag, from the offset `i` on. -/
def children (rec : Rules) : Nat → Nat → Reader Unit
  | 0, _ => stop
  | fuel + 1, i => do
    let text := (← script).text
    let (j, seen) := textEnd text (text.size - i + 1) false false i
    resumeAt i
    if seen then lexeme .markupText j
    resumeAt j
    match charAt text j with
    | '<' =>
      if standsAt text "</".toList j then pure ()
      else if standsAt text "<!--".toList j then
        lexeme .htmlComment (endOf text (fun c => !isLineEnd c) j)
        children rec fuel (← place).last
      else
        rec .element
        children rec fuel (← place).last
    | '\x7b' =>
      embedded rec
      children rec fuel (← place).last
    | '&' =>
      match entityEnd text j with
      | some k =>
        lexeme (.sign (slice text j k)) k
        children rec fuel (← place).last
      | none => stop
    | _ => stop

/-- Reads a tag up to its closing bracket, which tells whether the element ends with it. -/
def tag (rec : Rules) : Reader Kind :=
  nodeOf (do
    looseSign "<"
    let named : Reader Unit := do
      elementName (typeArguments rec)
      many (tagAttribute rec)
    let bare := (← nextChar) == '>' || (← isTyped)
    if bare then optional named else named
    (do looseSign "/>"; return .selfClosingTag)
      <|> (do looseSign ">"; return .openingTag))

/-- Reads an element or a fragment. -/
def elementRule (rec : Rules) : Reader Unit :=
  node .element (do
    if (← tag rec) == .openingTag then
      children rec ((← script).text.size + 1) (← place).last
      node .closingTag (do
        looseSign "</"
        optional (elementName refuse)
        looseSign ">"))

end RenderTree.Grammar
