import RenderTree.Component
import RenderTree.Text.LowerCase

/-!
# Display trees

A component tree made ready to be shown: labels in place of components, siblings in alphabetical
order, hidden components left out and, if asked for, containers replaced by what they contain.

* `Display` — a tree of labels.
* `Facts.label` — the label of a component.
* `Component.present` — the display tree of a component tree.
-/

namespace RenderTree

open RenderTree.Text

/-- A tree of labels. A branch may have no children; a leaf has no place for any. -/
inductive Display where
  | leaf (label : Text)
  | branch (label : Text) (children : List Display)
deriving Inhabited

namespace Display

/-- The label of the root. -/
def label : Display → Text
  | leaf l => l
  | branch l _ => l

/-- The trees below the root. -/
def children : Display → List Display
  | leaf _ => []
  | branch _ ds => ds

mutual
/-- The number of labels in a tree. -/
def count : Display → Nat
  | leaf _ => 1
  | branch _ ds => 1 + countAll ds

/-- The number of labels in several trees. -/
def countAll : List Display → Nat
  | [] => 0
  | d :: ds => count d + countAll ds
end

end Display

/-! ### Labels -/

/-- The mark added to the label of a component that replaces its container. -/
def defaultContainerSuffix : Text := " (*)"

/-- The mark added to the label of a component that is open further up. -/
def cycleSuffix : Text := " (cycle)"

/-- What names of containers contain, unless something else is asked for. -/
def defaultContainerMarker : Text := "Container"

/-- How a component tree is presented. -/
structure Presentation where
  hideContainers : Bool := false
  containerMarker : Text := defaultContainerMarker
  containerSuffix : Text := defaultContainerSuffix
deriving DecidableEq, Repr, Inhabited

/-- A text without the slashes at its end. -/
def dropSlashes (t : Text) : Text :=
  (t.reverse.dropWhile (· == Symbol.char '/')).reverse

/-- The last segment of a specifier, without extension. -/
def specifierName (specifier : Text) : Text :=
  let segment := afterLast (Symbol.char '/') (dropSlashes specifier)
  let stem := (splitExtension segment).1
  if stem.isEmpty then segment else stem

namespace Facts

/-- The label of a component: its specifier and its name, or the name alone where the specifier or
the directory of the component repeats it. -/
def label (f : Facts) : Text :=
  match f.specifier with
  | none => f.name
  | some specifier =>
    if specifier.isEmpty then f.name
    else if f.path.any (fun p => p.parent.name == f.name) then f.name
    else if specifierName specifier == f.name then f.name
    else dropSlashes specifier ++ "/" ++ f.name

/-- What siblings are sorted by. -/
def sortKey (f : Facts) : Text :=
  lower (f.specifier.getD [] ++ f.name)

/-- The end of a label, which tells that the component is open further up. -/
def labelEnd (f : Facts) : Text :=
  if f.status == .cycle then cycleSuffix else []

end Facts

/-! ### Presentation -/

/-- Whether a text occurs in another. -/
def occursIn (part : Text) : Text → Bool
  | [] => part.isEmpty
  | s :: t => part.isPrefixOf (s :: t) || occursIn part t

/-- Sorts items by their keys; items of one key keep their order. -/
def sortByKey {α : Type} (items : List (Text × α)) : List (Text × α) :=
  items.mergeSort (fun a b => !decide (b.1 < a.1))

namespace Component

/-- Whether the component counts as a container. -/
def isContainer (o : Presentation) (f : Facts) : Bool :=
  o.hideContainers && occursIn o.containerMarker f.name

/-- The display tree with a label and children; a leaf if there are none. -/
def display (label : Text) (children : List Display) : Display :=
  if children.isEmpty then .leaf label else .branch label children

mutual
/-- The display tree of a component that replaces those whose marks are `marks`. -/
def presentAs (o : Presentation) (marks : Text) : Component → Display
  | node f cs =>
    let plain (_ : Unit) :=
      display (f.label ++ marks ++ f.labelEnd)
        ((sortByKey (presentVisible o cs)).map Prod.snd)
    if isContainer o f then
      (presentFirst o (marks ++ o.containerSuffix) cs).getD (plain ())
    else plain ()

/-- The display tree of the first component that is not hidden. -/
def presentFirst (o : Presentation) (marks : Text) : List Component → Option Display
  | [] => none
  | c :: cs => if c.facts.hidden then presentFirst o marks cs else some (presentAs o marks c)

/-- The display trees of the components that are not hidden, with what they are sorted by. -/
def presentVisible (o : Presentation) : List Component → List (Text × Display)
  | [] => []
  | c :: cs =>
    if c.facts.hidden then presentVisible o cs
    else (c.facts.sortKey, presentAs o [] c) :: presentVisible o cs
end

/-- The display tree of a component tree. -/
def present (c : Component) (o : Presentation := {}) : Display :=
  presentAs o [] c

end Component

end RenderTree
