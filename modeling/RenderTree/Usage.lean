import RenderTree.Imports

/-!
# Rendered components

Which of the imported names a module renders. A module that imports the markup library is searched
for tags and for components that are handed to a route; any other is taken for a wrapper around a
component, and the calls it exports are searched.

* `ScanMode`, `scanMode` — the two ways to search, and which one applies.
* `markupUsage` — the bindings used as tags or routed components.
* `wrappedExport` — the binding wrapped by the default export.
* `usedComponents` — the bindings that a module renders.
-/

namespace RenderTree

open RenderTree.Source

/-- The name that the markup library is imported by, unless another is asked for. -/
def defaultMarkupLibrary : Text := "React"

/-- The two ways to search a module for the components it renders. -/
inductive ScanMode where
  | markup | wrappedExport
deriving DecidableEq, Repr, Inhabited

/-- The way to search a module with certain bindings. -/
def scanMode (bindings : List Binding) (library : Text := defaultMarkupLibrary) : ScanMode :=
  if bindings.any (fun b => Text.ofString b.localName == library) then .markup else .wrappedExport

/-- The first binding of a name. -/
def lookUp (bindings : List Binding) (name : String) : Option Binding :=
  bindings.find? (fun b => b.localName == name)

/-! ### Tags and routes -/

/-- The attribute by which a route is given its component. -/
def routeAttribute : String := "component"

/-- The name that is used at the head of a token list: the name of a tag, or the name three tokens
behind the route attribute. -/
def usedName : List Token → Option String
  | [] => none
  | t :: rest =>
    let nameOf (u : Option Token) : Option String :=
      match u with
      | some u => if u.kind == .name then some u.value else none
      | none => none
    if t.kind == .tagOpen then nameOf rest.head?
    else if t.kind == .name && t.value == routeAttribute then nameOf rest[2]?
    else none

/-- Adds the bindings used in the tokens to those already found, each once. -/
def markupUsageFrom (bindings : List Binding) : List Token → List Binding → List Binding
  | [], used => used
  | t :: rest, used =>
    let used :=
      match (usedName (t :: rest)).bind (lookUp bindings) with
      | some b => if used.any (fun u => u.localName == b.localName) then used else used ++ [b]
      | none => used
    markupUsageFrom bindings rest used

/-- The bindings used as tags or routed components, in the order of their first use. -/
def markupUsage (tokens : List Token) (bindings : List Binding) : List Binding :=
  markupUsageFrom bindings tokens []

/-! ### Wrapped exports -/

/-- Whether a statement exports something as the module's default. -/
def isDefaultExport (t : Tree) : Bool :=
  t.kind == .statement .exporting && t.children.any (fun c => c.kind == .sign "default")

/-- The expression that a module exports as its default. -/
def defaultExportValue (declarations : List Tree) : Option Tree :=
  (declarations.find? isDefaultExport).bind (fun t => t.child? .value)

/-- Whether a statement declares variables. -/
def declaresVariables (t : Tree) : Bool :=
  t.kind == .statement .lexical || t.kind == .statement .variables

/-- The declarations of variables of a module, exported ones included. -/
def variableDeclarations (declarations : List Tree) : List Tree :=
  declarations.filterMap fun t =>
    if declaresVariables t then some t
    else if t.kind == .statement .exporting then (t.child? .declaration).filter declaresVariables
    else none

namespace Source.Module

/-- The call that a variable of some name is initialised with. -/
def initialiser? (m : Module) (name : String) : Option Tree :=
  ((variableDeclarations m.declarations).flatMap Tree.children).findSome? fun d =>
    if d.kind == .declarator then
      match d.child? .name, d.child? .value with
      | some n, some v => if m.textOf n == name && v.kind == .call then some v else none
      | _, _ => none
    else none

/-- The first bound name among the direct arguments of a call. -/
def boundArgument (m : Module) (bindings : List Binding) (call : Tree) : Option Binding :=
  (call.child? .arguments).bind fun arguments =>
    (m.identifiers arguments.children).findSome? (lookUp bindings)

mutual
/-- The first bound argument of a call and of the calls that are called in it, outermost first. -/
def boundInChain (m : Module) (bindings : List Binding) : Tree → Option Binding
  | .node kind role start stop children =>
    if kind == .call then
      (m.boundArgument bindings (.node kind role start stop children)).or
        (m.boundInCallee bindings children)
    else none

/-- `boundInChain` for the callee among the parts of a call. -/
def boundInCallee (m : Module) (bindings : List Binding) : List Tree → Option Binding
  | [] => none
  | t :: ts =>
    if t.role == .callee then m.boundInChain bindings t else m.boundInCallee bindings ts
end

/-- The call that a module's default export consists of or is initialised with. -/
def exportedCall? (m : Module) : Option Tree :=
  (defaultExportValue m.declarations).bind fun value =>
    match value.kind with
    | .identifier => m.initialiser? (m.textOf value)
    | .call => some value
    | _ => none

/-- The binding that the default export of a module wraps, in a list of at most one. -/
def wrappedExport (m : Module) (bindings : List Binding) : List Binding :=
  (m.exportedCall?.bind (m.boundInChain bindings)).toList

/-- The bindings that a module renders. -/
def usedComponents (m : Module) (bindings : List Binding)
    (library : Text := defaultMarkupLibrary) : List Binding :=
  match scanMode bindings library with
  | .markup => markupUsage m.tokens bindings
  | .wrappedExport => m.wrappedExport bindings

end Source.Module

end RenderTree
