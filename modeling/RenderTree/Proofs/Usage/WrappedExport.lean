import RenderTree.Proofs.Usage.FirstUse
import RenderTree.Proofs.Usage.Imports

/-!
# Wrapped exports

A module without markup renders what its default export wraps: the export is a call, or a variable
that is initialised with one, and an argument of it is imported. A call can be called in turn; its
arguments are then read before those of the call that it is made to.

* `Module.DefaultExport` — the expression that the first default export consists of.
* `Module.InitialisedAt` — the variables that are initialised with calls, and where they stand.
* `Module.ExportedCall`, `exportedCall?_eq_some_iff` — the call that is exported.
* `CallChain` — a call and the calls that are called in it; there is one such chain for each.
* `Module.BoundArgumentAt`, `CallChain.boundInChain_eq` — the first bound argument of a chain.
* `wrappedExport_eq_iff` — the binding that a module's default export wraps.
-/

namespace RenderTree

open RenderTree.Source

variable {m : Module} {bindings : List Binding} {b : Binding} {t v call declaration : Tree}
  {chain : List Tree} {name : String}

/-! ### The exported expression -/

/-- A statement exports something as the default of its module. -/
def ExportsDefault (t : Tree) : Prop :=
  t.kind = .statement .exporting ∧ ∃ c ∈ t.children, c.kind = .sign "default"

/-- The check of an export finds those that are the default. -/
theorem isDefaultExport_iff : isDefaultExport t = true ↔ ExportsDefault t := by
  simp [isDefaultExport, ExportsDefault]

/-- An expression is what the first default export of a module consists of. -/
def Source.Module.DefaultExport (m : Module) (v : Tree) : Prop :=
  ∃ before statement after, m.declarations = before ++ statement :: after ∧
    (∀ t ∈ before, ¬ ExportsDefault t) ∧ ExportsDefault statement ∧
    statement.child? .value = some v

/-- The value that is found is that of the first default export. -/
theorem defaultExportValue_eq_some_iff :
    defaultExportValue m.declarations = some v ↔ m.DefaultExport v := by
  rw [defaultExportValue, Option.bind_eq_some_iff, Module.DefaultExport]
  simp only [List.find?_eq_some_iff_append, Bool.not_eq_true', ← Bool.not_eq_true,
    isDefaultExport_iff]
  constructor
  · rintro ⟨statement, ⟨hexports, before, after, hsplit, hbefore⟩, hvalue⟩
    exact ⟨before, statement, after, hsplit, hbefore, hexports, hvalue⟩
  · rintro ⟨before, statement, after, hsplit, hbefore, hexports, hvalue⟩
    exact ⟨statement, ⟨hexports, before, after, hsplit, hbefore⟩, hvalue⟩

/-! ### Initialised variables -/

/-- A statement declares variables. -/
def DeclaresVariables (t : Tree) : Prop :=
  t.kind = .statement .lexical ∨ t.kind = .statement .variables

/-- The declaration of variables that a statement is or exports. -/
inductive Declares (t : Tree) : Tree → Prop where
  | itself (declares : DeclaresVariables t) : Declares t t
  | exported {declaration : Tree} (exporting : t.kind = .statement .exporting)
      (child : t.child? .declaration = some declaration)
      (declares : DeclaresVariables declaration) : Declares t declaration

/-- The check of a statement finds declarations of variables. -/
theorem declaresVariables_iff : declaresVariables t = true ↔ DeclaresVariables t := by
  simp [declaresVariables, DeclaresVariables]

/-- The declaration of variables that is found in a statement. -/
def declaration? (t : Tree) : Option Tree :=
  if declaresVariables t then some t
  else if t.kind == .statement .exporting then (t.child? .declaration).filter declaresVariables
  else none

/-- The declaration that is found is the statement, or what it exports. -/
theorem declaration?_eq_some_iff : declaration? t = some declaration ↔ Declares t declaration := by
  constructor
  · intro h
    rw [declaration?] at h
    split at h
    next hdeclares =>
      cases h
      exact .itself (declaresVariables_iff.1 hdeclares)
    next =>
      split at h
      next hexporting =>
        obtain ⟨hchild, hdeclares⟩ := Option.filter_eq_some_iff.1 h
        exact .exported (beq_iff_eq.1 hexporting) hchild (declaresVariables_iff.1 hdeclares)
      next => cases h
  · intro h
    cases h with
    | itself declares => exact if_pos (declaresVariables_iff.2 declares)
    | exported exporting child declares =>
      -- An exporting statement is not itself a declaration, so the first test fails.
      have hother : ¬ declaresVariables t = true := by simp [declaresVariables, exporting]
      rw [declaration?, if_neg hother, if_pos (beq_iff_eq.2 exporting), Option.filter_eq_some_iff]
      exact ⟨child, declaresVariables_iff.2 declares⟩

/-- A declarator gives a name to a call. -/
structure Source.Module.Initialises (m : Module) (name : String) (declarator call : Tree) :
    Prop where
  kind : declarator.kind = .declarator
  named : ∃ n, declarator.child? .name = some n ∧ m.textOf n = name
  value : declarator.child? .value = some call
  isCall : call.kind = .call

namespace Source.Module

/-- A variable of some name is initialised with a call by the declarator at a position. -/
inductive InitialisedAt (m : Module) (name : String) : List Nat → Tree → Prop where
  | intro {i j : Nat} {statement declaration declarator call : Tree}
      (atStatement : m.declarations[i]? = some statement)
      (declares : Declares statement declaration)
      (atDeclarator : declaration.children[j]? = some declarator)
      (initialises : m.Initialises name declarator call) : InitialisedAt m name [i, j] call

/-- The call that a declarator of some name gives the name to. -/
def initialiserIn? (m : Module) (name : String) (d : Tree) : Option Tree :=
  if d.kind == .declarator then
    match d.child? .name, d.child? .value with
    | some n, some v => if m.textOf n == name && v.kind == .call then some v else none
    | _, _ => none
  else none

/-- The call that is found initialises the name in the declaration. -/
theorem initialiserIn?_eq_some_iff :
    m.initialiserIn? name t = some call ↔ m.Initialises name t call := by
  constructor
  · intro h
    rw [initialiserIn?] at h
    split at h
    next hkind =>
      split at h
      next n v hn hv =>
        rw [Option.ite_none_right_eq_some, Bool.and_eq_true, beq_iff_eq, beq_iff_eq] at h
        obtain ⟨⟨hname, hcall⟩, hvalue⟩ := h
        cases hvalue
        exact ⟨beq_iff_eq.1 hkind, ⟨n, hn, hname⟩, hv, hcall⟩
      next => cases h
    next => cases h
  · rintro ⟨hkind, ⟨n, hn, hname⟩, hvalue, hcall⟩
    rw [initialiserIn?, if_pos (beq_iff_eq.2 hkind), hn, hvalue]
    exact if_pos (by rw [hname, hcall]; simp)

/-- The calls that variables of some name are initialised with, as they stand in the module. -/
theorem inOrder_initialisers (m : Module) (name : String) :
    InOrder (m.InitialisedAt name) ((m.declarations.filterMap declaration?).flatMap fun d =>
      d.children.filterMap (m.initialiserIn? name)) := by
  refine (InOrder.flatMap_filterMap fun d : Tree => (InOrder.elements d.children).filterMap _).congr
    fun way call => ?_
  simp only [declaration?_eq_some_iff, initialiserIn?_eq_some_iff]
  constructor
  · rintro ⟨hstatement, hdeclares, hdeclarator, hinitialises⟩
    exact ⟨_, _, _, rfl, hstatement, _, hdeclares, _, ⟨_, rfl, hdeclarator⟩, hinitialises⟩
  · rintro ⟨i, statement, _, rfl, hstatement, declaration, hdeclares, declarator,
      ⟨j, rfl, hdeclarator⟩, hinitialises⟩
    exact .intro hstatement hdeclares hdeclarator hinitialises

/-- The call that is found is the first that initialises the name. -/
theorem initialiser?_eq_some_iff :
    m.initialiser? name = some call ↔ First (m.InitialisedAt name) call := by
  rw [← (m.inOrder_initialisers name).head?_eq_some_iff, ← List.filterMap_flatMap,
    List.head?_filterMap]
  rfl

/-- The call that a module exports as its default: the exported expression, or what the variable of
that name is first initialised with. -/
inductive ExportedCall (m : Module) : Tree → Prop where
  | itself {call : Tree} (exported : m.DefaultExport call) (kind : call.kind = .call) :
      ExportedCall m call
  | initialiser {v call : Tree} (exported : m.DefaultExport v) (identifier : v.kind = .identifier)
      (first : First (m.InitialisedAt (m.textOf v)) call) : ExportedCall m call

/-- The call that is found is the one that the module exports. -/
theorem exportedCall?_eq_some_iff : m.exportedCall? = some call ↔ m.ExportedCall call := by
  rw [exportedCall?, Option.bind_eq_some_iff]
  simp only [defaultExportValue_eq_some_iff]
  constructor
  · rintro ⟨v, hv, hcall⟩
    split at hcall
    next hkind => exact .initialiser hv hkind (initialiser?_eq_some_iff.1 hcall)
    next hkind =>
      cases hcall
      exact .itself hv hkind
    next => cases hcall
  · intro h
    cases h with
    | itself exported kind => exact ⟨call, exported, by rw [kind]⟩
    | @initialiser v _ exported identifier first =>
      refine ⟨v, exported, ?_⟩
      rw [identifier]
      exact initialiser?_eq_some_iff.2 first

/-- What is exported as a call is one. -/
theorem ExportedCall.kind_eq (h : m.ExportedCall call) : call.kind = .call := by
  cases h with
  | itself _ kind => exact kind
  | initialiser _ _ first =>
    obtain ⟨way, hway, -⟩ := first
    cases hway with
    | intro _ _ _ initialises => exact initialises.isCall

end Source.Module

/-! ### Chains of calls -/

/-- A call and the calls that are called in it, each the callee of the one in front of it. -/
inductive CallChain : Tree → List Tree → Prop where
  | last {call : Tree} (callee : ∀ c, call.child? .callee = some c → c.kind ≠ .call) :
      CallChain call [call]
  | next {call callee : Tree} {chain : List Tree} (child : call.child? .callee = some callee)
      (kind : callee.kind = .call) (rest : CallChain callee chain) : CallChain call (call :: chain)

/-- A call has one chain. -/
theorem CallChain.unique (h : CallChain call chain) :
    ∀ {chain'}, CallChain call chain' → chain' = chain := by
  induction h with
  | last callee =>
    intro chain' h'
    cases h' with
    | last => rfl
    | next child kind => exact absurd kind (callee _ child)
  | next child kind _ ih =>
    intro chain' h'
    cases h' with
    | last callee' => exact absurd kind (callee' _ child)
    | next child' _ rest' =>
      rw [child, Option.some.injEq] at child'
      subst child'
      rw [ih rest']

/-- A part is smaller than its node, so that chains end. -/
theorem size_lt_of_child? {role : Role} (h : t.child? role = some v) : v.size < t.size := by
  obtain ⟨before, after, hsplit⟩ := List.append_of_mem (List.mem_of_find?_eq_some h)
  rw [t.size_eq, hsplit, Tree.sizes_append, Tree.sizes]
  omega

/-- A chain is no longer than its call is large. -/
theorem exists_callChain (call : Tree) :
    ∃ chain, CallChain call chain ∧ chain.length ≤ call.size := by
  by_cases h : ∃ callee, call.child? .callee = some callee ∧ callee.kind = .call
  · -- The callee is a part of the call, so its chain is known.
    obtain ⟨callee, child, kind⟩ := h
    have hlt := size_lt_of_child? child
    obtain ⟨chain, hchain, hlength⟩ := exists_callChain callee
    refine ⟨call :: chain, .next child kind hchain, ?_⟩
    rw [List.length_cons]
    omega
  · refine ⟨[call], .last fun c child kind => h ⟨c, child, kind⟩, ?_⟩
    rw [List.length_singleton, Tree.size_eq]
    omega
termination_by call.size

namespace Source.Module

/-- An argument of one of the calls is an identifier that is bound, and where it stands. -/
inductive BoundArgumentAt (m : Module) (bindings : List Binding) (chain : List Tree) :
    List Nat → Binding → Prop where
  | intro {i j : Nat} {call arguments argument : Tree} {b : Binding} {earlier later : List Binding}
      (atCall : chain[i]? = some call) (child : call.child? .arguments = some arguments)
      (atArgument : arguments.children[j]? = some argument)
      (identifier : argument.kind = .identifier) (name : b.localName = m.textOf argument)
      (split : bindings = earlier ++ b :: later)
      (first : ∀ c ∈ earlier, c.localName ≠ b.localName) :
      BoundArgumentAt m bindings chain [i, j] b

/-- The bindings of the arguments of some calls, call by call. -/
theorem inOrder_boundArguments (m : Module) (bindings : List Binding) (chain : List Tree) :
    InOrder (m.BoundArgumentAt bindings chain)
      ((chain.filterMap fun call => call.child? .arguments).flatMap fun arguments =>
        (m.identifiers arguments.children).filterMap (lookUp bindings)) := by
  refine (InOrder.flatMap_filterMap fun arguments : Tree =>
    (m.inOrder_identifiers arguments.children).filterMap _).congr fun way b => ?_
  simp only [lookUp_eq_some_iff]
  constructor
  · rintro ⟨hcall, hchild, hargument, hidentifier, hname, hsplit, hfirst⟩
    exact ⟨_, _, _, rfl, hcall, _, hchild, _, ⟨_, _, rfl, hargument, hidentifier, rfl⟩, hname, _, _,
      hsplit, hname ▸ hfirst⟩
  · rintro ⟨i, call, _, rfl, hcall, arguments, hchild, _, ⟨j, argument, rfl, hargument, hidentifier,
      rfl⟩, hname, earlier, later, hsplit, hfirst⟩
    exact .intro hcall hchild hargument hidentifier hname hsplit (hname.symm ▸ hfirst)

/-- The argument that is bound is the first among the identifiers that is. -/
theorem boundArgument_eq_head? (m : Module) (bindings : List Binding) (call : Tree) :
    m.boundArgument bindings call = ((call.child? .arguments).toList.flatMap fun arguments =>
      (m.identifiers arguments.children).filterMap (lookUp bindings)).head? := by
  rw [boundArgument]
  cases call.child? .arguments with
  | none => rfl
  | some arguments =>
    rw [Option.bind_some, Option.toList_some, List.flatMap_singleton, List.head?_filterMap]

/-- The first bound argument of a chain is found call by call. -/
theorem findSome?_boundArgument_eq_some_iff :
    chain.findSome? (m.boundArgument bindings) = some b ↔
      First (m.BoundArgumentAt bindings chain) b := by
  rw [← (m.inOrder_boundArguments bindings chain).head?_eq_some_iff,
    List.filterMap_eq_flatMap_toList, List.flatMap_assoc, List.head?_flatMap,
    funext (m.boundArgument_eq_head? bindings)]

/-- The callee is the first part in that role. -/
theorem boundInCallee_eq (m : Module) (bindings : List Binding) (ts : List Tree) :
    m.boundInCallee bindings ts =
      (ts.find? (fun t => t.role == .callee)).bind (m.boundInChain bindings) := by
  induction ts with
  | nil => rw [boundInCallee, List.find?_nil, Option.bind_none]
  | cons t ts ih =>
    rw [boundInCallee, List.find?_cons, ih]
    cases t.role == .callee <;> rfl

/-- A call is searched before its callee. -/
theorem boundInChain_eq (hcall : call.kind = .call) : m.boundInChain bindings call =
    (m.boundArgument bindings call).or ((call.child? .callee).bind (m.boundInChain bindings)) := by
  cases call with
  | node kind role start stop children =>
    rw [boundInChain, if_pos (show (kind == Kind.call) = true from beq_iff_eq.2 hcall),
      boundInCallee_eq]
    rfl

/-- What is no call ends the chain. -/
theorem boundInChain_of_kind_ne (h : t.kind ≠ .call) : m.boundInChain bindings t = none := by
  cases t with
  | node kind role start stop children =>
    rw [boundInChain]
    exact if_neg fun hkind => h (beq_iff_eq.1 hkind)

end Source.Module

/-- **Callee by callee.** What is found in a call is the first that is found along its chain. -/
theorem CallChain.boundInChain_eq (h : CallChain call chain) (hcall : call.kind = .call) :
    m.boundInChain bindings call = chain.findSome? (m.boundArgument bindings) := by
  induction h with
  | @last call callee =>
    have hnone : (call.child? .callee).bind (m.boundInChain bindings) = none := by
      rw [Option.bind_eq_none_iff]
      exact fun c child => Module.boundInChain_of_kind_ne (callee c child)
    rw [Module.boundInChain_eq hcall, hnone, Option.or_none, List.findSome?_singleton]
  | next child kind _ ih =>
    rw [Module.boundInChain_eq hcall, child, Option.bind_some, ih kind, List.findSome?_cons]
    cases m.boundArgument bindings _ <;> rfl

/-- The default export of a module wraps a binding: this is the first that is bound to an argument
of the exported call or of the calls that are called in it. -/
def Source.Module.Wraps (m : Module) (bindings : List Binding) (b : Binding) : Prop :=
  ∃ call chain, m.ExportedCall call ∧ CallChain call chain ∧
    First (m.BoundArgumentAt bindings chain) b

/-- The search in the exported call finds what the module wraps. -/
theorem bind_boundInChain_eq_some_iff :
    m.exportedCall?.bind (m.boundInChain bindings) = some b ↔ m.Wraps bindings b := by
  rw [Option.bind_eq_some_iff, Module.Wraps]
  simp only [Module.exportedCall?_eq_some_iff]
  constructor
  · rintro ⟨call, hcall, hbound⟩
    obtain ⟨chain, hchain, -⟩ := exists_callChain call
    rw [hchain.boundInChain_eq hcall.kind_eq, Module.findSome?_boundArgument_eq_some_iff] at hbound
    exact ⟨call, chain, hcall, hchain, hbound⟩
  · rintro ⟨call, chain, hcall, hchain, hbound⟩
    refine ⟨call, hcall, ?_⟩
    rwa [hchain.boundInChain_eq hcall.kind_eq, Module.findSome?_boundArgument_eq_some_iff]

/-- **Wrapped exports.** What is found for the default export of a module is the binding that it
wraps, and nothing exactly if it wraps none. To look for it is to go through a chain of calls, and a
call has one such chain, however deep the calls in it are nested. -/
theorem wrappedExport_eq_iff (m : Module) (bindings : List Binding) :
    (∀ b, m.wrappedExport bindings = [b] ↔ m.Wraps bindings b) ∧
      (m.wrappedExport bindings = [] ↔ ∀ b, ¬ m.Wraps bindings b) ∧
      ∀ call, ∃! chain, CallChain call chain ∧ chain.length ≤ call.size := by
  refine ⟨fun b => ?_, ?_, fun call => ?_⟩
  · rw [Module.wrappedExport, Option.toList_eq_singleton_iff, bind_boundInChain_eq_some_iff]
  · rw [Module.wrappedExport, Option.toList_eq_nil_iff, Option.eq_none_iff_forall_ne_some]
    exact forall_congr' fun b => not_congr bind_boundInChain_eq_some_iff
  · obtain ⟨chain, hchain, hlength⟩ := exists_callChain call
    exact ⟨chain, ⟨hchain, hlength⟩, fun chain' h => hchain.unique h.1⟩

/-- The outer call wins, and the first variable of the name is not initialised with a call. -/
example : (parse ("import B from './b';import C from './c';var A = B;"
    ++ "export const A = f(B)(x, C);export default A")).toOption.map
      (fun m => m.wrappedExport m.imports) = some [⟨"C", "./c"⟩] := by
  decide +kernel

end RenderTree
