import RenderTree.Usage
import Mathlib.Data.List.Nodup

/-!
# Rendered components are first bindings

A module can bind one name more than once, and use it over and over, as a tag, in a route and in a
call. Whichever way it is searched, each name comes up once, with its first binding; and what imports
bind comes from code.

* `mem_imports_iff` — the bindings of a module are what the clauses of its imports from code bind.
* `FirstBindings` — first bindings of different names.
* `firstBindings_markupUsageFrom`, `mem_markupUsageFrom_iff` — the search for tags and routes keeps to
  them, token by token, and misses none.
* `lookUp_of_boundInChain` — so does the search of calls, callee by callee.
* `firstBindings_usedComponents`, `length_usedComponents_le` — all that a module renders.
-/

namespace RenderTree

open RenderTree.Source

variable {bindings used : List Binding} {name : String} {library : Text} {b : Binding} {m : Module}

/-! ### What imports bind -/

/-- A statement imports `b` from code: one of its clauses binds the name, and its specifier is neither
empty nor that of an asset. -/
structure Source.Module.Imports (m : Module) (statement : Tree) (b : Binding) : Prop where
  importing : statement.kind = .statement .importing
  source : m.importSource statement = some b.specifier
  code : b.specifier ≠ "" ∧ isAsset b.specifier = false
  bound : ∃ clause ∈ statement.children, clause.kind = .importClause ∧
    b.localName ∈ m.boundNames clause

/-- The bindings of a statement are those that it imports. -/
theorem mem_importsOf_iff {statement : Tree} :
    b ∈ m.importsOf statement ↔ m.Imports statement b := by
  obtain ⟨localName, specifier⟩ := b
  rw [Module.importsOf]
  split
  next hkind =>
    have hkind : statement.kind = .statement .importing := by simpa using hkind
    cases hsource : m.importSource statement with
    | none =>
      -- Without a source there is nothing to import.
      constructor
      · intro h
        cases h
      · intro h
        have := h.source
        simp [hsource] at this
    | some specifier' =>
      simp only [List.mem_ite_nil_left, Bool.or_eq_true, beq_iff_eq, not_or, Bool.not_eq_true,
        List.mem_flatMap, List.mem_filter, List.mem_map, Binding.mk.injEq]
      constructor
      · rintro ⟨hcode, clause, ⟨hclause, hk⟩, name, hname, rfl, rfl⟩
        exact ⟨hkind, hsource, hcode, clause, hclause, hk, hname⟩
      · rintro ⟨-, hs, hcode, clause, hclause, hk, hname⟩
        rw [hsource, Option.some.injEq] at hs
        exact ⟨hs ▸ hcode, clause, ⟨hclause, hk⟩, localName, hname, rfl, hs⟩
  next hkind =>
    constructor
    · intro h
      cases h
    · intro h
      exact absurd (by simpa using h.importing) hkind

/-- **Imports.** The bindings of a module are those that its statements import from code. -/
theorem mem_imports_iff : b ∈ m.imports ↔ ∃ statement ∈ m.declarations, m.Imports statement b := by
  rw [Module.imports, List.mem_flatMap]
  simp only [mem_importsOf_iff]

/-! ### First bindings -/

/-- What is looked up by a name has that name. -/
theorem localName_of_lookUp (h : lookUp bindings name = some b) : b.localName = name := by
  simpa using List.find?_some h

/-- What is looked up is one of the bindings. -/
theorem mem_of_lookUp (h : lookUp bindings name = some b) : b ∈ bindings :=
  List.mem_of_find?_eq_some h

/-- What is found for a name is the first binding of its own name. -/
theorem lookUp_localName (h : lookUp bindings name = some b) :
    lookUp bindings b.localName = some b := by
  rw [localName_of_lookUp h, h]

/-- All bindings in `used` have different names, and are the first of their names. -/
structure FirstBindings (bindings used : List Binding) : Prop where
  nodup : (used.map Binding.localName).Nodup
  first : ∀ b ∈ used, lookUp bindings b.localName = some b

/-- No bindings are first ones. -/
theorem FirstBindings.nil : FirstBindings bindings [] :=
  ⟨List.nodup_nil, by simp⟩

/-- **One more.** The first binding of a further name can be added. -/
theorem FirstBindings.add (h : FirstBindings bindings used)
    (hb : lookUp bindings b.localName = some b) (hnew : b.localName ∉ used.map Binding.localName) :
    FirstBindings bindings (used ++ [b]) where
  nodup := by
    rw [List.map_append, List.map_singleton, ← List.concat_eq_append]
    exact h.nodup.concat hnew
  first := by
    intro c hc
    rcases List.mem_append.1 hc with hc | hc
    · exact h.first c hc
    · rw [List.mem_singleton.1 hc]
      exact hb

/-- A single binding is a first one if it is what its name stands for. -/
theorem firstBindings_toList {found : Option Binding}
    (h : ∀ b, found = some b → lookUp bindings b.localName = some b) :
    FirstBindings bindings found.toList := by
  cases found with
  | none => exact .nil
  | some b => exact FirstBindings.nil.add (h b rfl) (by simp)

/-! ### Tags and routes -/

/-- What is used with one binding more, if one was found and its name is not there already. -/
def addUsed (used : List Binding) (found : Option Binding) : List Binding :=
  match found with
  | some b => if used.any (fun u => u.localName == b.localName) then used else used ++ [b]
  | none => used

/-- One token adds the binding that it uses, if it uses one. -/
theorem markupUsageFrom_cons (bindings : List Binding) (token : Token) (rest : List Token)
    (used : List Binding) :
    markupUsageFrom bindings (token :: rest) used =
      markupUsageFrom bindings rest
        (addUsed used ((usedName (token :: rest)).bind (lookUp bindings))) := by
  rw [markupUsageFrom]
  rfl

/-- What a name is looked up to is recorded unless the name is there already. -/
theorem FirstBindings.record (h : FirstBindings bindings used) (named : Option String) :
    FirstBindings bindings (addUsed used (named.bind (lookUp bindings))) := by
  cases hb : named.bind (lookUp bindings) with
  | none => exact h
  | some b =>
    obtain ⟨name, -, hname⟩ := Option.bind_eq_some_iff.1 hb
    rw [addUsed]
    split
    · exact h
    next hnew =>
      refine h.add (lookUp_localName hname) ?_
      simpa using hnew

/-- What is there then is what was found, and what was there before. -/
theorem FirstBindings.mem_record (h : FirstBindings bindings used) (named : Option String) :
    b ∈ addUsed used (named.bind (lookUp bindings)) ↔
      b ∈ used ∨ named.bind (lookUp bindings) = some b := by
  cases hc : named.bind (lookUp bindings) with
  | none => simp [addUsed]
  | some c =>
    obtain ⟨name, -, hname⟩ := Option.bind_eq_some_iff.1 hc
    rw [addUsed, Option.some.injEq]
    split
    next hold =>
      -- The one that is there under the name is the first of that name, too.
      obtain ⟨d, hd, hdname⟩ := List.any_eq_true.1 hold
      have hlook := h.first d hd
      rw [beq_iff_eq.1 hdname, lookUp_localName hname, Option.some.injEq] at hlook
      subst hlook
      constructor
      · exact .inl
      · rintro (hb | rfl)
        · exact hb
        · exact hd
    next =>
      rw [List.mem_append, List.mem_singleton]
      exact or_congr_right eq_comm

/-- **Token by token.** The search for tags and routes adds first bindings of further names only. -/
theorem firstBindings_markupUsageFrom (tokens : List Token) :
    ∀ used, FirstBindings bindings used →
      FirstBindings bindings (markupUsageFrom bindings tokens used) := by
  induction tokens with
  | nil => exact fun used h => h
  | cons t rest ih =>
    intro used h
    rw [markupUsageFrom_cons]
    exact ih _ (h.record _)

/-- **Every token.** What the search finds are the bindings of the names that the tokens use. -/
theorem mem_markupUsageFrom_iff (tokens : List Token) :
    ∀ used, FirstBindings bindings used →
      (b ∈ markupUsageFrom bindings tokens used ↔
        b ∈ used ∨ ∃ token rest, token :: rest <:+ tokens ∧
          (usedName (token :: rest)).bind (lookUp bindings) = some b) := by
  induction tokens with
  | nil =>
    intro used h
    simp [markupUsageFrom]
  | cons t ts ih =>
    intro used h
    -- The first token is recorded, and what is used so far is passed on.
    rw [markupUsageFrom_cons, ih _ (h.record _), h.mem_record, or_assoc]
    apply or_congr_right
    constructor
    · rintro (hb | ⟨token, rest, hrest, hb⟩)
      · exact ⟨t, ts, List.suffix_rfl, hb⟩
      · exact ⟨token, rest, hrest.trans (List.suffix_cons t ts), hb⟩
    · rintro ⟨token, rest, hrest, hb⟩
      rcases List.suffix_cons_iff.1 hrest with heq | hrest
      · rw [heq] at hb
        exact .inl hb
      · exact .inr ⟨token, rest, hrest, hb⟩

/-! ### Wrapped exports -/

/-- An argument that is bound is bound by the first binding of its name. -/
theorem lookUp_of_boundArgument {call : Tree} (h : m.boundArgument bindings call = some b) :
    lookUp bindings b.localName = some b := by
  obtain ⟨arguments, -, harguments⟩ := Option.bind_eq_some_iff.1 h
  obtain ⟨name, -, hname⟩ := List.exists_of_findSome?_eq_some harguments
  exact lookUp_localName hname

mutual
/-- **Callee by callee.** What is found in a call and in the calls that are called in it is a first
binding. -/
theorem lookUp_of_boundInChain :
    (t : Tree) → m.boundInChain bindings t = some b → lookUp bindings b.localName = some b
  | .node kind role start stop children, h => by
    rw [Module.boundInChain] at h
    split at h
    · rcases Option.or_eq_some_iff.1 h with h | ⟨-, h⟩
      · exact lookUp_of_boundArgument h
      · exact lookUp_of_boundInCallee children h
    · cases h

theorem lookUp_of_boundInCallee :
    (ts : List Tree) → m.boundInCallee bindings ts = some b → lookUp bindings b.localName = some b
  | [], h => by
    rw [Module.boundInCallee] at h
    cases h
  | t :: ts, h => by
    rw [Module.boundInCallee] at h
    split at h
    · exact lookUp_of_boundInChain t h
    · exact lookUp_of_boundInCallee ts h
end

/-! ### All that a module renders -/

/-- **First bindings.** A module renders first bindings of different names. -/
theorem firstBindings_usedComponents (m : Module) (bindings : List Binding) (library : Text) :
    FirstBindings bindings (m.usedComponents bindings library) := by
  rw [Module.usedComponents]
  split
  · exact firstBindings_markupUsageFrom m.tokens [] .nil
  · apply firstBindings_toList
    intro b hb
    obtain ⟨call, -, hcall⟩ := Option.bind_eq_some_iff.1 hb
    exact lookUp_of_boundInChain call hcall

/-- A module that does not bind the name of the markup library renders one component at most. -/
theorem length_usedComponents_le (h : ∀ b ∈ bindings, Text.ofString b.localName ≠ library) :
    (m.usedComponents bindings library).length ≤ 1 := by
  have hmode : scanMode bindings library = .wrappedExport := by
    rw [scanMode, if_neg]
    simpa using h
  rw [Module.usedComponents, hmode]
  exact Option.length_toList_le

end RenderTree
