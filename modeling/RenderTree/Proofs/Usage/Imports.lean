import RenderTree.Imports
import RenderTree.Proofs.Source.InOrder
import Mathlib.Data.List.Forall2

/-!
# What imports bind, in order

The bindings of a module are those of its imports from code, as they stand in its text: a default
import, a namespace or a name in braces, under its alias if it has one, each with the specifier of
the statement that it is in. All other statements may come and go.

* `Unquoted`, `unquote_eq_iff` — a text without its quotes.
* `Module.ImportsFrom` — a statement imports from code, and from where.
* `PartBinds`, `Module.ImportedAt` — the names that imports bind, and where they stand.
* `inOrder_imports` — the bindings of a module are these, in order.
* `Module.Silent` — the statements that bind nothing.
* `Aligned`, `Aligned.flatMap_importsOf_eq` — to put such statements in or take them out changes
  nothing.
-/

namespace RenderTree

open RenderTree.Source

variable {m m' : Module} {statement clause part spec name t t' : Tree} {ts ts' : List Tree}
  {text value specifier : String} {q : Char} {b : Binding}

/-! ### Quotes -/

/-- The characters that strings are put in. -/
def IsQuote (q : Char) : Prop :=
  q = '\'' ∨ q = '\x22'

/-- A text in quotes. -/
def between (q : Char) (value : String) : String :=
  String.ofList (q :: (value.toList ++ [q]))

/-- What a text stands for: what is between its quotes, or the text itself if it is not in quotes.
-/
inductive Unquoted : (text value : String) → Prop where
  | quoted {q : Char} {value : String} (quote : IsQuote q) : Unquoted (between q value) value
  | plain {text : String} (plain : ∀ q value, IsQuote q → text ≠ between q value) :
      Unquoted text text

/-- Quotes around a value are taken off. -/
theorem unquote_between (hq : IsQuote q) : unquote (between q value) = value := by
  obtain ⟨c, cs, hcs⟩ := List.exists_cons_of_ne_nil (l := value.toList ++ [q]) (by simp)
  have hlast : (c :: cs).getLast? = some q := by rw [← hcs, List.getLast?_concat]
  have hquote : (q == '\'' || q == '\x22') = true := by simpa [IsQuote] using hq
  have hvalue : (c :: cs).dropLast = value.toList := by rw [← hcs, List.dropLast_concat]
  rw [unquote, between, String.toList_ofList, hcs]
  simp only [hquote, hlast, beq_self_eq_true, Bool.and_self, if_true]
  rw [hvalue, String.ofList_toList]

/-- A text that is not in quotes stands for itself. -/
theorem unquote_of_plain (h : ∀ q value, IsQuote q → text ≠ between q value) :
    unquote text = text := by
  rw [unquote]
  split
  next q c cs htext =>
    refine if_neg fun hcond => ?_
    rw [Bool.and_eq_true, beq_iff_eq] at hcond
    obtain ⟨hquote, hlast⟩ := hcond
    refine h q (String.ofList (c :: cs).dropLast) (by simpa [IsQuote] using hquote) ?_
    rw [← String.toList_inj, htext, between, String.toList_ofList, String.toList_ofList,
      List.dropLast_append_getLast? q hlast]
  next => rfl

/-- What is left of a text without its quotes. -/
theorem unquote_eq_iff : unquote text = value ↔ Unquoted text value := by
  constructor
  · rintro rfl
    by_cases h : ∀ q value, IsQuote q → text ≠ between q value
    · rw [unquote_of_plain h]
      exact .plain h
    · push Not at h
      obtain ⟨q, value, hq, rfl⟩ := h
      rw [unquote_between hq]
      exact .quoted hq
  · intro h
    cases h with
    | quoted quote => exact unquote_between quote
    | plain plain => exact unquote_of_plain plain

/-! ### Names -/

/-- The name that a specifier in braces binds: its alias if it has one, or else its own. -/
inductive LocalName (spec : Tree) : Tree → Prop where
  | renamed {name : Tree} (renamed : spec.child? .alias = some name) : LocalName spec name
  | own {name : Tree} (plain : spec.child? .alias = none) (own : spec.child? .name = some name) :
      LocalName spec name

/-- The local name of a specifier is its alias, or else its name. -/
theorem localName_iff :
    (spec.child? .alias).or (spec.child? .name) = some name ↔ LocalName spec name := by
  rw [Option.or_eq_some_iff]
  constructor
  · rintro (h | ⟨h, h'⟩)
    · exact .renamed h
    · exact .own h h'
  · intro h
    cases h with
    | renamed renamed => exact .inl renamed
    | own plain own => exact .inr ⟨plain, own⟩

/-- A part of an import clause binds a name, and where in the part this stands. -/
inductive PartBinds (part : Tree) : List Nat → Tree → Prop where
  | default (identifier : part.kind = .identifier) : PartBinds part [] part
  | whole {k : Nat} {name : Tree} (kind : part.kind = .namespaceImport)
      (child : part.children[k]? = some name) (identifier : name.kind = .identifier) :
      PartBinds part [k] name
  | named {k : Nat} {spec name : Tree} (kind : part.kind = .namedImports)
      (child : part.children[k]? = some spec) (childKind : spec.kind = .importSpecifier)
      (localName : LocalName spec name) (identifier : name.kind = .identifier) :
      PartBinds part [k] name

namespace Source.Module

/-- A statement imports from code: it has a specifier, which is neither empty nor that of an asset.
-/
structure ImportsFrom (m : Module) (statement : Tree) (specifier : String) : Prop where
  importing : statement.kind = .statement .importing
  source : ∃ source, statement.child? .source = some source ∧ Unquoted (m.textOf source) specifier
  nonempty : specifier ≠ ""
  code : isAsset specifier = false

/-- A binding stands in a module: the name is bound by a part of an import clause, and the specifier
is that of the statement. -/
inductive ImportedAt (m : Module) : List Nat → Binding → Prop where
  | intro {i j k : Nat} {rest : List Nat} {statement clause part name : Tree} {specifier : String}
      (atStatement : m.declarations[i]? = some statement)
      (imports : m.ImportsFrom statement specifier)
      (atClause : statement.children[j]? = some clause) (kind : clause.kind = .importClause)
      (atPart : clause.children[k]? = some part) (binds : PartBinds part rest name) :
      ImportedAt m (i :: j :: k :: rest) ⟨m.textOf name, specifier⟩

/-! ### Name by name -/

/-- The identifiers among some nodes are listed in their order. -/
theorem inOrder_identifiers (m : Module) (ts : List Tree) :
    InOrder (fun way s => ∃ k t, way = [k] ∧ ts[k]? = some t ∧ t.kind = .identifier ∧
        s = m.textOf t)
      (m.identifiers ts) := by
  rw [identifiers, List.map_eq_flatMap]
  refine (InOrder.flatMap_filter (P := fun t way s => way = [] ∧ s = m.textOf t)
    fun t => .single _).congr fun way s => ?_
  constructor
  · rintro ⟨k, t, rfl, ht, hkind, rfl⟩
    exact ⟨k, t, [], rfl, ht, beq_iff_eq.2 hkind, rfl, rfl⟩
  · rintro ⟨k, t, _, rfl, ht, hkind, rfl, rfl⟩
    exact ⟨k, t, rfl, ht, beq_iff_eq.1 hkind, rfl⟩

/-- A specifier in braces binds one name, if that is an identifier. -/
theorem inOrder_localName (m : Module) (spec : Tree) :
    InOrder (fun way s => way = [] ∧ ∃ name, LocalName spec name ∧ name.kind = .identifier ∧
        s = m.textOf name)
      (m.identifiers ((spec.child? .alias).or (spec.child? .name)).toList) := by
  -- Only a name that is an identifier is listed, and there is at most one name.
  have hlist : ∀ found : Option Tree, m.identifiers found.toList =
      ((found.filter (fun t => t.kind == .identifier)).map m.textOf).toList := by
    intro found
    cases found with
    | none => rfl
    | some t => by_cases h : t.kind = .identifier <;> simp [identifiers, Option.filter, h]
  rw [hlist]
  refine (InOrder.toList _).congr fun way s => and_congr_right' ?_
  simp only [Option.map_eq_some_iff, Option.filter_eq_some_iff, localName_iff, beq_iff_eq,
    and_assoc]
  constructor
  · rintro ⟨name, hname, hkind, rfl⟩
    exact ⟨name, hname, hkind, rfl⟩
  · rintro ⟨name, hname, hkind, rfl⟩
    exact ⟨name, hname, hkind, rfl⟩

/-- The names that a part of an import clause binds. -/
def partNames (m : Module) (part : Tree) : List String :=
  match part.kind with
  | .identifier => [m.textOf part]
  | .namespaceImport => m.identifiers part.children
  | .namedImports =>
    (part.children.filter (fun t => t.kind == .importSpecifier)).flatMap fun t =>
      m.identifiers ((t.child? .alias).or (t.child? .name)).toList
  | _ => []

/-- A clause binds the names that its parts bind. -/
theorem boundNames_eq (m : Module) (clause : Tree) :
    m.boundNames clause = clause.children.flatMap m.partNames :=
  rfl

/-- The names that a part of a clause binds are listed in their order. -/
theorem inOrder_partNames (m : Module) (part : Tree) :
    InOrder (fun way s => ∃ name, PartBinds part way name ∧ s = m.textOf name)
      (m.partNames part) := by
  rw [partNames]
  -- A part of one kind binds its names in one of the ways, and none in the others.
  split
  next hkind =>
    refine (InOrder.single _).congr fun way s => ?_
    constructor
    · rintro ⟨name, hbinds, rfl⟩
      cases hbinds with
      | default => exact ⟨rfl, rfl⟩
      | whole kind => exact absurd (hkind.symm.trans kind) (by decide)
      | named kind => exact absurd (hkind.symm.trans kind) (by decide)
    · rintro ⟨rfl, rfl⟩
      exact ⟨part, .default hkind, rfl⟩
  next hkind =>
    refine (m.inOrder_identifiers part.children).congr fun way s => ?_
    constructor
    · rintro ⟨name, hbinds, rfl⟩
      cases hbinds with
      | default identifier => exact absurd (hkind.symm.trans identifier) (by decide)
      | whole _ hname identifier => exact ⟨_, name, rfl, hname, identifier, rfl⟩
      | named kind => exact absurd (hkind.symm.trans kind) (by decide)
    · rintro ⟨k, name, rfl, hname, identifier, rfl⟩
      exact ⟨name, .whole hkind hname identifier, rfl⟩
  next hkind =>
    refine (InOrder.flatMap_filter fun spec => m.inOrder_localName spec).congr fun way s => ?_
    constructor
    · rintro ⟨name, hbinds, rfl⟩
      cases hbinds with
      | default identifier => exact absurd (hkind.symm.trans identifier) (by decide)
      | whole kind => exact absurd (hkind.symm.trans kind) (by decide)
      | @named k spec _ _ hspec kind' hname identifier =>
        exact ⟨k, spec, [], rfl, hspec, beq_iff_eq.2 kind', rfl, name, hname, identifier, rfl⟩
    · rintro ⟨k, spec, _, rfl, hspec, kind', rfl, name, hname, identifier, rfl⟩
      exact ⟨name, .named hkind hspec (beq_iff_eq.1 kind') hname identifier, rfl⟩
  next hidentifier hnamespace hnamed =>
    refine .nil fun way s => ?_
    rintro ⟨name, hbinds, -⟩
    cases hbinds with
    | default identifier => exact hidentifier identifier
    | whole kind => exact hnamespace kind
    | named kind => exact hnamed kind

/-- The names that a clause binds stand in the order of its parts. -/
theorem inOrder_boundNames (m : Module) (clause : Tree) :
    InOrder (fun way s => ∃ k part rest, way = k :: rest ∧ clause.children[k]? = some part ∧
        ∃ name, PartBinds part rest name ∧ s = m.textOf name)
      (m.boundNames clause) := by
  rw [boundNames_eq]
  exact .flatMap fun part _ => m.inOrder_partNames part

/-! ### Statement by statement -/

/-- The source of an import is what its string says. -/
theorem importSource_eq_some_iff : m.importSource statement = some specifier ↔
    ∃ source, statement.child? .source = some source ∧ Unquoted (m.textOf source) specifier := by
  simp only [importSource, Option.map_eq_some_iff, unquote_eq_iff]

/-- A statement imports from one source. -/
theorem ImportsFrom.unique {specifier' : String} (h : m.ImportsFrom statement specifier)
    (h' : m.ImportsFrom statement specifier') : specifier' = specifier := by
  have hsource := importSource_eq_some_iff.2 h.source
  rw [importSource_eq_some_iff.2 h'.source, Option.some.injEq] at hsource
  exact hsource

/-- A statement that imports from a source binds the names of its clauses to it. -/
theorem importsOf_of_importsFrom (h : m.ImportsFrom statement specifier) :
    m.importsOf statement =
      (statement.children.filter (fun t => t.kind == .importClause)).flatMap fun clause =>
        (m.boundNames clause).map (fun name => ⟨name, specifier⟩) := by
  rw [importsOf, if_pos (beq_iff_eq.2 h.importing), importSource_eq_some_iff.2 h.source]
  exact if_neg (by simp [h.nonempty, h.code])

/-- A statement that does not import from a source binds nothing. -/
theorem importsOf_eq_nil (h : ∀ specifier, ¬ m.ImportsFrom statement specifier) :
    m.importsOf statement = [] := by
  rw [importsOf]
  split
  next hkind =>
    cases hsource : m.importSource statement with
    | none => rfl
    | some specifier =>
      refine if_pos ?_
      by_contra hcode
      rw [Bool.or_eq_true, beq_iff_eq, not_or, Bool.not_eq_true] at hcode
      exact h specifier
        ⟨beq_iff_eq.1 hkind, importSource_eq_some_iff.1 hsource, hcode.1, hcode.2⟩
  next => rfl

/-- What a statement imports from code stands in the order of its clauses. -/
theorem inOrder_importsOf (m : Module) (statement : Tree) :
    InOrder (fun way b => ∃ j clause rest, way = j :: rest ∧ statement.children[j]? = some clause ∧
        clause.kind = .importClause ∧ m.ImportsFrom statement b.specifier ∧
        ∃ k part rest', rest = k :: rest' ∧ clause.children[k]? = some part ∧
          ∃ name, PartBinds part rest' name ∧ b.localName = m.textOf name)
      (m.importsOf statement) := by
  by_cases h : ∃ specifier, m.ImportsFrom statement specifier
  · obtain ⟨specifier, h⟩ := h
    rw [importsOf_of_importsFrom h]
    refine (InOrder.flatMap_filter fun clause => (m.inOrder_boundNames clause).map _).congr
      fun way b => ?_
    constructor
    · rintro ⟨j, clause, rest, rfl, hclause, kind, himports, hpart⟩
      -- The statement has no other specifier.
      obtain ⟨localName, specifier'⟩ := b
      have heq : specifier' = specifier := h.unique himports
      subst heq
      exact ⟨j, clause, rest, rfl, hclause, beq_iff_eq.2 kind, localName, hpart, rfl⟩
    · rintro ⟨j, clause, rest, rfl, hclause, kind, localName, hpart, rfl⟩
      exact ⟨j, clause, rest, rfl, hclause, beq_iff_eq.1 kind, h, hpart⟩
  · have hnone : ∀ specifier, ¬ m.ImportsFrom statement specifier :=
      fun specifier himports => h ⟨specifier, himports⟩
    rw [importsOf_eq_nil hnone]
    refine .nil fun way b => ?_
    rintro ⟨j, clause, rest, -, -, -, himports, -⟩
    exact hnone _ himports

/-- **Source order.** The bindings of a module are what its imports from code bind, in order. -/
theorem inOrder_imports (m : Module) : InOrder m.ImportedAt m.imports := by
  refine (InOrder.flatMap fun statement _ => m.inOrder_importsOf statement).congr fun way b => ?_
  constructor
  · rintro ⟨hstatement, himports, hclause, kind, hpart, hbinds⟩
    exact ⟨_, _, _, rfl, hstatement, _, _, _, rfl, hclause, kind, himports, _, _, _, rfl, hpart, _,
      hbinds, rfl⟩
  · obtain ⟨localName, specifier⟩ := b
    rintro ⟨i, statement, _, rfl, hstatement, j, clause, _, rfl, hclause, kind, himports, k, part,
      rest, rfl, hpart, name, hbinds, rfl⟩
    exact .intro hstatement himports hclause kind hpart hbinds

/-! ### Statements that bind nothing -/

/-- Why a statement binds nothing, wherever it stands. -/
inductive Silent (m : Module) (statement : Tree) : Prop where
  | other (kind : statement.kind ≠ .statement .importing)
  | sideEffect (clauseless : ∀ t ∈ statement.children, t.kind ≠ .importClause)
  | sourceless (sourceless : statement.child? .source = none)
  | empty {source : Tree} (child : statement.child? .source = some source)
      (empty : Unquoted (m.textOf source) "")
  | asset {source : Tree} {specifier : String} (child : statement.child? .source = some source)
      (unquoted : Unquoted (m.textOf source) specifier) (asset : isAsset specifier = true)

/-- The source is what the string of the statement says. -/
theorem ImportsFrom.specifier_eq {source : Tree} {specifier' : String}
    (h : m.ImportsFrom statement specifier) (hsource : statement.child? .source = some source)
    (hunquoted : Unquoted (m.textOf source) specifier') : specifier' = specifier := by
  have hspecifier := importSource_eq_some_iff.2 h.source
  rw [importSource_eq_some_iff.2 ⟨source, hsource, hunquoted⟩, Option.some.injEq] at hspecifier
  exact hspecifier

/-- A silent statement binds nothing. -/
theorem Silent.importsOf_eq (h : m.Silent statement) : m.importsOf statement = [] := by
  refine ((m.inOrder_importsOf statement).unique (.nil fun way b => ?_)).symm
  rintro ⟨j, clause, rest, -, hclause, kind, himports, -⟩
  cases h with
  | other hkind => exact hkind himports.importing
  | sideEffect clauseless => exact clauseless clause (List.mem_of_getElem? hclause) kind
  | sourceless sourceless =>
    obtain ⟨source, hsource, -⟩ := himports.source
    rw [sourceless] at hsource
    cases hsource
  | empty child empty => exact himports.nonempty (himports.specifier_eq child empty).symm
  | asset child unquoted asset =>
    have hcode := himports.code
    rw [← himports.specifier_eq child unquoted, asset] at hcode
    cases hcode

end Source.Module

/-! ### Statements that come and go -/

/-- Two trees of two modules are alike: the same parts with the same texts, wherever they stand. -/
inductive Alike (m m' : Module) : Tree → Tree → Prop where
  | node {kind : Kind} {role : Role} {start stop start' stop' : Nat} {ts ts' : List Tree}
      (text : m'.textOf (.node kind role start' stop' ts') =
        m.textOf (.node kind role start stop ts))
      (children : List.Forall₂ (Alike m m') ts ts') :
      Alike m m' (.node kind role start stop ts) (.node kind role start' stop' ts')

/-- The statements of a module are those of another one, less statements that bind nothing there,
and with statements among them that bind nothing here. -/
inductive Aligned (m m' : Module) : List Tree → List Tree → Prop where
  | nil : Aligned m m' [] []
  | both {t t' : Tree} {ts ts' : List Tree} (alike : Alike m m' t t') (rest : Aligned m m' ts ts') :
      Aligned m m' (t :: ts) (t' :: ts')
  | deleted {t : Tree} {ts ts' : List Tree} (silent : m.Silent t) (rest : Aligned m m' ts ts') :
      Aligned m m' (t :: ts) ts'
  | inserted {t' : Tree} {ts ts' : List Tree} (silent : m'.Silent t') (rest : Aligned m m' ts ts') :
      Aligned m m' ts (t' :: ts')

/-- Nodes that are alike are of one kind. -/
theorem Alike.kind_eq (h : Alike m m' t t') : t'.kind = t.kind := by
  cases h
  rfl

/-- Nodes that are alike have one role. -/
theorem Alike.role_eq (h : Alike m m' t t') : t'.role = t.role := by
  cases h
  rfl

/-- Nodes that are alike have one text. -/
theorem Alike.text_eq (h : Alike m m' t t') : m'.textOf t' = m.textOf t := by
  cases h with
  | node text children => exact text

/-- The parts of nodes that are alike are so in pairs. -/
theorem Alike.children (h : Alike m m' t t') :
    List.Forall₂ (Alike m m') t.children t'.children := by
  cases h with
  | node text children => exact children

/-- Lists that are related in pairs yield the same if related items do. -/
theorem flatMap_eq_of_forall₂ {α β γ : Type} {R : α → β → Prop} {xs : List α} {ys : List β}
    {f : α → List γ} {g : β → List γ} (h : List.Forall₂ R xs ys)
    (hfg : ∀ x y, R x y → g y = f x) : ys.flatMap g = xs.flatMap f := by
  induction h with
  | nil => rfl
  | cons hxy _ ih => rw [List.flatMap_cons, List.flatMap_cons, hfg _ _ hxy, ih]

/-- The trees of one kind among others are alike if all are. -/
theorem filter_alike (h : List.Forall₂ (Alike m m') ts ts') (kind : Kind) :
    List.Forall₂ (Alike m m') (ts.filter (fun t => t.kind == kind))
      (ts'.filter (fun t => t.kind == kind)) := by
  refine List.rel_filter (fun t t' ht => ?_) h
  show (t.kind == kind) = true ↔ (t'.kind == kind) = true
  rw [ht.kind_eq]

/-- Trees that are alike have children that are alike in the same roles. -/
theorem child?_alike (h : Alike m m' t t') (role : Role) :
    (t.child? role = none ∧ t'.child? role = none) ∨
      ∃ u u', t.child? role = some u ∧ t'.child? role = some u' ∧ Alike m m' u u' := by
  have hchildren := h.children
  rw [Tree.child?, Tree.child?]
  generalize t.children = ts, t'.children = ts' at hchildren
  induction hchildren with
  | nil => exact .inl ⟨rfl, rfl⟩
  | @cons u u' _ _ hu _ ih =>
    rw [List.find?_cons, List.find?_cons, hu.role_eq]
    split
    · exact .inr ⟨u, u', rfl, rfl, hu⟩
    · exact ih

/-- Nodes that are alike in pairs have the same identifiers. -/
theorem identifiers_alike (h : List.Forall₂ (Alike m m') ts ts') :
    m'.identifiers ts' = m.identifiers ts := by
  rw [Module.identifiers, Module.identifiers, List.map_eq_flatMap, List.map_eq_flatMap]
  exact flatMap_eq_of_forall₂ (filter_alike h .identifier) fun t t' ht => by rw [ht.text_eq]

/-- Specifiers that are alike have local names that are alike. -/
theorem localName_alike (h : Alike m m' t t') :
    List.Forall₂ (Alike m m') ((t.child? .alias).or (t.child? .name)).toList
      ((t'.child? .alias).or (t'.child? .name)).toList := by
  rcases child?_alike h .alias with ⟨hnone, hnone'⟩ | ⟨u, u', hu, hu', halike⟩
  · rw [hnone, hnone', Option.none_or, Option.none_or]
    rcases child?_alike h .name with ⟨hnone, hnone'⟩ | ⟨u, u', hu, hu', halike⟩
    · rw [hnone, hnone']
      exact .nil
    · rw [hu, hu']
      exact .cons halike .nil
  · rw [hu, hu', Option.some_or, Option.some_or]
    exact .cons halike .nil

/-- Parts of clauses that are alike bind the same names. -/
theorem partNames_alike (h : Alike m m' t t') : m'.partNames t' = m.partNames t := by
  rw [Module.partNames, Module.partNames, h.kind_eq]
  split
  · rw [h.text_eq]
  · exact identifiers_alike h.children
  · exact flatMap_eq_of_forall₂ (filter_alike h.children .importSpecifier)
      fun _ _ hspec => identifiers_alike (localName_alike hspec)
  · rfl

/-- Statements that are alike import from one source. -/
theorem importSource_alike (h : Alike m m' t t') : m'.importSource t' = m.importSource t := by
  rw [Module.importSource, Module.importSource]
  rcases child?_alike h .source with ⟨hnone, hnone'⟩ | ⟨u, u', hu, hu', halike⟩
  · rw [hnone, hnone']
    rfl
  · rw [hu, hu', Option.map_some, Option.map_some, halike.text_eq]

/-- Statements that are alike bind the same. -/
theorem importsOf_alike (h : Alike m m' t t') : m'.importsOf t' = m.importsOf t := by
  rw [Module.importsOf, Module.importsOf, h.kind_eq, importSource_alike h]
  split
  · split
    · split
      · rfl
      · refine flatMap_eq_of_forall₂ (filter_alike h.children .importClause) ?_
        intro clause clause' hclause
        rw [Module.boundNames_eq, Module.boundNames_eq,
          flatMap_eq_of_forall₂ hclause.children fun _ _ => partNames_alike]
    · rfl
  · rfl

/-- **Coming and going.** Statements that bind nothing may be put in and taken out anywhere. -/
theorem Aligned.flatMap_importsOf_eq (h : Aligned m m' ts ts') :
    ts'.flatMap m'.importsOf = ts.flatMap m.importsOf := by
  induction h with
  | nil => rw [List.flatMap_nil, List.flatMap_nil]
  | both alike _ ih => rw [List.flatMap_cons, List.flatMap_cons, importsOf_alike alike, ih]
  | deleted silent _ ih => rw [List.flatMap_cons, silent.importsOf_eq, List.nil_append, ih]
  | inserted silent _ ih => rw [List.flatMap_cons, silent.importsOf_eq, List.nil_append, ih]

/-- **What imports bind.** The bindings of a module are those that its imports from code bind, one
for each name, in the order in which the names stand in the module. They stay the same when
statements that bind nothing are put in or taken out anywhere. -/
theorem imports_eq_iff (m : Module) :
    (∀ bs, m.imports = bs ↔ InOrder m.ImportedAt bs) ∧
      ∀ m', Aligned m m' m.declarations m'.declarations → m'.imports = m.imports := by
  refine ⟨fun bs => ?_, fun m' => Aligned.flatMap_importsOf_eq⟩
  constructor
  · rintro rfl
    exact m.inOrder_imports
  · intro h
    exact h.unique m.inOrder_imports

/-- All forms of clauses, and an import that has none. -/
example : (parse ("import A, \x7b b as c, d \x7d from './a';import './a.css';"
    ++ "import * as e from \x22./e\x22")).toOption.map Module.imports =
      some [⟨"A", "./a"⟩, ⟨"c", "./a"⟩, ⟨"d", "./a"⟩, ⟨"e", "./e"⟩] := by
  decide +kernel

/-! ### Two modules with one import -/

/-- The tree of an import that begins at an offset. -/
def importAt (start : Nat) : Tree :=
  .node (.statement .importing) .plain start (start + 19)
    [.leaf (.sign "import") start (start + 6),
      .node .importClause .plain (start + 7) (start + 8)
        [.leaf .identifier (start + 7) (start + 8)],
      .leaf (.sign "from") (start + 9) (start + 13),
      .node .string .source (start + 14) (start + 19) []]

/-- A module that calls a function and imports something. -/
def callingModule : Module :=
  ⟨"f();import A from './a'".toList.toArray, .script, .node .program .plain 0 23
    [.node (.statement .expression) .plain 0 4 [.leaf .call 0 3, .leaf (.sign ";") 3 4],
      importAt 4]⟩

/-- A module that imports the same, behind a style sheet. -/
def stylishModule : Module :=
  ⟨"import './a.css';import A from './a'".toList.toArray, .script, .node .program .plain 0 36
    [.node (.statement .importing) .plain 0 17 [.leaf (.sign "import") 0 6,
      .node .string .source 7 16 [], .leaf (.sign ";") 16 17], importAt 17]⟩

/-- The import is the same in both modules. -/
theorem importAt_alike :
    Alike callingModule stylishModule (importAt 4) (importAt 17) :=
  .node (by decide +kernel) (.cons (.node (by decide +kernel) .nil) (.cons
    (.node (by decide +kernel) (.cons (.node (by decide +kernel) .nil) .nil))
    (.cons (.node (by decide +kernel) .nil) (.cons (.node (by decide +kernel) .nil) .nil))))

/-- To put a style sheet in place of the call leaves the bindings as they are. -/
theorem stylishModule_imports :
    Aligned callingModule stylishModule callingModule.declarations stylishModule.declarations ∧
      stylishModule.imports = callingModule.imports ∧ stylishModule.imports = [⟨"A", "./a"⟩] := by
  have haligned :
      Aligned callingModule stylishModule callingModule.declarations stylishModule.declarations :=
    .deleted (.other (by decide)) (.inserted (.sideEffect (by decide)) (.both importAt_alike .nil))
  exact ⟨haligned, (imports_eq_iff callingModule).2 stylishModule haligned, by decide +kernel⟩

end RenderTree
