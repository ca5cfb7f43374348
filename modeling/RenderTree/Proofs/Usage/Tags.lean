import RenderTree.Proofs.Source.Leaves
import RenderTree.Proofs.Usage.FirstBinding

/-!
# Names of tags

The scan for rendered components sees tokens only, and takes the token behind the opening bracket of a
tag for the name of that tag. In the tree the name is a leaf of the tag itself. The two agree: what
the scan records at opening brackets are the names of the tags that are read.

* `Source.Tree.IsOpened`, `Source.Tree.Names` — what stands behind the opening bracket of a node.
* `RecordedAt` — a token of a class records a name.
* `mem_markupUsage_iff` — what is used are the first bindings of the recorded names.
* `tagOpen_leaves_iff` — where an opening bracket and a name are next to each other among leaves.
* `markupUsage_tags` — the names of tags are recorded, and no others at opening brackets.
-/

namespace RenderTree

open RenderTree.Source

variable {bindings used : List Binding} {tokens rest : List Token} {token : Token} {n : String}
  {b : Binding} {text : Array Char} {k : Kind} {parent : Option Kind} {t u : Tree}

/-! ### Classes of leaves -/

namespace Source

/-- Nodes that are read as a name. -/
def Kind.isName : Kind → Bool
  | identifier | propertyName => true
  | _ => false

/-- A token is a name if its kind is one of names. -/
theorem Kind.tokenKind_eq_name_iff : k.tokenKind parent = .name ↔ k.isName = true := by
  cases k <;> simp [Kind.tokenKind, Kind.isName]
  split <;> simp

namespace Tree

/-- Whether a node is an opening bracket. -/
def isBracket (t : Tree) : Bool :=
  t.kind == .sign "<" && t.children.isEmpty

/-- What counts as an opening bracket. -/
theorem isBracket_iff : t.isBracket = true ↔ t.kind = .sign "<" ∧ t.isToken = true := by
  rw [isBracket, isToken, Bool.and_eq_true, beq_iff_eq]
  constructor
  · rintro ⟨hk, hc⟩
    exact ⟨hk, by simp [hc]⟩
  · rintro ⟨hk, hc⟩
    refine ⟨hk, ?_⟩
    simpa [hk, Kind.isAtomic] using hc

/-- Whatever opening bracket a node has as a part, there is a leaf behind it in that node. The parser
gives a tag one bracket, the first of its parts but for comments: then this asks for a leaf behind that
one, which is the first of the name, or the closing bracket. A tag with more of them is asked the same
of each, since the token behind a bracket that ends a tag is not of that tag. -/
def IsOpened (u : Tree) : Prop :=
  ∀ bracket rest, bracket :: rest <:+ u.children → bracket.isBracket = true →
    ∃ leaf, firstLeafOf? rest = some leaf

/-- Every end of the list of parts can be asked in turn. -/
theorem isOpened_iff :
    u.IsOpened ↔ ∀ parts ∈ u.children.tails, parts.head?.any isBracket = true →
      (firstLeafOf? parts.tail).isSome = true := by
  simp only [List.mem_tails, Option.isSome_iff_exists]
  constructor
  · intro h parts hparts hbracket
    cases parts with
    | nil => simp at hbracket
    | cons bracket rest => exact h bracket rest hparts (by simpa using hbracket)
  · intro h bracket rest hparts hbracket
    exact h (bracket :: rest) hparts (by simpa using hbracket)

instance (u : Tree) : Decidable u.IsOpened :=
  decidable_of_iff _ isOpened_iff.symm

/-- A name is the first leaf behind an opening bracket that a node has as a part. -/
def Names (text : Array Char) (u : Tree) (n : String) : Prop :=
  ∃ bracket rest leaf, bracket :: rest <:+ u.children ∧ bracket.isBracket = true ∧
    firstLeafOf? rest = some leaf ∧ leaf.kind.isName = true ∧ slice text leaf.start leaf.stop = n

end Tree

end Source

/-! ### What is recorded -/

/-- A token of a class records a name: the name is used where that token stands, and it is bound. -/
def RecordedAt (kind : TokenKind) (bindings : List Binding) (tokens : List Token) (n : String) :
    Prop :=
  ∃ token rest, token :: rest <:+ tokens ∧ token.kind = kind ∧
    usedName (token :: rest) = some n ∧ (lookUp bindings n).isSome

/-- What opens a tag uses the name behind it. -/
theorem usedName_tagOpen (h : token.kind = .tagOpen) :
    usedName (token :: rest) = some n ↔
      ∃ next more, rest = next :: more ∧ next.kind = .name ∧ next.value = n := by
  cases rest with
  | nil => simp [usedName, h]
  | cons next more =>
    by_cases hnext : next.kind = .name <;> simp [usedName, h, hnext]

/-- A name is used at opening brackets and at names only. -/
theorem kind_of_usedName (h : usedName (token :: rest) = some n) :
    token.kind = .tagOpen ∨ token.kind = .name := by
  unfold usedName at h
  simp only at h
  split at h
  next hopen => exact .inl (by simpa using hopen)
  next =>
    split at h
    next hname =>
      rw [Bool.and_eq_true, beq_iff_eq] at hname
      exact .inr hname.1
    next => cases h

/-- A name is bound if some binding has it. -/
theorem isSome_lookUp_iff : (lookUp bindings n).isSome ↔ ∃ b ∈ bindings, b.localName = n := by
  simp [lookUp]

/-- **What is used.** The bindings that are found are the first ones of the names that are recorded, at
opening brackets and at names. -/
theorem mem_markupUsage_iff :
    b ∈ markupUsage tokens bindings ↔
      lookUp bindings b.localName = some b ∧
        (RecordedAt .tagOpen bindings tokens b.localName ∨
          RecordedAt .name bindings tokens b.localName) := by
  rw [markupUsage, mem_markupUsageFrom_iff tokens [] .nil]
  constructor
  · rintro (hb | ⟨token, rest, hsuffix, hb⟩)
    · cases hb
    · obtain ⟨n, hused, hlook⟩ := Option.bind_eq_some_iff.1 hb
      have hname := localName_of_lookUp hlook
      subst hname
      refine ⟨hlook, ?_⟩
      -- Only two kinds of tokens use a name.
      rcases kind_of_usedName hused with hkind | hkind
      · exact .inl ⟨token, rest, hsuffix, hkind, hused, by simp [hlook]⟩
      · exact .inr ⟨token, rest, hsuffix, hkind, hused, by simp [hlook]⟩
  · rintro ⟨hlook, ⟨token, rest, hsuffix, -, hused, -⟩ | ⟨token, rest, hsuffix, -, hused, -⟩⟩
    · exact .inr ⟨token, rest, hsuffix, by rw [hused]; exact hlook⟩
    · exact .inr ⟨token, rest, hsuffix, by rw [hused]; exact hlook⟩

/-! ### Brackets and names -/

/-- A suffix of the tokens of a tree is a suffix of its leaves. -/
theorem suffix_tokens_iff :
    token :: rest <:+ t.tokens text ↔
      ∃ pre leaf parent post, Tree.leaves none t = pre ++ (leaf, parent) :: post ∧
        token = leaf.token text parent ∧ rest = post.map (fun x => x.1.token text x.2) := by
  rw [Tree.tokens_eq]
  constructor
  · rintro ⟨before, h⟩
    obtain ⟨pre, xs, hleaves, -, hxs⟩ := List.append_eq_map_iff.1 h
    obtain ⟨⟨leaf, parent⟩, post, rfl, rfl, rfl⟩ := List.map_eq_cons_iff.1 hxs
    exact ⟨pre, leaf, parent, post, hleaves, rfl, rfl⟩
  · rintro ⟨pre, leaf, parent, post, hleaves, rfl, rfl⟩
    rw [hleaves, List.map_append, List.map_cons]
    exact List.suffix_append _ _

/-- A name that is used at an opening bracket is that of the tag whose bracket it is. -/
theorem names_of_tagOpen (h : ∀ u ∈ t.visible, u.kind.isTag = true → u.IsOpened)
    (hsuffix : token :: rest <:+ t.tokens text) (hkind : token.kind = .tagOpen)
    (hused : usedName (token :: rest) = some n) :
    ∃ u ∈ t.visible, u.kind.isTag = true ∧ u.Names text n := by
  obtain ⟨pre, bracket, parent, post, hleaves, rfl, rfl⟩ := suffix_tokens_iff.1 hsuffix
  obtain ⟨hsign, htag⟩ := Kind.tokenKind_eq_tagOpen_iff.1 hkind
  obtain ⟨next, more, hnext, hname, hvalue⟩ := (usedName_tagOpen hkind).1 hused
  rcases Tree.leaves_split t none pre post hleaves with ⟨-, rfl, -⟩ | hpart
  · -- Nothing is the parent of the whole tree.
    cases htag
  · obtain ⟨u, hu, rfl, later, hlater, hprefix⟩ := hpart
    have hmem : (bracket, some u.kind) ∈ Tree.leaves none t := by simp [hleaves]
    have hbracket := Tree.isBracket_iff.2 ⟨hsign, Tree.isToken_of_mem_leaves t none hmem⟩
    obtain ⟨leaf, hleaf⟩ := h u hu htag bracket later hlater hbracket
    -- The leaf that stands next is a part of the tag, so the next token is read from it.
    obtain ⟨q, others, hothers⟩ := Tree.exists_leavesOf_cons hleaf (some u.kind)
    rw [hothers] at hprefix
    obtain ⟨behind, rfl⟩ := hprefix
    simp only [List.cons_append, List.map_cons, List.cons.injEq] at hnext
    obtain ⟨rfl, -⟩ := hnext
    exact ⟨u, hu, htag, bracket, later, leaf, hlater, hbracket, hleaf,
      Kind.tokenKind_eq_name_iff.1 hname, hvalue⟩

/-- The name of a tag that is read is used at an opening bracket. -/
theorem exists_tagOpen_of_names (hu : u ∈ t.visible) (htag : u.kind.isTag = true)
    (hnames : u.Names text n) :
    ∃ token rest, token :: rest <:+ t.tokens text ∧ token.kind = .tagOpen ∧
      usedName (token :: rest) = some n := by
  obtain ⟨bracket, later, leaf, hlater, hbracket, hleaf, hname, hvalue⟩ := hnames
  obtain ⟨hsign, htoken⟩ := Tree.isBracket_iff.1 hbracket
  have hinner : u.kind.isAtomic = false := by
    cases hk : u.kind <;> simp [hk, Kind.isTag, Kind.isAtomic] at htag ⊢
  obtain ⟨pre, post, hleaves⟩ :=
    Tree.exists_leaves_split none hu hlater (by simp [hsign]) htoken hinner
  obtain ⟨q, others, hothers⟩ := Tree.exists_leavesOf_cons hleaf (some u.kind)
  rw [hothers] at hleaves
  have hkind : (bracket.token text (some u.kind)).kind = .tagOpen :=
    Kind.tokenKind_eq_tagOpen_iff.2 ⟨hsign, htag⟩
  refine ⟨_, _, suffix_tokens_iff.2 ⟨pre, bracket, _, _, hleaves, rfl, rfl⟩, hkind, ?_⟩
  rw [usedName_tagOpen hkind]
  exact ⟨leaf.token text q, _, rfl, Kind.tokenKind_eq_name_iff.2 hname, hvalue⟩

/-- **Tags.** In a tree whose tags are opened, the names that the scan records at opening brackets are
the bound names of the tags that are read. What it finds are the first bindings of these names, and
those of names that are recorded at the attribute of a route. -/
theorem markupUsage_tags (text : Array Char) (t : Tree) (bindings : List Binding)
    (h : ∀ u ∈ t.visible, u.kind.isTag = true → u.IsOpened) :
    (∀ n, RecordedAt .tagOpen bindings (t.tokens text) n ↔
      (∃ b ∈ bindings, b.localName = n) ∧ ∃ u ∈ t.visible, u.kind.isTag = true ∧ u.Names text n) ∧
    ∀ b, b ∈ markupUsage (t.tokens text) bindings ↔
      lookUp bindings b.localName = some b ∧
        ((∃ u ∈ t.visible, u.kind.isTag = true ∧ u.Names text b.localName) ∨
          RecordedAt .name bindings (t.tokens text) b.localName) := by
  have hrecorded : ∀ n, RecordedAt .tagOpen bindings (t.tokens text) n ↔
      (∃ b ∈ bindings, b.localName = n) ∧
        ∃ u ∈ t.visible, u.kind.isTag = true ∧ u.Names text n := by
    intro n
    -- A token opens a tag exactly where the tree has one.
    constructor
    · rintro ⟨token, rest, hsuffix, hkind, hused, hbound⟩
      exact ⟨isSome_lookUp_iff.1 hbound, names_of_tagOpen h hsuffix hkind hused⟩
    · rintro ⟨hbound, u, hu, htag, hnames⟩
      obtain ⟨token, rest, hsuffix, hkind, hused⟩ := exists_tagOpen_of_names hu htag hnames
      exact ⟨token, rest, hsuffix, hkind, hused, isSome_lookUp_iff.2 hbound⟩
  refine ⟨hrecorded, fun b => ?_⟩
  rw [mem_markupUsage_iff, hrecorded]
  constructor
  · rintro ⟨hlook, ⟨-, htags⟩ | hroute⟩
    · exact ⟨hlook, .inl htags⟩
    · exact ⟨hlook, .inr hroute⟩
  · rintro ⟨hlook, htags | hroute⟩
    · exact ⟨hlook, .inl ⟨⟨b, mem_of_lookUp hlook, rfl⟩, htags⟩⟩
    · exact ⟨hlook, .inr hroute⟩

/-- A module with a comment in a tag, a tag of a member, tags in an attribute and between tags, a
comparison, and what looks like a tag in a template. -/
def nestedTags : String :=
  "a = </* c */A.B c=\x7b<D/>\x7d>\x7bx < y\x7d<></>\x7b\x60<E/>\x60\x7d</A.B>"

/-- The text is parsed, and all of its tags are opened. -/
theorem nestedTags_parse :
    ∃ m, parse nestedTags = .ok m ∧ ∀ u ∈ m.root.visible, u.kind.isTag = true → u.IsOpened := by
  have hopened : (parse nestedTags).toOption.any (fun m =>
      decide (∀ u ∈ m.root.visible, u.kind.isTag = true → u.IsOpened)) = true := by
    decide +kernel
  cases hm : parse nestedTags with
  | error e => simp [hm, Except.toOption] at hopened
  | ok m => exact ⟨m, rfl, by simpa [hm, Except.toOption] using hopened⟩

/-- What is recorded at the opening brackets of that module are the names of its tags. -/
theorem nestedTags_markupUsage :
    ∃ m, parse nestedTags = .ok m ∧
      (∀ u ∈ m.root.visible, u.kind.isTag = true → u.IsOpened) ∧
        ∀ n, RecordedAt .tagOpen [⟨"A", "./A"⟩, ⟨"D", "./D"⟩, ⟨"E", "./E"⟩] m.tokens n ↔
          (∃ b ∈ [(⟨"A", "./A"⟩ : Binding), ⟨"D", "./D"⟩, ⟨"E", "./E"⟩], b.localName = n) ∧
            ∃ u ∈ m.root.visible, u.kind.isTag = true ∧ u.Names m.text n := by
  obtain ⟨m, hm, hopened⟩ := nestedTags_parse
  exact ⟨m, hm, hopened, (markupUsage_tags m.text m.root _ hopened).1⟩

end RenderTree
