import RenderTree.Proofs.Usage.FirstBinding
import Mathlib.Data.Nat.Find

/-!
# In the order of first use

A name can be used at many positions of a token list, by both rules, and the positions that the
rules look at can overlap or lie behind the end of the list. The scan goes from position to
position, and after each it has found what is used up to there, in the order of the first uses.

* `UsesAt`, `FirstUse` — a position uses a name, and is the first to do so.
* `usedName_drop_iff` — the rules of the scan, position by position.
* `UsedBefore` — what is found in front of a position, and `UsedBefore.step`: what one more adds.
* `usedBefore_markupUsageFrom` — what is found in the end.
* `readUsage` — the scan with every token read by its position, which can fail.
* `markupUsage_firstUses` — what the scan finds, in which order, and that it reads nothing else.
-/

namespace RenderTree

open RenderTree.Source

variable {tokens rest : List Token} {bindings used : List Binding} {b : Binding} {n : String}
  {i p : Nat}

/-! ### Uses -/

/-- A name stands at a position of a token list. -/
def NameAt (tokens : List Token) (i : Nat) (n : String) : Prop :=
  ∃ t, tokens[i]? = some t ∧ t.kind = .name ∧ t.value = n

/-- A position of a token list uses a name: there is an opening bracket and the name stands next to
it, or there is the route attribute and the name stands three tokens behind. -/
def UsesAt (tokens : List Token) (i : Nat) (n : String) : Prop :=
  (∃ t, tokens[i]? = some t ∧ t.kind = .tagOpen) ∧ NameAt tokens (i + 1) n ∨
    NameAt tokens i routeAttribute ∧ NameAt tokens (i + 3) n

/-- A position is the first that uses a name. -/
def FirstUse (tokens : List Token) (n : String) (i : Nat) : Prop :=
  UsesAt tokens i n ∧ ∀ j < i, ¬ UsesAt tokens j n

/-- A name is within the list. -/
theorem NameAt.lt_length (h : NameAt tokens i n) : i < tokens.length := by
  obtain ⟨t, ht, -⟩ := h
  exact (List.getElem?_eq_some_iff.1 ht).1

/-- A position that uses a name is one of the list, and so is that of the name. -/
theorem UsesAt.lt_length (h : UsesAt tokens i n) : i + 1 < tokens.length := by
  rcases h with ⟨-, h⟩ | ⟨-, h⟩
  · exact h.lt_length
  · exact Nat.lt_of_le_of_lt (by omega) h.lt_length

/-- A name that is used has a first use. -/
theorem UsesAt.exists_firstUse (h : UsesAt tokens i n) : ∃ j ≤ i, FirstUse tokens n j := by
  classical
  have hex : ∃ j, UsesAt tokens j n := ⟨i, h⟩
  exact ⟨Nat.find hex, Nat.find_min' hex h, Nat.find_spec hex, fun _ => Nat.find_min hex⟩

/-- The name of a token that has to be a name, if there is such a token. -/
def nameOf? : Option Token → Option String
  | some u => if u.kind == .name then some u.value else none
  | none => none

/-- The name of a token is the name at its place. -/
theorem nameOf?_eq_some_iff : nameOf? tokens[i]? = some n ↔ NameAt tokens i n := by
  cases h : tokens[i]? <;> simp [nameOf?, NameAt, h]

/-- The name that is used at the head of a token list, by the kind of the head. -/
theorem usedName_cons (t : Token) (rest : List Token) :
    usedName (t :: rest) =
      if t.kind == .tagOpen then nameOf? rest[0]?
      else if t.kind == .name && t.value == routeAttribute then nameOf? rest[2]? else none := by
  rw [← List.head?_eq_getElem?]
  rfl

/-- **The rules.** The name that is used at the head of what follows a position is the one that the
position uses. -/
theorem usedName_drop_iff : usedName (tokens.drop i) = some n ↔ UsesAt tokens i n := by
  cases ht : tokens[i]? with
  | none =>
    have hdrop : tokens.drop i = [] := List.drop_eq_nil_iff.2 (List.getElem?_eq_none_iff.1 ht)
    simp [hdrop, usedName, UsesAt, NameAt, ht]
  | some t =>
    obtain ⟨hi, rfl⟩ := List.getElem?_eq_some_iff.1 ht
    rw [List.drop_eq_getElem_cons hi, usedName_cons, List.getElem?_drop, List.getElem?_drop]
    split
    next hopen => simp_all [nameOf?_eq_some_iff, UsesAt, NameAt]
    next hopen =>
      split
      next hroute => simp_all [nameOf?_eq_some_iff, UsesAt, NameAt]
      next hroute => simp_all [UsesAt, NameAt]

/-- Behind a token the list goes on. -/
theorem drop_succ_of_drop_eq_cons {t : Token} (h : tokens.drop p = t :: rest) :
    tokens.drop (p + 1) = rest := by
  rw [← List.drop_drop, h, List.drop_succ_cons, List.drop_zero]

/-- What is looked up at a position is the first binding of a name that the position uses. -/
theorem bind_lookUp_eq_some_iff :
    (usedName (tokens.drop i)).bind (lookUp bindings) = some b ↔
      lookUp bindings b.localName = some b ∧ UsesAt tokens i b.localName := by
  rw [Option.bind_eq_some_iff]
  simp only [usedName_drop_iff]
  constructor
  · rintro ⟨n, hn, hb⟩
    obtain rfl := localName_of_lookUp hb
    exact ⟨hb, hn⟩
  · rintro ⟨hb, hn⟩
    exact ⟨b.localName, hn, hb⟩

/-! ### From position to position -/

/-- What is found in front of the position `p`: the first bindings of the names that are used there,
in the order of the first uses. -/
structure UsedBefore (tokens : List Token) (bindings : List Binding) (p : Nat)
    (used : List Binding) : Prop extends FirstBindings bindings used where
  mem : ∀ b, b ∈ used ↔
    lookUp bindings b.localName = some b ∧ ∃ i < p, UsesAt tokens i b.localName
  ordered : used.Pairwise fun a b =>
    ∃ i j, FirstUse tokens a.localName i ∧ FirstUse tokens b.localName j ∧ i < j

/-- Before the first token nothing is used. -/
theorem usedBefore_zero : UsedBefore tokens bindings 0 [] where
  toFirstBindings := .nil
  mem := by simp
  ordered := .nil

/-- What is found is added behind all others, unless the name is there already. -/
theorem addUsed_cases (used : List Binding) (found : Option Binding) :
    addUsed used found = used ∨
      ∃ b, found = some b ∧ b.localName ∉ used.map Binding.localName ∧
        addUsed used found = used ++ [b] := by
  cases found with
  | none => exact .inl rfl
  | some b =>
    rw [addUsed]
    split
    next hold => exact .inl rfl
    next hnew => exact .inr ⟨b, rfl, by simpa using hnew, rfl⟩

/-- **One position.** With what is used at the next position there is found what is used in front of
the one behind it. -/
theorem UsedBefore.step (h : UsedBefore tokens bindings p used) :
    UsedBefore tokens bindings (p + 1)
      (addUsed used ((usedName (tokens.drop p)).bind (lookUp bindings))) where
  toFirstBindings := h.record _
  mem := by
    intro b
    rw [h.mem_record, h.mem, bind_lookUp_eq_some_iff, Nat.exists_lt_succ_right, and_or_left]
  ordered := by
    rcases addUsed_cases used ((usedName (tokens.drop p)).bind (lookUp bindings)) with
      hold | ⟨b, hb, hnew, hadd⟩
    · rw [hold]
      exact h.ordered
    · obtain ⟨hlook, huse⟩ := bind_lookUp_eq_some_iff.1 hb
      -- A name that is not there yet is not used further in front.
      have hfirst : FirstUse tokens b.localName p :=
        ⟨huse, fun i hi hi' => hnew (List.mem_map_of_mem ((h.mem b).2 ⟨hlook, i, hi, hi'⟩))⟩
      rw [hadd, List.pairwise_append]
      refine ⟨h.ordered, List.pairwise_singleton .., ?_⟩
      intro a ha c hc
      rw [List.mem_singleton.1 hc]
      obtain ⟨-, i, hi, hi'⟩ := (h.mem a).1 ha
      obtain ⟨j, hj, hj'⟩ := hi'.exists_firstUse
      exact ⟨j, p, hj', hfirst, Nat.lt_of_le_of_lt hj hi⟩

/-- **The whole list.** From what is found in front of a position the scan of the tokens behind
comes to what is found in front of the end. -/
theorem usedBefore_markupUsageFrom (rest : List Token) :
    ∀ p used, tokens.drop p = rest → UsedBefore tokens bindings p used →
      UsedBefore tokens bindings (p + rest.length) (markupUsageFrom bindings rest used) := by
  induction rest with
  | nil => exact fun p used _ h => h
  | cons t rest ih =>
    intro p used hrest h
    have hlen : p + (t :: rest).length = p + 1 + rest.length := by
      rw [List.length_cons]
      omega
    rw [markupUsageFrom_cons, hlen, ← hrest]
    exact ih (p + 1) _ (drop_succ_of_drop_eq_cons hrest) h.step

/-! ### Reading by position -/

/-- The token at a position. Behind the end of the list there is none, and the position is given
back. -/
def readToken (tokens : List Token) (i : Nat) : Except Nat Token :=
  match tokens[i]? with
  | some t => .ok t
  | none => .error i

/-- The name at a position that is looked ahead to; the token is read only if there is one. -/
def readName (tokens : List Token) (i : Nat) : Except Nat (Option String) := do
  if i < tokens.length then
    let t ← readToken tokens i
    return nameOf? (some t)
  else
    return none

/-- The name that a position uses, with all tokens read by their positions. -/
def readUse (tokens : List Token) (i : Nat) : Except Nat (Option String) := do
  let t ← readToken tokens i
  if t.kind == .tagOpen then readName tokens (i + 1)
  else if t.kind == .name && t.value == routeAttribute then readName tokens (i + 3)
  else return none

/-- Adds the binding that a position uses to those already found. -/
def readNext (tokens : List Token) (bindings used : List Binding) (i : Nat) :
    Except Nat (List Binding) := do
  let name ← readUse tokens i
  return addUsed used (name.bind (lookUp bindings))

/-- The bindings used in a token list, with all tokens read by their positions. -/
def readUsage (tokens : List Token) (bindings : List Binding) : Except Nat (List Binding) :=
  (List.range tokens.length).foldlM (readNext tokens bindings) []

/-- A token within the list can be read. -/
theorem readToken_eq (hi : i < tokens.length) : readToken tokens i = .ok tokens[i] := by
  rw [readToken, List.getElem?_eq_getElem hi]

/-- No name is read beyond the list. -/
theorem readName_eq (tokens : List Token) (i : Nat) :
    readName tokens i = .ok (nameOf? tokens[i]?) := by
  rw [readName]
  split
  next hi =>
    rw [readToken_eq hi, List.getElem?_eq_getElem hi]
    rfl
  next hi =>
    rw [List.getElem?_eq_none (Nat.not_lt.1 hi)]
    rfl

/-- At every position of the list all tokens that are read are there. -/
theorem readUse_eq (hi : i < tokens.length) :
    readUse tokens i = .ok (usedName (tokens.drop i)) := by
  rw [List.drop_eq_getElem_cons hi, usedName_cons, List.getElem?_drop, List.getElem?_drop, readUse,
    readToken_eq hi]
  simp only [readName_eq]
  show (if _ then _ else if _ then _ else _) = _
  split
  · rfl
  · split <;> rfl

/-- From a position on, reading by position never fails, and finds what the scan of the tokens
behind finds. -/
theorem foldlM_readNext (rest : List Token) :
    ∀ p used, tokens.drop p = rest →
      (List.range' p rest.length).foldlM (readNext tokens bindings) used =
        .ok (markupUsageFrom bindings rest used) := by
  induction rest with
  | nil => exact fun p used _ => rfl
  | cons t rest ih =>
    intro p used hrest
    have hp : p < tokens.length := by
      by_contra hp
      rw [List.drop_eq_nil_iff.2 (Nat.not_lt.1 hp)] at hrest
      cases hrest
    have hnext : readNext tokens bindings used p =
        .ok (addUsed used ((usedName (t :: rest)).bind (lookUp bindings))) := by
      rw [readNext, readUse_eq hp, hrest]
      rfl
    rw [markupUsageFrom_cons, List.length_cons, List.range'_succ, List.foldlM_cons, hnext]
    exact ih (p + 1) _ (drop_succ_of_drop_eq_cons hrest)

/-- **Within the list.** Reading by position never fails, and finds what the scan finds. -/
theorem readUsage_eq (tokens : List Token) (bindings : List Binding) :
    readUsage tokens bindings = .ok (markupUsage tokens bindings) := by
  rw [readUsage, List.range_eq_range']
  exact foldlM_readNext tokens 0 [] rfl

/-! ### All that is found -/

/-- What a name is looked up to is its first binding. -/
theorem lookUp_eq_some_iff :
    lookUp bindings n = some b ↔
      b.localName = n ∧ ∃ earlier later, bindings = earlier ++ b :: later ∧
        ∀ c ∈ earlier, c.localName ≠ n := by
  simp [lookUp, List.find?_eq_some_iff_append]

/-- **First uses.** The scan finds the first bindings of the names that are used at some position,
each name once, in the order of the positions at which the names are used first; and it finds the
same when the tokens are read by their positions, so none is read that is not in the list. -/
theorem markupUsage_firstUses (tokens : List Token) (bindings : List Binding) :
    (∀ b, b ∈ markupUsage tokens bindings ↔
      (∃ earlier later, bindings = earlier ++ b :: later ∧
        ∀ c ∈ earlier, c.localName ≠ b.localName) ∧ ∃ i, UsesAt tokens i b.localName) ∧
    ((markupUsage tokens bindings).map Binding.localName).Nodup ∧
    (markupUsage tokens bindings).Pairwise (fun a b =>
      ∃ i j, FirstUse tokens a.localName i ∧ FirstUse tokens b.localName j ∧ i < j) ∧
    readUsage tokens bindings = .ok (markupUsage tokens bindings) := by
  -- The loop's invariant, at its end: the bindings used before the last token.
  have hused : UsedBefore tokens bindings (0 + tokens.length) (markupUsage tokens bindings) :=
    usedBefore_markupUsageFrom tokens 0 [] rfl usedBefore_zero
  refine ⟨?_, hused.nodup, hused.ordered, readUsage_eq tokens bindings⟩
  intro b
  rw [hused.mem, lookUp_eq_some_iff]
  constructor
  · rintro ⟨⟨-, hfirst⟩, i, -, hi⟩
    exact ⟨hfirst, i, hi⟩
  · rintro ⟨hfirst, i, hi⟩
    have hlt := hi.lt_length
    exact ⟨⟨rfl, hfirst⟩, i, by omega, hi⟩

end RenderTree
