import RenderTree.Proofs.Source.Preorder
import RenderTree.Source.Parse
import Mathlib.Data.List.Forall2
import Mathlib.Logic.Function.Iterate

/-!
# The token stream

The tokens of a tree come off a stack, which begins with the tree alone and is empty in the end. They
are those of the nodes that are read, in source order: where the parts of every node lie in its span
one behind the other, so do the tokens.

* `Tree.turn`, `Tree.exists_turns` — a turn of the loop over the stack, and how many it takes.
* `Tree.IsNested` — the parts of every node lie in its span, one behind the other.
* `Tree.lieWithin_leaves` — then the leaves lie one behind the other.
* `Tree.Spells` — what a token tells about the node that it is of.
* `Tree.tokens_readNodes` — the tokens of a tree.
-/

namespace RenderTree.Source.Tree

variable {t : Tree} {ts : List Tree} {text : Array Char}

/-! ### The loop -/

/-- One turn of the loop that collects tokens. The top of the stack is passed over if it is a comment,
gives a token if it is read as one, and makes way for its parts otherwise. -/
def turn (text : Array Char) :
    List (Tree × Option Kind) × List Token → List (Tree × Option Kind) × List Token
  | ([], done) => ([], done)
  | ((t, parent) :: stack, done) =>
    if t.kind == .comment then (stack, done)
    else if t.isToken then (stack, t.token text parent :: done)
    else (t.children.map (fun c => (c, some t.kind)) ++ stack, done)

/-- **Turns.** The loop empties its stack, after no more turns than there are nodes on it. -/
theorem exists_turns (text : Array Char) (stack : List (Tree × Option Kind)) (done : List Token) :
    ∃ n ≤ sizes (stack.map Prod.fst),
      (turn text)^[n] (stack, done) = ([], (collect text stack done).reverse) := by
  -- One turn takes one node off the stack, and its parts are smaller than it.
  fun_induction collect text stack done with
  | case1 done => exact ⟨0, Nat.zero_le _, by simp⟩
  | case2 t parent stack done hcomment ih =>
    obtain ⟨n, hn, hturns⟩ := ih
    refine ⟨n + 1, ?_, ?_⟩
    · have := t.size_eq
      simp only [List.map_cons, sizes]
      omega
    · rw [Function.iterate_succ_apply, turn, if_pos hcomment, hturns]
  | case3 t parent stack done hcomment htoken ih =>
    obtain ⟨n, hn, hturns⟩ := ih
    refine ⟨n + 1, ?_, ?_⟩
    · have := t.size_eq
      simp only [List.map_cons, sizes]
      omega
    · rw [Function.iterate_succ_apply, turn, if_neg hcomment, if_pos htoken, hturns]
  | case4 t parent stack done hcomment htoken ih =>
    obtain ⟨n, hn, hturns⟩ := ih
    refine ⟨n + 1, ?_, ?_⟩
    · have hsize := t.size_eq
      have hparts : (t.children.map (fun c => (c, some t.kind))).map Prod.fst = t.children := by
        simp [Function.comp_def]
      rw [List.map_append, hparts, sizes_append] at hn
      simp only [List.map_cons, sizes]
      omega
    · rw [Function.iterate_succ_apply, turn, if_neg hcomment, if_neg htoken, hturns]

/-! ### Spans -/

/-- The parts of a node lie in its span, one behind the other. -/
structure HoldsParts (t : Tree) : Prop where
  span : t.start ≤ t.stop
  inside : ∀ c ∈ t.children, t.start ≤ c.start ∧ c.stop ≤ t.stop
  inOrder : t.children.Pairwise (fun c d => c.stop ≤ d.start)

/-- The check of the parts of a node, spelled out. -/
theorem holdsParts_iff : t.HoldsParts ↔
    t.start ≤ t.stop ∧ (∀ c ∈ t.children, t.start ≤ c.start ∧ c.stop ≤ t.stop) ∧
      t.children.Pairwise (fun c d => c.stop ≤ d.start) :=
  ⟨fun h => ⟨h.span, h.inside, h.inOrder⟩, fun h => ⟨h.1, h.2.1, h.2.2⟩⟩

instance (t : Tree) : Decidable t.HoldsParts :=
  decidable_of_iff _ holdsParts_iff.symm

/-- The parts of every node of a tree lie in its span, one behind the other. -/
def IsNested (t : Tree) : Prop :=
  ∀ x ∈ t.preorder [], x.1.HoldsParts

instance (t : Tree) : Decidable t.IsNested :=
  inferInstanceAs (Decidable (∀ x ∈ t.preorder [], x.1.HoldsParts))

/-- Leaves lie between two offsets, one behind the other. -/
structure LieWithin (a b : Nat) (leaves : List (Tree × Option Kind)) : Prop where
  inside : ∀ x ∈ leaves, a ≤ x.1.start ∧ x.1.start ≤ x.1.stop ∧ x.1.stop ≤ b
  inOrder : leaves.Pairwise (fun x y => x.1.stop ≤ y.1.start)

/-- No leaves lie anywhere. -/
theorem LieWithin.nil (a b : Nat) : LieWithin a b [] where
  inside := by simp
  inOrder := .nil

/-- A leaf lies within its own span. -/
theorem LieWithin.single (ht : t.HoldsParts) (parent : Option Kind) :
    LieWithin t.start t.stop [(t, parent)] where
  inside := by simpa using ht.span
  inOrder := List.pairwise_singleton ..

/-- Leaves on both sides of an offset lie one behind the other. -/
theorem LieWithin.append {a c m b : Nat} {xs ys : List (Tree × Option Kind)} (ha : a ≤ c)
    (hm : c ≤ m) (hb : m ≤ b) (hx : LieWithin c m xs) (hy : LieWithin m b ys) :
    LieWithin a b (xs ++ ys) where
  inside x h := by
    rcases List.mem_append.1 h with h | h
    · obtain ⟨hstart, hspan, hstop⟩ := hx.inside x h
      exact ⟨ha.trans hstart, hspan, hstop.trans hb⟩
    · obtain ⟨hstart, hspan, hstop⟩ := hy.inside x h
      exact ⟨(ha.trans hm).trans hstart, hspan, hstop⟩
  inOrder := by
    refine List.pairwise_append.2 ⟨hx.inOrder, hy.inOrder, fun x h y h' => ?_⟩
    exact (hx.inside x h).2.2.trans (hy.inside y h').1

mutual
/-- **Spans.** The leaves of a tree lie in its span, one behind the other. -/
theorem lieWithin_leaves (parent : Option Kind) (above : List Tree) :
    (t : Tree) → (∀ x ∈ t.preorder above, x.1.HoldsParts) →
      LieWithin t.start t.stop (leaves parent t)
  | node k r a b cs, h => by
    rw [preorder, List.forall_mem_cons] at h
    obtain ⟨hself, hbelow⟩ := h
    rw [leaves]
    split
    · exact .nil a b
    · split
      · exact .single hself parent
      · exact lieWithin_leavesOf (some k) _ a cs hbelow hself.span hself.inside hself.inOrder

/-- So do the leaves of trees that lie between two offsets, one behind the other. -/
theorem lieWithin_leavesOf {b : Nat} (parent : Option Kind) (above : List Tree) (a : Nat) :
    (ts : List Tree) → (∀ x ∈ preorderOf above ts, x.1.HoldsParts) → a ≤ b →
      (∀ c ∈ ts, a ≤ c.start ∧ c.stop ≤ b) → ts.Pairwise (fun c d => c.stop ≤ d.start) →
      LieWithin a b (leavesOf parent ts)
  | [], _, _, _, _ => .nil a b
  | t :: ts, h, hab, hinside, hinOrder => by
    rw [preorderOf, List.forall_mem_append] at h
    rw [List.forall_mem_cons] at hinside
    rw [List.pairwise_cons] at hinOrder
    have hself : t.HoldsParts := by
      rw [preorder_eq, List.forall_mem_cons] at h
      exact h.1.1
    have ht := lieWithin_leaves parent above t h.1
    -- The leaves of the later trees lie behind the end of the first one.
    have hts := lieWithin_leavesOf parent above t.stop ts h.2 hinside.1.2
      (fun c hc => ⟨hinOrder.1 c hc, (hinside.2 c hc).2⟩) hinOrder.2
    exact .append hinside.1.1 hself.span hinside.1.2 ht hts
end

/-! ### Tokens -/

/-- What a token tells about the node that it is of: the text in the span of the node, the line on
which it starts, and its class. The bracket that begins a tag is told from all others. -/
structure Spells (text : Array Char) (x : Tree × List Tree) (token : Token) : Prop where
  value : token.value.toList = (text.toList.drop x.1.start).take (x.1.stop - x.1.start)
  line : token.line = 1 + (text.toList.take x.1.start).count '\n'
  class_eq : token.kind = x.1.kind.tokenKind (x.2.head?.map kind)
  tagOpen_iff : token.kind = .tagOpen ↔ x.1.kind = .sign "<" ∧
    ∃ p, x.2.head? = some p ∧ x.1 ∈ p.children ∧ (p.kind = .openingTag ∨ p.kind = .selfClosingTag)

/-- The token that is made of a node tells what it should. -/
theorem spells_token (text : Array Char) {x : Tree × List Tree} (hx : x ∈ t.preorder []) :
    Spells text x (x.1.token text (x.2.head?.map kind)) where
  value := by
    simp [token, slice]
  line := by
    rw [token, lineAt, ← Array.count_toList, Array.toList_extract, List.extract_eq_take_drop]
    rfl
  class_eq := rfl
  tagOpen_iff := by
    rw [token, Kind.tokenKind_eq_tagOpen_iff]
    refine and_congr_right fun _ => ?_
    cases hhead : x.2.head? with
    | none => simp
    | some p =>
      -- What stands nearest above a node is what it is a part of.
      have hpart : x.1 ∈ p.children := by
        rcases exists_parent [] t x hx with rfl | ⟨q, hq, hmem⟩
        · simp at hhead
        · rw [hhead, Option.some.injEq] at hq
          exact hq ▸ hmem
      have htag : p.kind.isTag = true ↔ p.kind = .openingTag ∨ p.kind = .selfClosingTag := by
        cases p.kind <;> simp [Kind.isTag]
      simp [htag, hpart]

/-- The tokens of a tree are those of its nodes that are read. -/
theorem tokens_eq_map_readNodes (text : Array Char) (t : Tree) :
    t.tokens text = t.readNodes.map (fun x => x.1.token text (x.2.head?.map kind)) := by
  rw [tokens_eq, leaves_eq_map_readNodes, List.map_map]
  rfl

/-- **Tokens.** The loop ends with one token for each node that is read, in source order. A token
spells its node, and where the parts of every node lie in its span one behind the other, so do the
nodes that are read in the span of the tree. -/
theorem tokens_readNodes (text : Array Char) (t : Tree) (h : t.IsNested) :
    (∃ n ≤ t.size, (turn text)^[n] ([(t, none)], []) = ([], (t.tokens text).reverse)) ∧
      List.Forall₂ (Spells text) t.readNodes (t.tokens text) ∧
      t.readNodes.Pairwise (fun x y => x.1.stop ≤ y.1.start) ∧
      ∀ x ∈ t.readNodes, t.start ≤ x.1.start ∧ x.1.start ≤ x.1.stop ∧ x.1.stop ≤ t.stop := by
  have hleaves := lieWithin_leaves none [] t h
  rw [leaves_eq_map_readNodes] at hleaves
  refine ⟨?_, ?_, ?_, ?_⟩
  · obtain ⟨n, hn, hturns⟩ := exists_turns text [(t, none)] []
    exact ⟨n, by simpa [sizes] using hn, hturns⟩
  · rw [tokens_eq_map_readNodes, List.forall₂_map_right_iff, List.forall₂_same]
    intro x hx
    exact spells_token text (List.mem_filter.1 hx).1
  · exact List.pairwise_map.1 hleaves.inOrder
  · intro x hx
    exact hleaves.inside _ (List.mem_map_of_mem hx)

/-- A module with a comment in a tag, text over two lines, and what looks like a tag in a template. -/
def commentedTags : String :=
  "a = <A /* c */>\n t \x7b\x60<B/>\x60\x7d</A>"

/-- The text is parsed, and its parts lie in each other. -/
theorem commentedTags_parse : ∃ m, parse commentedTags = .ok m ∧ m.root.IsNested := by
  have hnested : (parse commentedTags).toOption.any (fun m => decide m.root.IsNested) = true := by
    decide +kernel
  cases hm : parse commentedTags with
  | error e => simp [hm, Except.toOption] at hnested
  | ok m => exact ⟨m, rfl, by simpa [hm, Except.toOption] using hnested⟩

/-- The tokens of that module spell the nodes that are read, which lie one behind the other. -/
theorem commentedTags_tokens :
    ∃ m, parse commentedTags = .ok m ∧ m.root.IsNested ∧
      (∃ n ≤ m.root.size,
        (turn m.text)^[n] ([(m.root, none)], []) = ([], (m.root.tokens m.text).reverse)) ∧
      List.Forall₂ (Spells m.text) m.root.readNodes m.tokens ∧
      m.root.readNodes.Pairwise (fun x y => x.1.stop ≤ y.1.start) := by
  obtain ⟨m, hm, hnested⟩ := commentedTags_parse
  obtain ⟨hturns, hspells, hinOrder, -⟩ := tokens_readNodes m.text m.root hnested
  exact ⟨m, hm, hnested, hturns, hspells, hinOrder⟩

end RenderTree.Source.Tree
