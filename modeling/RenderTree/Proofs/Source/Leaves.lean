import RenderTree.Source.Token
import Mathlib.Data.List.Infix

/-!
# Tokens are leaves

Tokens are collected with a stack, which forgets what node they are in. Read as a recursion over the
tree they keep it: the tokens of a node stand together, and those of its later parts follow those of
its earlier ones.

* `Tree.leaves` — the leaves of a tree that are read, each with the kind of its parent.
* `Tree.collect_eq`, `Tree.tokens_eq` — the tokens of a tree are its leaves, one by one.
* `Tree.visible` — the nodes of a tree that are read.
* `Tree.leaves_split` — what follows a leaf are the leaves of the later parts of its parent.
* `Tree.leavesOf_infix_leaves` — the leaves of a node that is read stand together.
* `Tree.firstLeaf?` — the first leaf of a tree.
-/

namespace RenderTree.Source.Tree

variable {t u b : Tree} {ts us : List Tree} {parent q : Option Kind} {text : Array Char}
  {pre post : List (Tree × Option Kind)}

/-! ### Leaves -/

mutual
/-- The leaves of a tree with the kinds of their parents, in source order. Comments have none, and an
atomic node is a leaf itself. -/
def leaves (parent : Option Kind) : Tree → List (Tree × Option Kind)
  | node k r a b cs =>
    if k == .comment then []
    else if cs.isEmpty || k.isAtomic then [(node k r a b cs, parent)]
    else leavesOf (some k) cs

/-- The leaves of several trees with one parent. -/
def leavesOf (parent : Option Kind) : List Tree → List (Tree × Option Kind)
  | [] => []
  | t :: ts => leaves parent t ++ leavesOf parent ts
end

/-- A comment has no leaves. -/
theorem leaves_of_comment (h : t.kind = .comment) : leaves parent t = [] := by
  cases t with
  | node k r a b cs =>
    rw [leaves, if_pos (by simpa using h)]

/-- A token is its own leaf. -/
theorem leaves_of_isToken (h : t.kind ≠ .comment) (ht : t.isToken = true) :
    leaves parent t = [(t, parent)] := by
  cases t with
  | node k r a b cs =>
    have htoken : (cs.isEmpty || k.isAtomic) = true := ht
    rw [leaves, if_neg (by simpa using h), if_pos htoken]

/-- Any other node has the leaves of its parts. -/
theorem leaves_of_inner (h : t.kind ≠ .comment) (ht : t.isToken = false) :
    leaves parent t = leavesOf (some t.kind) t.children := by
  cases t with
  | node k r a b cs =>
    have hinner : ¬ (cs.isEmpty || k.isAtomic) = true := by
      rw [Bool.not_eq_true]
      exact ht
    rw [leaves, if_neg (by simpa using h), if_neg hinner]
    rfl

/-- The leaves of two lists of trees stand one behind the other. -/
theorem leavesOf_append (parent : Option Kind) (ts us : List Tree) :
    leavesOf parent (ts ++ us) = leavesOf parent ts ++ leavesOf parent us := by
  induction ts with
  | nil => simp [leavesOf]
  | cons t ts ih => simp [leavesOf, ih]

/-- The leaves of several trees are those of each of them. -/
theorem leavesOf_eq_flatMap (parent : Option Kind) (ts : List Tree) :
    leavesOf parent ts = (ts.map (fun t => (t, parent))).flatMap (fun x => leaves x.2 x.1) := by
  induction ts with
  | nil => simp [leavesOf]
  | cons t ts ih => simp [leavesOf, ih]

mutual
/-- A leaf has no parts, or is atomic. -/
theorem isToken_of_mem_leaves {x : Tree × Option Kind} :
    (t : Tree) → ∀ parent, x ∈ leaves parent t → x.1.isToken = true
  | .node k r a e cs, parent, hx => by
    rw [leaves] at hx
    split at hx
    · cases hx
    · split at hx
      next htoken =>
        rw [List.mem_singleton.1 hx]
        exact htoken
      next => exact isToken_of_mem_leavesOf cs _ hx

theorem isToken_of_mem_leavesOf {x : Tree × Option Kind} :
    (ts : List Tree) → ∀ parent, x ∈ leavesOf parent ts → x.1.isToken = true
  | [], parent, hx => by simp [leavesOf] at hx
  | t :: ts, parent, hx => by
    rw [leavesOf, List.mem_append] at hx
    rcases hx with hx | hx
    · exact isToken_of_mem_leaves t parent hx
    · exact isToken_of_mem_leavesOf ts parent hx
end

/-- **The stack.** What is collected from a stack are the leaves of its trees, from the top down. -/
theorem collect_eq (text : Array Char) (stack : List (Tree × Option Kind)) (done : List Token) :
    collect text stack done =
      done.reverse ++
        (stack.flatMap (fun x => leaves x.2 x.1)).map (fun x => x.1.token text x.2) := by
  fun_induction collect text stack done with
  | case1 done => simp
  | case2 t parent stack done hcomment ih =>
    rw [ih, List.flatMap_cons, leaves_of_comment (by simpa using hcomment), List.nil_append]
  | case3 t parent stack done hcomment htoken ih =>
    rw [ih, List.flatMap_cons, leaves_of_isToken (by simpa using hcomment) htoken]
    simp
  | case4 t parent stack done hcomment htoken ih =>
    rw [ih, List.flatMap_append, ← leavesOf_eq_flatMap, List.flatMap_cons,
      leaves_of_inner (by simpa using hcomment) (by simpa using htoken)]

/-- **Tokens.** The tokens of a tree are its leaves, one by one. -/
theorem tokens_eq (text : Array Char) (t : Tree) :
    t.tokens text = (leaves none t).map (fun x => x.1.token text x.2) := by
  rw [tokens, collect_eq]
  simp

/-! ### Nodes that are read -/

mutual
/-- The nodes of a tree that are read: all but comments and what is in comments and atomic nodes. -/
def visible : Tree → List Tree
  | node k r a b cs =>
    if k == .comment then []
    else node k r a b cs :: if k.isAtomic then [] else visibleOf cs

/-- The nodes of several trees that are read. -/
def visibleOf : List Tree → List Tree
  | [] => []
  | t :: ts => visible t ++ visibleOf ts
end

/-- A node that is no comment is visible. -/
theorem mem_visible_self (h : t.kind ≠ .comment) : t ∈ t.visible := by
  cases t with
  | node k r a b cs =>
    rw [visible, if_neg (by simpa using h)]
    exact List.mem_cons_self

/-- What is visible in the parts of a node is visible in the node. -/
theorem mem_visible_of_mem_children (h : t.kind ≠ .comment) (ht : t.isToken = false)
    (hu : u ∈ visibleOf t.children) : u ∈ t.visible := by
  cases t with
  | node k r a b cs =>
    have hinner : ¬ k.isAtomic = true := by
      rw [isToken, Bool.or_eq_false_iff] at ht
      simpa using ht.2
    rw [visible, if_neg (by simpa using h), if_neg hinner]
    exact List.mem_cons_of_mem _ hu

/-- A leaf is a part of one of the nodes, whose kind is that of its parent, and what comes behind it
begins with the leaves of the later parts of that node. -/
def PartOf (nodes : List Tree) (b : Tree) (parent : Option Kind) (post : List (Tree × Option Kind)) :
    Prop :=
  ∃ u ∈ nodes, parent = some u.kind ∧ ∃ rest, b :: rest <:+ u.children ∧ leavesOf parent rest <+: post

/-- A part of a node remains one among more nodes, with more behind it. -/
theorem PartOf.mono {nodes nodes' : List Tree} {post' : List (Tree × Option Kind)}
    (h : PartOf nodes b q post) (hnodes : nodes ⊆ nodes') (hpost : post <+: post') :
    PartOf nodes' b q post' := by
  obtain ⟨u, hu, hq, rest, hrest, hleaves⟩ := h
  exact ⟨u, hnodes hu, hq, rest, hrest, hleaves.trans hpost⟩

/-- An element of two lists in a row is in the first of them or in the second. -/
theorem append_eq_append_cons {α : Type} {xs ys before after : List α} {x : α}
    (h : xs ++ ys = before ++ x :: after) :
    (∃ mid, xs = before ++ x :: mid ∧ after = mid ++ ys) ∨
      ∃ mid, before = xs ++ mid ∧ ys = mid ++ x :: after := by
  rcases List.append_eq_append_iff.1 h with ⟨mid, hbefore, hys⟩ | ⟨mid, hxs, hmid⟩
  · exact .inr ⟨mid, hbefore, hys⟩
  · cases mid with
    | nil =>
      rw [List.append_nil] at hxs
      exact .inr ⟨[], by simp [hxs], hmid.symm⟩
    | cons y mid =>
      rw [List.cons_append, List.cons.injEq] at hmid
      obtain ⟨rfl, rfl⟩ := hmid
      exact .inl ⟨mid, hxs, rfl⟩

mutual
/-- **What follows a leaf.** A leaf of a tree is the tree itself, or a part of a node that is read. -/
theorem leaves_split :
    (t : Tree) → ∀ (parent : Option Kind) (pre post : List (Tree × Option Kind)),
      leaves parent t = pre ++ (b, q) :: post →
        (b = t ∧ q = parent ∧ post = []) ∨ PartOf t.visible b q post
  | .node k r a e cs, parent, pre, post, h => by
    by_cases hcomment : k = .comment
    · rw [leaves_of_comment (t := .node k r a e cs) hcomment] at h
      simp at h
    · cases htoken : isToken (.node k r a e cs) with
      | true =>
        rw [leaves_of_isToken (t := .node k r a e cs) hcomment htoken] at h
        -- There is only one leaf.
        left
        have hlength := congrArg List.length h
        simp only [List.length_cons, List.length_nil, List.length_append] at hlength
        obtain rfl := List.eq_nil_of_length_eq_zero (l := pre) (by omega)
        obtain rfl := List.eq_nil_of_length_eq_zero (l := post) (by omega)
        simp only [List.nil_append, List.cons.injEq, Prod.mk.injEq, and_true] at h
        exact ⟨h.1.symm, h.2.symm, rfl⟩
      | false =>
        rw [leaves_of_inner (t := .node k r a e cs) hcomment htoken] at h
        right
        rcases leavesOf_split cs (some k) pre post h with ⟨hq, rest, hrest, hpost⟩ | hpart
        · exact ⟨_, mem_visible_self (t := .node k r a e cs) hcomment, hq, rest, hrest, hpost⟩
        · exact hpart.mono
            (fun u => mem_visible_of_mem_children (t := .node k r a e cs) hcomment htoken)
            (List.prefix_refl post)

theorem leavesOf_split :
    (ts : List Tree) → ∀ (parent : Option Kind) (pre post : List (Tree × Option Kind)),
      leavesOf parent ts = pre ++ (b, q) :: post →
        (q = parent ∧ ∃ rest, b :: rest <:+ ts ∧ leavesOf q rest <+: post) ∨
          PartOf (visibleOf ts) b q post
  | [], parent, pre, post, h => by simp [leavesOf] at h
  | t :: ts, parent, pre, post, h => by
    rw [leavesOf] at h
    rcases append_eq_append_cons h with ⟨mid, ht, rfl⟩ | ⟨mid, -, hts⟩
    · -- The leaf is in the first tree, and the leaves of the others follow those of that.
      rcases leaves_split t parent pre mid ht with ⟨rfl, rfl, rfl⟩ | hpart
      · exact .inl ⟨rfl, ts, List.suffix_rfl, List.prefix_refl _⟩
      · exact .inr (hpart.mono (List.subset_append_left _ _) (List.prefix_append mid _))
    · rcases leavesOf_split ts parent mid post hts with ⟨hq, rest, hrest, hpost⟩ | hpart
      · exact .inl ⟨hq, rest, hrest.trans (List.suffix_cons t ts), hpost⟩
      · exact .inr (hpart.mono (List.subset_append_right _ _) (List.prefix_refl post))
end

mutual
/-- **Leaves of a node.** The leaves of a node that is read stand together among those of the tree. -/
theorem leavesOf_infix_leaves (hinner : u.isToken = false) :
    (t : Tree) → ∀ parent, u ∈ t.visible →
      leavesOf (some u.kind) u.children <:+: leaves parent t
  | .node k r a e cs, parent, hu => by
    by_cases hcomment : k = .comment
    · rw [visible, if_pos (by simpa using hcomment)] at hu
      cases hu
    · rw [visible, if_neg (by simpa using hcomment), List.mem_cons] at hu
      rcases hu with rfl | hu
      · rw [leaves_of_inner (t := .node k r a e cs) hcomment hinner]
      · split at hu
        · cases hu
        next hatomic =>
          cases cs with
          | nil => simp [visibleOf] at hu
          | cons c cs =>
            have htoken : isToken (.node k r a e (c :: cs)) = false := by simpa [isToken] using hatomic
            rw [leaves_of_inner (t := .node k r a e (c :: cs)) hcomment htoken]
            exact leavesOf_infix_leavesOf hinner (c :: cs) _ hu

theorem leavesOf_infix_leavesOf (hinner : u.isToken = false) :
    (ts : List Tree) → ∀ parent, u ∈ visibleOf ts →
      leavesOf (some u.kind) u.children <:+: leavesOf parent ts
  | [], parent, hu => by simp [visibleOf] at hu
  | t :: ts, parent, hu => by
    rw [visibleOf, List.mem_append] at hu
    rw [leavesOf]
    rcases hu with hu | hu
    · exact (leavesOf_infix_leaves hinner t parent hu).trans (List.prefix_append _ _).isInfix
    · exact (leavesOf_infix_leavesOf hinner ts parent hu).trans (List.suffix_append _ _).isInfix
end

/-- A part of a node that is read, and a leaf itself, is a leaf of the tree, followed by the leaves of
the later parts. -/
theorem exists_leaves_split (parent : Option Kind) (hu : u ∈ t.visible) {rest : List Tree}
    (hb : b :: rest <:+ u.children) (hcomment : b.kind ≠ .comment) (htoken : b.isToken = true)
    (hinner : u.kind.isAtomic = false) :
    ∃ pre post, leaves parent t = pre ++ (b, some u.kind) :: (leavesOf (some u.kind) rest ++ post) := by
  obtain ⟨before, hchildren⟩ := hb
  have hu' : u.isToken = false := by
    rw [isToken, ← hchildren, hinner]
    simp
  obtain ⟨pre, post, hleaves⟩ := leavesOf_infix_leaves hu' t parent hu
  refine ⟨pre ++ leavesOf (some u.kind) before, post, ?_⟩
  rw [← hleaves, ← hchildren, leavesOf_append, leavesOf, leaves_of_isToken hcomment htoken]
  simp

/-! ### First leaves -/

mutual
/-- The first leaf of a tree that is read. -/
def firstLeaf? : Tree → Option Tree
  | node k r a b cs =>
    if k == .comment then none
    else if cs.isEmpty || k.isAtomic then some (node k r a b cs)
    else firstLeafOf? cs

/-- The first leaf of several trees that is read. -/
def firstLeafOf? : List Tree → Option Tree
  | [] => none
  | t :: ts => (firstLeaf? t).or (firstLeafOf? ts)
end

mutual
/-- The first leaf is the one that comes first among all leaves. -/
theorem head?_leaves (parent : Option Kind) :
    (t : Tree) → (leaves parent t).head?.map Prod.fst = firstLeaf? t
  | .node k r a b cs => by
    rw [leaves, firstLeaf?]
    split
    · rfl
    · split
      · rfl
      · exact head?_leavesOf (some k) cs

/-- The first leaf of several trees is where it is looked for. -/
theorem head?_leavesOf (parent : Option Kind) :
    (ts : List Tree) → (leavesOf parent ts).head?.map Prod.fst = firstLeafOf? ts
  | [] => rfl
  | t :: ts => by
    rw [leavesOf, firstLeafOf?, List.head?_append, ← head?_leaves parent t,
      ← head?_leavesOf parent ts]
    cases (leaves parent t).head? <;> rfl
end

/-- The first leaf of several trees comes first among their leaves. -/
theorem exists_leavesOf_cons {leaf : Tree} (h : firstLeafOf? ts = some leaf) (parent : Option Kind) :
    ∃ q more, leavesOf parent ts = (leaf, q) :: more := by
  rw [← head?_leavesOf parent ts] at h
  obtain ⟨⟨l, q⟩, hhead, rfl⟩ := Option.map_eq_some_iff.1 h
  obtain ⟨more, hmore⟩ := List.head?_eq_some_iff.1 hhead
  exact ⟨q, more, hmore⟩

end RenderTree.Source.Tree
