import RenderTree.Proofs.Source.Leaves

/-!
# The order of nodes

All nodes of a tree, each before those in it, and which of them are read as tokens. To look only at
what is read leaves out whole branches; it finds the same nodes as a look at every node that asks what
it is in.

* `Tree.preorder` — the nodes of a tree, each with its proper ancestors.
* `Tree.exists_parent` — the nearest of these is the node that it is a part of.
* `Tree.isRead` — whether a node is read as a token, by what it is and what it is in.
* `Tree.leaves_eq` — the leaves of a tree are the nodes that are read.
-/

namespace RenderTree.Source

/-- Nodes of which no part is read: comments, and those that are one token. -/
def Kind.isSealed (k : Kind) : Bool :=
  k == .comment || k.isAtomic

namespace Tree

variable {t u : Tree} {ts above : List Tree} {x : Tree × List Tree}

/-! ### Nodes and their ancestors -/

mutual
/-- The nodes of a tree, each before those in it, with their proper ancestors, the nearest first. The
tree itself lies below the nodes `above`. -/
def preorder (above : List Tree) : Tree → List (Tree × List Tree)
  | node k r a b cs => (node k r a b cs, above) :: preorderOf (node k r a b cs :: above) cs

/-- The nodes of several trees that lie below the nodes `above`. -/
def preorderOf (above : List Tree) : List Tree → List (Tree × List Tree)
  | [] => []
  | t :: ts => preorder above t ++ preorderOf above ts
end

/-- A node comes first, and it is the nearest above its parts. -/
theorem preorder_eq (above : List Tree) (t : Tree) :
    t.preorder above = (t, above) :: preorderOf (t :: above) t.children := by
  cases t with
  | node k r a b cs => rw [preorder, children_node]

mutual
/-- The ancestors of a node go on with those of the tree. -/
theorem suffix_of_mem_preorder (above : List Tree) :
    (t : Tree) → ∀ x ∈ t.preorder above, above <:+ x.2
  | node k r a b cs, x, hx => by
    rw [preorder, List.mem_cons] at hx
    rcases hx with rfl | hx
    · exact List.suffix_rfl
    · exact (List.suffix_cons _ above).trans (suffix_of_mem_preorderOf _ cs x hx)

theorem suffix_of_mem_preorderOf (above : List Tree) :
    (ts : List Tree) → ∀ x ∈ preorderOf above ts, above <:+ x.2
  | [], x, hx => by simp [preorderOf] at hx
  | t :: ts, x, hx => by
    rw [preorderOf, List.mem_append] at hx
    rcases hx with hx | hx
    · exact suffix_of_mem_preorder above t x hx
    · exact suffix_of_mem_preorderOf above ts x hx
end

mutual
/-- The nearest ancestor of a node, unless it is that of the tree, has the node as a part. -/
theorem exists_parent (above : List Tree) : (t : Tree) →
    ∀ x ∈ t.preorder above, x = (t, above) ∨ ∃ p, x.2.head? = some p ∧ x.1 ∈ p.children
  | node k r a b cs, x, hx => by
    rw [preorder, List.mem_cons] at hx
    rcases hx with rfl | hx
    · exact .inl rfl
    · exact .inr (exists_parentOf (node k r a b cs) above cs (List.Subset.refl cs) x hx)

theorem exists_parentOf (p : Tree) (above : List Tree) : (ts : List Tree) → ts ⊆ p.children →
    ∀ x ∈ preorderOf (p :: above) ts, ∃ q, x.2.head? = some q ∧ x.1 ∈ q.children
  | [], _, x, hx => by simp [preorderOf] at hx
  | t :: ts, hts, x, hx => by
    obtain ⟨ht, hts⟩ := List.cons_subset.1 hts
    rw [preorderOf, List.mem_append] at hx
    rcases hx with hx | hx
    · rcases exists_parent (p :: above) t x hx with rfl | hparent
      · exact ⟨p, rfl, ht⟩
      · exact hparent
    · exact exists_parentOf p above ts hts x hx
end

/-! ### Nodes that are read -/

/-- Whether a node with its proper ancestors is read as a token: it has no parts or is atomic, is no
comment, and is in nothing of which no part is read. -/
def isRead (x : Tree × List Tree) : Bool :=
  x.1.kind != .comment && (x.1.children.isEmpty || x.1.kind.isAtomic) &&
    x.2.all (fun a => !a.kind.isSealed)

/-- The nodes of a tree that are read as tokens, in source order, with their proper ancestors. -/
def readNodes (t : Tree) : List (Tree × List Tree) :=
  (t.preorder []).filter isRead

/-- What is read as a token: what is one, is no comment and lies in nothing sealed. -/
theorem isRead_iff : isRead (t, above) = true ↔
    t.kind ≠ .comment ∧ t.isToken = true ∧ ∀ a ∈ above, a.kind.isSealed = false := by
  simp [isRead, isToken, and_assoc]

/-- Nothing is read in a comment or an atomic node. -/
theorem filter_preorderOf_eq_nil (ht : t.kind.isSealed = true) (ts : List Tree) :
    (preorderOf (t :: above) ts).filter isRead = [] := by
  rw [List.filter_eq_nil_iff]
  intro x hx hread
  have hmem : t ∈ x.2 := (suffix_of_mem_preorderOf _ ts x hx).mem List.mem_cons_self
  have hopen := (isRead_iff.1 hread).2.2 t hmem
  rw [ht] at hopen
  cases hopen

/-- A node without its ancestors, but for the kind of its parent. -/
def withParent (x : Tree × List Tree) : Tree × Option Kind :=
  (x.1, x.2.head?.map kind)

mutual
/-- **Leaves.** The leaves of a tree that lies in no comment and in no atomic node are its nodes that
are read. -/
theorem leaves_eq (above : List Tree) (habove : ∀ a ∈ above, a.kind.isSealed = false) :
    (t : Tree) → leaves (above.head?.map kind) t =
      ((t.preorder above).filter isRead).map withParent
  | node k r a b cs => by
    have hread : isRead (node k r a b cs, above) = true ↔ k ≠ .comment ∧ _ := isRead_iff
    rw [preorder, List.filter_cons]
    -- A comment is read nowhere, a token alone, and any other node in its parts.
    by_cases hcomment : k = .comment
    · have hsealed : (node k r a b cs).kind.isSealed = true := by
        rw [kind_node, hcomment]
        rfl
      rw [leaves_of_comment (t := node k r a b cs) hcomment, filter_preorderOf_eq_nil hsealed,
        if_neg (fun h => (hread.1 h).1 hcomment), List.map_nil]
    · cases htoken : isToken (node k r a b cs) with
      | true =>
        have hbelow : (preorderOf (node k r a b cs :: above) cs).filter isRead = [] := by
          rw [isToken, Bool.or_eq_true] at htoken
          rcases htoken with hempty | hatomic
          · obtain rfl : cs = [] := List.isEmpty_iff.1 hempty
            rfl
          · refine filter_preorderOf_eq_nil ?_ cs
            rw [Kind.isSealed, hatomic, Bool.or_true]
        rw [leaves_of_isToken (t := node k r a b cs) hcomment htoken,
          if_pos (hread.2 ⟨hcomment, htoken, habove⟩), hbelow]
        rfl
      | false =>
        have hopen : ∀ d ∈ node k r a b cs :: above, d.kind.isSealed = false := by
          rw [List.forall_mem_cons, kind_node]
          rw [isToken, Bool.or_eq_false_iff, kind_node] at htoken
          refine ⟨?_, habove⟩
          rw [Kind.isSealed, htoken.2, Bool.or_false, beq_eq_false_iff_ne]
          exact hcomment
        have hself : ¬ isRead (node k r a b cs, above) = true := by
          rw [hread, htoken]
          simp
        rw [leaves_of_inner (t := node k r a b cs) hcomment htoken, if_neg hself]
        exact leavesOf_eq _ hopen cs

theorem leavesOf_eq (above : List Tree) (habove : ∀ a ∈ above, a.kind.isSealed = false) :
    (ts : List Tree) → leavesOf (above.head?.map kind) ts =
      ((preorderOf above ts).filter isRead).map withParent
  | [] => rfl
  | t :: ts => by
    rw [leavesOf, preorderOf, List.filter_append, List.map_append, leaves_eq above habove t,
      leavesOf_eq above habove ts]
end

/-- The leaves of a tree are its nodes that are read. -/
theorem leaves_eq_map_readNodes (t : Tree) : leaves none t = t.readNodes.map withParent :=
  leaves_eq [] (by simp) t

end Tree

end RenderTree.Source
