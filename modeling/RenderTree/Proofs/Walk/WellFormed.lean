import RenderTree.Proofs.Walk.Way

/-!
# Well-formed trees

What becomes of a component decides what else is known of it, wherever in the walk that happened.
Some of it is set before it is known what becomes of the component, and taken back later.

* `Walker.Renders` — a component that renders what its file does.
* `Walker.Fits` — what is known of a component fits what became of it.
* `Walked.WellFormed` — a tree whose root, children and components are all as they should be.
* `walk_wellFormed` — every tree that a walk finds is well-formed.
-/

namespace RenderTree

open RenderTree.Text

/-! ### Files that were read -/

/-- Files are read down to the bound on the depth, if there is one. -/
theorem reads_iff {o : WalkOptions} {depth : Nat} :
    o.reads depth = true ↔ ∀ k, o.scanDepth = some k → depth ≤ k.val := by
  rw [WalkOptions.reads]
  cases o.scanDepth with
  | none => simp
  | some k => simp

/-- What a file renders is detected in its text. -/
theorem scan_eq_ok_iff {w : Walker} {l : Path} {used : List Binding} :
    w.scan l = .ok used ↔
      ∃ bytes text m, w.read l.text = .ok bytes ∧ decode bytes = .ok text ∧
        w.parse (unixLines text) = .ok m ∧
        used = m.usedComponents m.imports w.options.markupLibrary := by
  rw [Walker.scan]
  cases hb : w.read l.text with
  | error t => simp
  | ok bytes =>
    cases ht : decode bytes with
    | error f => simp [ht]
    | ok text =>
      cases hm : w.parse (unixLines text) with
      | error e => simp [ht, hm]
      | ok m => simp [ht, hm, eq_comm]

namespace Walker

variable {w : Walker} {l : Path} {above : List Path} {depth : Nat} {b : Binding}
  {c : Component} {errors : List ScanError}

/-- The children of a component carry, in order, the local names and the specifiers of the bindings
that its file renders. -/
def Renders (w : Walker) (c : Component) : Prop :=
  ∃ l bytes text m, c.facts.path = some l ∧ w.read l.text = .ok bytes ∧
    decode bytes = .ok text ∧ w.parse (unixLines text) = .ok m ∧
    c.labels = (m.usedComponents m.imports w.options.markupLibrary).map
      (fun b => (Text.ofString b.localName, some (Text.ofString b.specifier)))

/-- What is known of a component fits what became of it. -/
def Fits (w : Walker) (c : Component) : Prop :=
  match c.facts.status with
  | .pending => False
  | .scanned => c.facts.hidden = false ∧
    (∀ k, w.options.scanDepth = some k → c.facts.depth ≤ k.val) ∧ w.Renders c
  | .resolved => c.facts.path.isSome ∧ c.children = [] ∧ c.facts.hidden = false ∧
    ∃ k, w.options.scanDepth = some k ∧ c.facts.depth = k.val + 1
  | .unresolved => c.facts.path = none ∧ c.children = [] ∧
    c.facts.hidden = w.options.hideThirdParty
  | .cycle => c.facts.path.isSome ∧ c.children = [] ∧ c.facts.hidden = false

/-! ### Exits fit -/

/-- A component has the name and the specifier of its binding. -/
theorem Exit.label_eq (h : w.Exit l above depth b c errors) :
    (c.facts.name, c.facts.specifier) =
      (Text.ofString b.localName, some (Text.ofString b.specifier)) := by
  cases h <;> rfl

/-- An opened file's tree renders what the file does. -/
theorem Opened.renders (h : w.Opened l above c) : w.Renders c := by
  obtain ⟨used, hs, hcs⟩ := h.children
  obtain ⟨bytes, text, m, hb, ht, hm, rfl⟩ := scan_eq_ok_iff.1 hs
  refine ⟨l, bytes, text, m, h.path, hb, ht, hm, ?_⟩
  rw [Component.labels, hcs, List.map_map]
  apply List.map_congr_left
  intro b _
  exact (w.exit_component l above (c.facts.depth + 1) b).label_eq

/-- The tree of an opened file fits if the file does not lie too deep. -/
theorem Opened.fits (h : w.Opened l above c) (hd : w.options.reads c.facts.depth = true) :
    w.Fits c := by
  rw [Fits, h.status]
  exact ⟨h.shown, reads_iff.1 hd, h.renders⟩

/-- A component that was not opened fits if it lies no deeper than one below the bound. -/
theorem Exit.fits (h : w.Exit l above depth b c errors) (hc : c.facts.status ≠ .scanned)
    (hd : ∀ k, w.options.scanDepth = some k → depth ≤ k.val + 1) : w.Fits c := by
  cases h with
  | missing | faulty => exact ⟨rfl, rfl, rfl⟩
  | cycle => exact ⟨rfl, rfl, rfl⟩
  | beyond found new deep =>
    refine ⟨rfl, rfl, rfl, ?_⟩
    rw [← Bool.not_eq_true, reads_iff] at deep
    push Not at deep
    obtain ⟨k, hk, hlt⟩ := deep
    exact ⟨k, hk, Nat.le_antisymm (hd k hk) hlt⟩
  | opened => exact absurd rfl hc

end Walker

/-! ### Trees -/

/-- The tree of a walk is as it should be. -/
structure Walked.WellFormed (t : Walked) (w : Walker) : Prop where
  /-- The root is the scanned component that nothing renders. -/
  root : t.root.facts.depth = 0 ∧ t.root.facts.specifier = none ∧
    t.root.facts.status = .scanned ∧ t.root.facts.hidden = false
  /-- Children lie one below their parent, which was scanned. -/
  child : ∀ p ∈ t.root.nodes, ∀ c ∈ p.children,
    c.facts.depth = p.facts.depth + 1 ∧ p.facts.status = .scanned
  /-- What is known of each component fits what became of it. -/
  node : ∀ c ∈ t.root.nodes, w.Fits c

section Walk

variable {w : Walker} {root : Path} {t : Walked}
  {c : Component} {above : List Component}

/-- No scanned component of a walk lies too deep. -/
theorem branch_reads (h : w.walk root = .ok t) (hb : t.root.Branch c above)
    (hc : c.facts.status = .scanned) : w.options.reads c.facts.depth = true := by
  cases hb with
  | root =>
    rw [branch_depth h .root, reads_iff]
    exact fun k _ => Nat.zero_le k.val
  | child hp hm =>
    obtain ⟨l, ls, b, used, errors, -, -, -, hx⟩ := branch_exit h (.child hp hm)
    rw [hx.depth_eq]
    cases hx with
    | missing | cycle | beyond | faulty => cases hc
    | opened found new near => exact near

/-- What is known of a component of a walk fits what became of it. -/
theorem branch_fits (h : w.walk root = .ok t) (hb : t.root.Branch c above) : w.Fits c := by
  by_cases hc : c.facts.status = .scanned
  · obtain ⟨l, ls, hl⟩ := branch_onWay h hb hc
    exact hl.fits (branch_reads h hb hc)
  · cases hb with
    | root =>
      obtain ⟨l, -, -, hl⟩ := walk_onWay_root h
      exact absurd hl.status hc
    | child hp hm =>
      obtain ⟨l, ls, b, used, errors, hl, -, -, hx⟩ := branch_exit h (.child hp hm)
      apply hx.fits hc
      -- Its parent was opened, so that does not lie below the bound.
      intro k hk
      have hnear := reads_iff.1 (branch_reads h hp hl.status) k hk
      rw [branch_depth h hp] at hnear
      exact Nat.succ_le_succ hnear

/-- **Well-formed trees.** In every tree that a walk finds what is known of a component fits what
became of it. -/
theorem walk_wellFormed (w : Walker) (root : Path) (t : Walked)
    (h : w.walk root = .ok t) : t.WellFormed w where
  root := by
    obtain ⟨l, -, hfacts, -⟩ := walk_onWay_root h
    rw [hfacts]
    exact ⟨rfl, rfl, rfl, rfl⟩
  child := by
    intro p hp c hc
    obtain ⟨above, hb⟩ := Component.mem_nodes_iff.1 hp
    obtain ⟨l, ls, hl⟩ := branch_onWay_of_mem h hb hc
    refine ⟨?_, hl.status⟩
    rw [branch_depth h (.child hb hc), branch_depth h hb, List.length_cons]
  node := by
    intro c hc
    obtain ⟨above, hb⟩ := Component.mem_nodes_iff.1 hc
    exact branch_fits h hb

/-- The tree of a project with a cycle is well-formed. -/
theorem cyclicProject_wellFormed :
    ∃ t, cyclicProject.walk (Path.ofText "App") = .ok t ∧ t.WellFormed cyclicProject := by
  obtain ⟨t, ht⟩ := cyclicProject_walk
  exact ⟨t, ht, walk_wellFormed cyclicProject (Path.ofText "App") t ht⟩

end Walk

end RenderTree
