import RenderTree.Proofs.Walk.Errors

/-!
# The bound on the depth

A walk that reads files down to a depth only finds the tree of the walk without that bound, cut one
level below it. There it still looks components up and knows cycles, but opens no file, and so it
does not know which of them cannot be read.

* `Walker.leaf`, `Walker.cut` — a component whose file is not opened, and a tree cut below a level.
* `component_trim`, `walk_alike_cut` — what the bound makes of a component, and of a walk.
* `Walked.IsCut` — what it is to be such a cut, component by component.
* `walk_isCut` — the two walks fail alike, or one finds a cut of what the other finds.
-/

namespace RenderTree

namespace Walker

variable {w : Walker} {l : Path} {above : List Path} {depth n : Nat} {b : Binding}
  {c p : Component} {k : Depth} {errors : List ScanError}

/-! ### Cutting trees -/

/-- The walker that reads files at every depth. -/
def unbounded (w : Walker) : Walker :=
  { w with options := { w.options with scanDepth := none } }

/-- The walker that reads files down to the depth `k` only. -/
def bounded (w : Walker) (k : Depth) : Walker :=
  { w with options := { w.options with scanDepth := some k } }

/-- What `c`, which `p` renders, is found to be if its file is not opened. -/
def leaf (w : Walker) (p c : Component) : Component :=
  if c.facts.status = .cycle then .node c.facts []
  else
    match w.target p c with
    | none => w.unresolved { c.facts with path := none }
    | some l =>
      .node { c.facts with path := some l, status := .resolved, hidden := false } []

/-- The tree of `c`, which `p` renders, with `n` full levels and then one of leaves. -/
def trim (w : Walker) : Nat → Component → Component → Component
  | 0, p, c => w.leaf p c
  | n + 1, _, c => .node c.facts (c.children.map (trim w n c))

/-- The tree of a root with `n` full levels below it and then one of leaves. -/
def cut (w : Walker) (n : Nat) (c : Component) : Component :=
  .node c.facts (c.children.map (w.trim n c))

/-- A leaf within the depth is left as it is. -/
theorem trim_of_children_eq_nil (h : c.children = []) : w.trim (n + 1) p c = c := by
  obtain ⟨facts, cs⟩ := c
  rw [Component.children_node] at h
  subst h
  rfl

/-- A cycle below the depth remains one. -/
theorem leaf_of_cycle (hc : c.facts.status = .cycle) : w.leaf p c = .node c.facts [] :=
  if_pos hc

/-- Any other component below the depth is as its look-up says. -/
theorem leaf_of_target (hc : c.facts.status ≠ .cycle) :
    w.leaf p c =
      match w.target p c with
      | none => w.unresolved { c.facts with path := none }
      | some l =>
        .node { c.facts with path := some l, status := .resolved, hidden := false } [] :=
  if_neg hc

/-- The fault of the component at the end of an edge, if it does not lie too deep. -/
def faultWithin (w : Walker) (k : Nat) (e : Component × Component) : Option ScanError :=
  if e.2.facts.depth ≤ k then w.fault? e else none

/-- The faults within the bound of the tree of `c`, which `p` renders. -/
def faultsWithin (w : Walker) (k : Nat) (p c : Component) : List ScanError :=
  ((p, c) :: c.edges).filterMap (w.faultWithin k)

/-- The faults below a scanned component are those at its edges. -/
theorem faultsWithin_of_scanned (hc : c.facts.status = .scanned) :
    w.faultsWithin n p c = c.edges.filterMap (w.faultWithin n) := by
  have hnone : w.fault? (p, c) = none := fault?_of_status (by simp [hc])
  rw [faultsWithin, List.filterMap_cons_none]
  rw [faultWithin, hnone, ite_self]

/-- The fault of a leaf within the depth is its own. -/
theorem faultsWithin_of_children_eq_nil (hcs : c.children = []) (hd : c.facts.depth ≤ n) :
    w.faultsWithin n p c = (w.fault? (p, c)).toList := by
  have hedges : c.edges = [] := by rw [Component.edges_eq, hcs, Component.edgesTo]
  have hfault : w.faultWithin n (p, c) = w.fault? (p, c) := if_pos hd
  rw [faultsWithin, hedges, List.filterMap_cons, hfault]
  cases w.fault? (p, c) <;> rfl

/-! ### One component, with and without the bound -/

/-- A component below the bound on the depth is found without opening its file. -/
theorem component_beyond (hw : w.options.scanDepth = none) (hp : p.facts.path = some l) :
    (w.bounded k).component l above (k.val + 1) b =
      (w.leaf p (w.component l above (k.val + 1) b).1, []) := by
  have hx := w.exit_component l above (k.val + 1) b
  generalize w.component l above (k.val + 1) b = r at hx ⊢
  obtain ⟨c, errors⟩ := r
  have ht := hx.target_eq hp
  have hdeep : (w.bounded k).options.reads (k.val + 1) = false :=
    decide_eq_false (Nat.not_succ_le_self _)
  -- Whatever becomes of the component without a bound, one level below it only the look-up counts.
  cases hx with
  | missing found =>
    rw [leaf_of_target (by simp), ht, found]
    exact Exit.component_eq (.missing found)
  | cycle found onWay =>
    rw [leaf_of_cycle rfl]
    exact Exit.component_eq (.cycle found onWay)
  | beyond found new deep =>
    rw [reads_of_unbounded hw] at deep
    cases deep
  | @faulty next fault found new near scanned =>
    rw [leaf_of_target (by simp), ht, found]
    exact Exit.component_eq (.beyond found new hdeep)
  | @opened next used found new near scanned =>
    rw [leaf_of_target (by simp), ht, found]
    exact Exit.component_eq (.beyond found new hdeep)

/-- A component within the bound that was not opened is found alike. -/
theorem component_within (hw : w.options.scanDepth = none) (hd : depth ≤ k.val)
    (h : w.Exit l above depth b c errors) (hc : c.facts.status ≠ .scanned) :
    (w.bounded k).component l above depth b = (c, errors) := by
  have hnear : (w.bounded k).options.reads depth = true := decide_eq_true hd
  apply Exit.component_eq
  cases h with
  | missing found => exact .missing found
  | cycle found onWay => exact .cycle found onWay
  | beyond found new deep =>
    rw [reads_of_unbounded hw] at deep
    cases deep
  | faulty found new near scanned => exact .faulty found new hnear scanned
  | opened => exact absurd rfl hc

/-- The components below one that was handled lie deeper than it. -/
theorem depth_lt_of_mem_edges (w : Walker) (l : Path) (above : List Path) :
    ∀ depth b, ∀ e ∈ (w.component l above depth b).1.edges, depth < e.2.facts.depth := by
  induction l, above using w.way_induction with
  | step l above ih =>
    intro depth b e he
    have hx := w.exit_component l above depth b
    generalize w.component l above depth b = r at hx he
    obtain ⟨c, errors⟩ := r
    obtain ⟨d, hd, he⟩ := Component.mem_edges.1 he
    cases hx with
    -- Only an opened component has edges below it.
    | missing | cycle | beyond | faulty => simp at hd
    | @opened next used found new near scanned =>
      rw [Component.children_node, components_eq, List.mem_map] at hd
      obtain ⟨b', -, rfl⟩ := hd
      rcases he with rfl | he
      · rw [(w.exit_component next (l :: above) (depth + 1) b').depth_eq]
        exact Nat.lt_succ_self depth
      · have := ih next ⟨used, scanned⟩ new (depth + 1) b' e he
        omega

/-- No faults are within the bound below a component that lies too deep itself. -/
theorem faultsWithin_eq_nil (hd : n < depth) :
    w.faultsWithin n p (w.component l above depth b).1 = [] := by
  rw [faultsWithin, List.filterMap_eq_nil_iff]
  intro e he
  apply if_neg
  rcases List.mem_cons.1 he with rfl | he
  · rw [(w.exit_component l above depth b).depth_eq]
    omega
  · have := w.depth_lt_of_mem_edges l above depth b e he
    omega

/-! ### Trees with and without the bound -/

/-- What is found below a file is trimmed if that is so of each of its components. -/
theorem components_trim (facts : Facts) (used : List Binding)
    (h : ∀ b, ∀ p : Component, p.facts = facts →
      (w.bounded k).component l above depth b =
        (w.trim n p (w.component l above depth b).1,
          w.faultsWithin k.val p (w.component l above depth b).1)) :
    (w.bounded k).components l above depth used =
      ((w.components l above depth used).1.map
          (w.trim n (.node facts (w.components l above depth used).1)),
        (Component.node facts (w.components l above depth used).1).edges.filterMap
          (w.faultWithin k.val)) := by
  apply Prod.ext
  · conv_rhs => rw [components_eq]
    rw [components_eq, List.map_map]
    apply List.map_congr_left
    intro b _
    exact congrArg Prod.fst (h b (.node facts _) rfl)
  · apply components_errors_eq
    intro b _
    exact congrArg Prod.snd (h b (.node facts _) rfl)

/-- **One component.** A component is found as without the bound, but with its tree trimmed, and
with the errors within the bound. -/
theorem component_trim (hw : w.options.scanDepth = none) (k : Depth) (l : Path)
    (above : List Path) :
    ∀ n depth, depth + n = k.val + 1 → ∀ b, ∀ p : Component, p.facts.path = some l →
      (w.bounded k).component l above depth b =
        (w.trim n p (w.component l above depth b).1,
          w.faultsWithin k.val p (w.component l above depth b).1) := by
  induction l, above using w.way_induction with
  | step l above ih =>
    intro n depth hn b p hp
    -- The bound is met where no full level is left.
    cases n with
    | zero =>
      have hd : depth = k.val + 1 := hn
      rw [hd, faultsWithin_eq_nil (Nat.lt_succ_self _)]
      exact component_beyond hw hp
    | succ n =>
      have hd : depth ≤ k.val := by omega
      have hx := w.exit_component l above depth b
      generalize w.component l above depth b = r at hx ⊢
      obtain ⟨c, errors⟩ := r
      by_cases hc : c.facts.status = .scanned
      · cases hx with
        | missing | cycle | beyond | faulty => cases hc
        | @opened next used found new near scanned =>
          have hnear : (w.bounded k).options.reads depth = true := decide_eq_true hd
          have hopened : (w.bounded k).component l above depth b = _ :=
            Exit.component_eq (.opened found new hnear scanned)
          have hbelow := components_trim
            { fresh depth b with path := some next, status := .scanned } used
            (fun b' p' hp' => ih next ⟨used, scanned⟩ new n (depth + 1)
              (by omega) b' p' (congrArg Facts.path hp'))
          rw [hopened, hbelow, faultsWithin_of_scanned rfl]
          rfl
      · have hcs := hx.children_eq_nil hc
        have hcd : c.facts.depth ≤ k.val := by rw [hx.depth_eq]; exact hd
        rw [component_within hw hd hx hc, trim_of_children_eq_nil hcs,
          faultsWithin_of_children_eq_nil hcs hcd, hx.errors_eq hp hc]

/-! ### Positions in a cut tree -/

@[simp] theorem facts_cut (w : Walker) (n : Nat) (c : Component) : (w.cut n c).facts = c.facts :=
  rfl

/-- Nothing is below the depth. -/
theorem children_leaf (w : Walker) (p c : Component) : (w.leaf p c).children = [] := by
  rw [leaf]
  split
  · rfl
  · split <;> rfl

/-- Below the depth components keep their names and specifiers. -/
theorem label_leaf (w : Walker) (p c : Component) : (w.leaf p c).facts.name = c.facts.name ∧
    (w.leaf p c).facts.specifier = c.facts.specifier := by
  rw [leaf]
  split
  · exact ⟨rfl, rfl⟩
  · split <;> exact ⟨rfl, rfl⟩

/-- Down to the last full level a cut tree has the same positions, with cuts of what is there. -/
theorem at?_cut (w : Walker) {pos : List Nat} {n : Nat} (h : pos.length ≤ n) (c : Component) :
    (w.cut n c).at? pos = (c.at? pos).map (w.cut (n - pos.length)) := by
  induction pos generalizing n c with
  | nil => rfl
  | cons i pos ih =>
    rw [List.length_cons] at h
    obtain ⟨m, rfl⟩ : ∃ m, n = m + 1 := ⟨n - 1, by omega⟩
    have hcs : (w.cut (m + 1) c).children = c.children.map (w.cut m) := rfl
    rw [Component.at?_cons, Component.at?_cons, hcs, List.getElem?_map, List.length_cons,
      Nat.add_sub_add_right]
    cases c.children[i]? with
    | none => rfl
    | some d => exact ih (by omega) d

/-- One below the last full level a cut tree has the same positions, each with a leaf. -/
theorem at?_cut_append (w : Walker) (pos : List Nat) (i : Nat) (c : Component) :
    (w.cut pos.length c).at? (pos ++ [i]) =
      (c.at? pos).bind fun p => p.children[i]?.map (w.leaf p) := by
  rw [Component.at?_append, w.at?_cut (Nat.le_refl _), Nat.sub_self]
  cases c.at? pos with
  | none => rfl
  | some p =>
    rw [Option.map_some, Option.bind_some, Component.at?_singleton, Option.bind_some]
    exact List.getElem?_map

/-- There are no positions further down. -/
theorem length_le_of_at?_cut {pos : List Nat} (h : (w.cut n c).at? pos = some p) :
    pos.length ≤ n + 1 := by
  induction pos generalizing n c with
  | nil => exact Nat.zero_le _
  | cons i pos ih =>
    rw [Component.at?_cons] at h
    obtain ⟨d, hd, hp⟩ := Option.bind_eq_some_iff.1 h
    cases n with
    | zero =>
      -- The component at the first number is a leaf, so there cannot be a second one.
      have hcs : (w.cut 0 c).children = c.children.map (w.leaf c) := rfl
      rw [hcs, List.getElem?_map] at hd
      obtain ⟨e, -, rfl⟩ := Option.map_eq_some_iff.1 hd
      cases pos with
      | nil => exact Nat.le_refl 1
      | cons j pos =>
        rw [Component.at?_cons, children_leaf] at hp
        cases hp
    | succ m =>
      have hcs : (w.cut (m + 1) c).children = c.children.map (w.cut m) := rfl
      rw [hcs, List.getElem?_map] at hd
      obtain ⟨e, -, rfl⟩ := Option.map_eq_some_iff.1 hd
      exact Nat.succ_le_succ (ih hp)

/-- The positions of a cut tree are those of the tree down to one below the last full level. -/
theorem isSome_at?_cut_iff {pos : List Nat} :
    ((w.cut n c).at? pos).isSome ↔ pos.length ≤ n + 1 ∧ (c.at? pos).isSome := by
  -- The position ends in a full level, in the level of leaves or below it.
  rcases Nat.lt_trichotomy pos.length (n + 1) with hlt | heq | hgt
  · rw [w.at?_cut (Nat.le_of_lt_succ hlt), Option.isSome_map]
    exact ⟨fun h => ⟨hlt.le, h⟩, And.right⟩
  · obtain ⟨rest, i, rfl⟩ : ∃ rest i, pos = rest ++ [i] := by
      have hne : pos ≠ [] := by rintro rfl; cases heq
      exact ⟨pos.dropLast, pos.getLast hne, (List.dropLast_append_getLast hne).symm⟩
    rw [List.length_append, List.length_singleton, Nat.add_right_cancel_iff] at heq
    subst heq
    rw [w.at?_cut_append, Component.at?_append]
    cases c.at? rest with
    | none => simp
    | some p => simp [Component.at?_singleton]
  · constructor
    · intro h
      obtain ⟨p, hp⟩ := Option.isSome_iff_exists.1 h
      exact absurd (length_le_of_at?_cut hp) (by omega)
    · intro h
      omega

/-- A cut changes no name and no specifier. -/
theorem labels_cut (w : Walker) (n : Nat) (c : Component) : (w.cut n c).labels = c.labels := by
  rw [Component.labels, Component.labels, cut, Component.children_node, List.map_map]
  apply List.map_congr_left
  intro d _
  cases n with
  | zero => exact Prod.ext (w.label_leaf c d).1 (w.label_leaf c d).2
  | succ m => rfl

/-! ### Leaves -/

/-- The component `c`, which `p` renders, is what is found of `c'` without opening its file. -/
structure IsLeaf (w : Walker) (p c c' : Component) : Prop where
  children : c.children = []
  label : c.facts.name = c'.facts.name ∧ c.facts.specifier = c'.facts.specifier
  /-- It is a cycle exactly if the other one is. -/
  cycle : c.facts.status = .cycle ↔ c'.facts.status = .cycle
  /-- It is unresolved exactly if it has no file. -/
  unresolved : c.facts.status = .unresolved ↔ w.target p c = none
  /-- Otherwise it is resolved. -/
  resolved : c.facts.status = .resolved ↔ c.facts.status ≠ .cycle ∧ w.target p c ≠ none
  /-- Its path is that of its file. -/
  path : c.facts.path = w.target p c

/-- What is left of a component that was handled is a cycle, unresolved or resolved. -/
theorem Exit.leaf_cases (h : w.Exit l above depth b c errors) (hp : p.facts.path = some l) :
    (∃ next, c.facts.status = .cycle ∧ w.target p c = some next ∧
      (w.leaf p c).facts.status = .cycle ∧ (w.leaf p c).facts.path = some next) ∨
    (c.facts.status ≠ .cycle ∧ w.target p c = none ∧
      (w.leaf p c).facts.status = .unresolved ∧ (w.leaf p c).facts.path = none) ∨
    (∃ next, c.facts.status ≠ .cycle ∧ w.target p c = some next ∧
      (w.leaf p c).facts.status = .resolved ∧ (w.leaf p c).facts.path = some next) := by
  have ht := h.target_eq hp
  by_cases hc : c.facts.status = .cycle
  · cases h with
    | missing | beyond | faulty | opened => cases hc
    | @cycle next found onWay => exact .inl ⟨next, hc, ht.trans found, rfl, rfl⟩
  · right
    rw [leaf_of_target hc]
    cases hf : w.target p c with
    | none => exact .inl ⟨hc, rfl, rfl, rfl⟩
    | some next => exact .inr ⟨next, hc, rfl, rfl, rfl⟩

/-- What is left of a component that was handled is a leaf, below whatever has the same path. -/
theorem Exit.isLeaf (h : w.Exit l above depth b c errors) (hp : p.facts.path = some l)
    {q : Component} (hq : q.facts.path = some l) : w.IsLeaf q (w.leaf p c) c := by
  have hlabel := w.label_leaf p c
  have htarget : w.target q (w.leaf p c) = w.target p c := by
    rw [target, target, hlabel.2, hp, hq]
  rcases h.leaf_cases hp with
    ⟨next, hc, ht, hs, hpath⟩ | ⟨hc, ht, hs, hpath⟩ | ⟨next, hc, ht, hs, hpath⟩
  all_goals
    rw [ht] at htarget
    constructor
    · exact w.children_leaf p c
    · exact hlabel
    all_goals simp [hc, hs, hpath, htarget]

end Walker

/-! ### Walks with and without the bound -/

/-- What one walk finds is that of another one cut one level below the depth `k`. -/
structure Walked.IsCut (w : Walker) (k : Nat) (u t : Walked) : Prop where
  /-- No component lies deeper than that. -/
  bounded : ∀ c ∈ t.root.nodes, c.facts.depth ≤ k + 1
  /-- Down to there the same positions are taken. -/
  positions : ∀ pos, (t.root.at? pos).isSome ↔
    ∃ c', u.root.at? pos = some c' ∧ c'.facts.depth ≤ k + 1
  /-- Down to the depth `k` the components agree, and the names and specifiers of their children. -/
  within : ∀ {pos : List Nat} {c : Component}, t.root.at? pos = some c → c.facts.depth ≤ k →
    ∃ c', u.root.at? pos = some c' ∧ c.facts = c'.facts ∧ c.labels = c'.labels
  /-- Below it the components are leaves. -/
  leaves : ∀ {pos : List Nat} {i : Nat} {p c : Component}, t.root.at? pos = some p →
    p.children[i]? = some c → c.facts.depth = k + 1 →
    ∃ c', u.root.at? (pos ++ [i]) = some c' ∧ w.IsLeaf p c c'
  /-- The errors of the one are the faults of its tree, and those of the other the ones down to the
  depth `k`. -/
  errors : u.errors = u.root.edges.filterMap w.fault? ∧
    t.errors = (u.root.edges.filter (fun e => e.2.facts.depth ≤ k)).filterMap w.fault?

section Walk

variable {w : Walker} {root : Path} {t u : Walked}
  {c p : Component} {pos : List Nat} {i : Nat} {k : Depth}

/-- The depth of a component of a walk is the length of its position. -/
theorem depth_of_at? (h : w.walk root = .ok t) (hc : t.root.at? pos = some c) :
    c.facts.depth = pos.length := by
  obtain ⟨above, hb, hlen⟩ := Component.branch_of_at? hc
  rw [branch_depth h hb, hlen]

/-- **The bounded walk is a cut.** It ends like the unbounded walk, whose tree it finds cut below
the bound, and whose errors it finds down to there. -/
theorem walk_alike_cut (w : Walker) (root : Path) (k : Depth) :
    Walked.Alike (fun u t => w.unbounded.walk root = .ok u ∧ (w.bounded k).walk root = .ok t ∧
        t.root = w.unbounded.cut k.val u.root ∧
        t.errors = u.root.edges.filterMap (w.unbounded.faultWithin k.val))
      (w.unbounded.walk root) ((w.bounded k).walk root) := by
  refine walk_alike rfl (fun _ _ => rfl) ?_
  intro l used hl hs
  have hu := walk_eq_ok_iff.2 ⟨l, used, hl, hs, rfl⟩
  have ht : (w.bounded k).walk root = .ok _ := walk_eq_ok_iff.2 ⟨l, used, hl, hs, rfl⟩
  have hbelow := Walker.components_trim (w := w.unbounded)
    (Walker.rootFacts root l) used (fun b p hp =>
      Walker.component_trim rfl k l [] k.val 1 (Nat.add_comm 1 k.val) b p
        (congrArg Facts.path hp))
  refine ⟨hu, ht, ?_, congrArg Prod.snd hbelow⟩
  exact congrArg (Component.node (Walker.rootFacts root l)) (congrArg Prod.fst hbelow)

/-- The components of a bounded walk one below the bound are leaves. -/
theorem leaves_of_cut (hu : w.walk root = .ok u)
    (hp : (w.cut pos.length u.root).at? pos = some p) (hc : p.children[i]? = some c) :
    ∃ c', u.root.at? (pos ++ [i]) = some c' ∧ w.IsLeaf p c c' := by
  rw [Walker.at?_cut _ (Nat.le_refl _), Nat.sub_self] at hp
  obtain ⟨p', hp', rfl⟩ := Option.map_eq_some_iff.1 hp
  have hcs : (w.cut 0 p').children = p'.children.map (w.leaf p') := rfl
  rw [hcs, List.getElem?_map] at hc
  obtain ⟨c', hc', rfl⟩ := Option.map_eq_some_iff.1 hc
  -- In the unbounded tree the component was handled below a parent with the same path.
  obtain ⟨above, hb, -⟩ := Component.branch_of_at? hp'
  obtain ⟨l, ls, b, used, errors, hl, -, -, hx⟩ :=
    branch_exit hu (.child hb (List.mem_of_getElem? hc'))
  refine ⟨c', ?_, hx.isLeaf hl.path hl.path⟩
  rw [Component.at?_append, hp', Option.bind_some, Component.at?_singleton, hc']

/-- A tree that is cut, with the errors that are left, is a cut in every respect. -/
theorem isCut_of_cut {v : Walker} (hu : w.walk root = .ok u) (ht : v.walk root = .ok t)
    (hroot : t.root = w.cut k.val u.root)
    (herrors : t.errors = u.root.edges.filterMap (w.faultWithin k.val)) :
    Walked.IsCut w k.val u t where
  bounded := by
    intro c hc
    obtain ⟨above, hb⟩ := Component.mem_nodes_iff.1 hc
    obtain ⟨pos, -, hpos⟩ := hb.exists_at?
    -- The depth of a component is the length of its position.
    rw [depth_of_at? ht hpos]
    rw [hroot] at hpos
    exact Walker.length_le_of_at?_cut hpos
  positions := by
    intro pos
    rw [hroot, Walker.isSome_at?_cut_iff, Option.isSome_iff_exists]
    constructor
    · rintro ⟨hlen, c', hc'⟩
      exact ⟨c', hc', (depth_of_at? hu hc').trans_le hlen⟩
    · rintro ⟨c', hc', hd⟩
      exact ⟨(depth_of_at? hu hc').symm.trans_le hd, c', hc'⟩
  within := by
    intro pos c hc hd
    rw [depth_of_at? ht hc] at hd
    rw [hroot, Walker.at?_cut _ hd] at hc
    obtain ⟨c', hc', rfl⟩ := Option.map_eq_some_iff.1 hc
    exact ⟨c', hc', Walker.facts_cut .., Walker.labels_cut ..⟩
  leaves := by
    intro pos i p c hp hc hd
    have hpos : t.root.at? (pos ++ [i]) = some c := by
      rw [Component.at?_append, hp, Option.bind_some, Component.at?_singleton, hc]
    rw [depth_of_at? ht hpos, List.length_append, List.length_singleton,
      Nat.add_right_cancel_iff] at hd
    rw [hroot, ← hd] at hp
    exact leaves_of_cut hu hp hc
  errors := by
    refine ⟨walk_errors hu, ?_⟩
    rw [herrors, List.filterMap_filter]
    simp only [decide_eq_true_eq]
    rfl

/-- **Bounded walks.** With a bound on the depth a walk fails as without it, or finds a tree which
is that of the unbounded walk, cut one level below the bound. -/
theorem walk_isCut (w : Walker) (root : Path) (k : Depth) :
    Walked.Alike (Walked.IsCut w.unbounded k.val) (w.unbounded.walk root)
      ((w.bounded k).walk root) := by
  apply (walk_alike_cut w root k).imp
  rintro u t ⟨hu, ht, hroot, herrors⟩
  exact isCut_of_cut hu ht hroot herrors

end Walk

end RenderTree
