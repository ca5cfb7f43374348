import RenderTree.Proofs.Tree.Map
import RenderTree.Proofs.Walk.Visit

/-!
# Trees within trees

A component is found in the course of a larger walk with more files open than if the walk began with
it. The additional files make a difference only where one of them is met again, as a cycle. Where
this does not happen, what is found below the component does not depend on where it stands.

* `Facts.sink` — what is known of a component, some levels further down.
* `Component.Misses` — no cycle of a tree leads back to one of some files.
* `component_sink` — more files on the way change nothing but the depth if no cycle leads to them.
* `Component.StaysBelow` — no cycle below a component leads back to one further up.
* `walk_compositional` — a component that stays below itself is found like a root.
-/

namespace RenderTree

/-- What is known of a component, with `k` more levels above it. -/
def Facts.sink (k : Nat) (f : Facts) : Facts :=
  { f with depth := k + f.depth }

/-- Levels can be added in any order. -/
theorem Facts.sink_comp_comm (j k : Nat) : sink j ∘ sink k = sink k ∘ sink j := by
  funext f
  simp [sink, Nat.add_left_comm]

namespace Component

/-- No cycle of the tree leads back to one of the files. -/
def Misses (c : Component) (files : List Path) : Prop :=
  ∀ e ∈ c.nodes, e.facts.status = .cycle → ∀ x ∈ files, e.facts.path ≠ some x

/-- A cycle of such a tree does not lead back to one of the files. -/
theorem Misses.path_ne {c : Component} {files : List Path} {x : Path} (h : c.Misses files)
    (hc : c.facts.status = .cycle) (hx : x ∈ files) : c.facts.path ≠ some x := by
  apply h c _ hc x hx
  rw [nodes_eq_preorder, preorder_eq]
  exact List.mem_cons_self

/-- What holds of a tree holds below each child. -/
theorem Misses.child {facts : Facts} {cs : List Component} {files : List Path}
    (h : (node facts cs).Misses files) {c : Component} (hc : c ∈ cs) : c.Misses files := by
  intro e he
  apply h e
  rw [nodes_eq_preorder] at he ⊢
  exact mem_preorder_of_mem_children hc he

/-- No cycle below the component `c` at a position leads back to a component above it. -/
def StaysBelow (root : Component) (pos : List Nat) (c : Component) : Prop :=
  ∀ e ∈ c.nodes, e.facts.status = .cycle → ∀ pre a, pre <+: pos → pre ≠ pos →
    root.at? pre = some a → e.facts.path ≠ a.facts.path

end Component

namespace Walker

variable {w : Walker} {l : Path} {above files : List Path} {depth k : Nat}
  {bs : List Binding} {facts : Facts}

/-! ### More files on the way -/

/-- The component of a binding is found with additional files on the way as it is found without, only
further down, and with the same errors. -/
def Sinks (w : Walker) (l : Path) (above files : List Path) (k depth : Nat) (b : Binding) :
    Prop :=
  w.component l (above ++ files) (k + depth) b =
    ((w.component l above depth b).1.map (Facts.sink k), (w.component l above depth b).2)

/-- What a file renders is found alike with more files on the way if each component of it is and no
cycle leads to the additional files. -/
theorem components_sink_of
    (hcomponent : ∀ b, (w.component l (above ++ files) (k + depth) b).1.Misses files →
      w.Sinks l above files k depth b)
    (hmisses : (Component.node facts
      (w.components l (above ++ files) (k + depth) bs).1).Misses files) :
    w.components l (above ++ files) (k + depth) bs =
      ((w.components l above depth bs).1.map (Component.map (Facts.sink k)),
        (w.components l above depth bs).2) := by
  apply components_map
  intro b hb
  apply hcomponent b
  apply hmisses.child
  rw [components_eq]
  exact List.mem_map.2 ⟨b, hb, rfl⟩

/-- **More files on the way.** If no cycle leads to them, a component is found with additional files
on the way as it is found without, only further down, and with the same errors. -/
theorem component_sink (hw : w.options.scanDepth = none) (files : List Path) (k : Nat)
    (l : Path) (above : List Path) :
    ∀ depth b, (w.component l (above ++ files) (k + depth) b).1.Misses files →
      w.Sinks l above files k depth b := by
  induction l, above using w.way_induction with
  | step l above ih =>
    intro depth b hmisses
    have hx := w.exit_component l (above ++ files) (k + depth) b
    have near := reads_of_unbounded hw depth
    rw [Sinks]
    generalize w.component l (above ++ files) (k + depth) b = r at hx hmisses ⊢
    obtain ⟨c, errors⟩ := r
    -- It leaves by the same exit without the additional files.
    cases hx with
    | missing found =>
      have hsmall : w.component l above depth b = _ := Exit.component_eq (.missing found)
      rw [hsmall]
      rfl
    | @cycle next found onWay =>
      have honWay : next ∈ l :: above := by
        rw [← List.cons_append, List.mem_append] at onWay
        rcases onWay with h | h
        · exact h
        · -- Otherwise the cycle leads to an additional file.
          exact absurd rfl (hmisses.path_ne rfl h)
      have hsmall : w.component l above depth b = _ := Exit.component_eq (.cycle found honWay)
      rw [hsmall]
      rfl
    | @beyond next found new deep =>
      rw [reads_of_unbounded hw] at deep
      cases deep
    | @faulty next fault found new _ scanned =>
      have hnew : next ∉ l :: above := fun h => new (List.mem_append_left files h)
      have hsmall : w.component l above depth b = _ :=
        Exit.component_eq (.faulty found hnew near scanned)
      rw [hsmall]
      rfl
    | @opened next used found new _ scanned =>
      have hnew : next ∉ l :: above := fun h => new (List.mem_append_left files h)
      have hsmall : w.component l above depth b = _ :=
        Exit.component_eq (.opened found hnew near scanned)
      have hcomponent := ih next ⟨used, scanned⟩ hnew (depth + 1)
      have hbelow : w.components next (l :: (above ++ files)) (k + depth + 1) used = _ :=
        components_sink_of hcomponent hmisses
      rw [hsmall, hbelow, Component.map_node]
      rfl

/-! ### A component like a root -/

variable {s : Session} {r c : Component} {pos : List Nat} {f : Frame} {outer : List Frame}

/-- Where a component that stays below itself is entered, what its file renders is found like what
that of a root renders. -/
theorem EntersAt.components_eq_sink (h : w.EntersAt r pos c s f outer)
    (hw : w.options.scanDepth = none) (hc : r.StaysBelow pos c) :
    w.components f.file (outer.map Frame.file) (f.depth + 1) f.todo =
      ((w.components f.file [] 1 f.todo).1.map (Component.map (Facts.sink f.depth)),
        (w.components f.file [] 1 f.todo).2) := by
  -- The files that are open in addition are those of the components further up.
  have hmisses : c.Misses (outer.map Frame.file) := by
    intro e he hcycle x hx
    obtain ⟨pre, a, hpre, hne, ha, hpath⟩ := h.above x hx
    rw [← hpath]
    exact hc e he hcycle pre a hpre hne ha
  rw [h.tree] at hmisses
  have hcomponent := component_sink hw (outer.map Frame.file) f.depth f.file [] 1
  exact components_sink_of hcomponent hmisses

end Walker

/-! ### A project -/

/-- A project in which the root renders a menu that renders itself, besides a file at fault. -/
def menuProject : Walker where
  disk := ⟨[topFile "R.js" "import React from 'r';import M from './M';<M/>" (by decide),
    topFile "M.js" "import React from 'r';import M from './M';import T from './T';<M><T/></M>"
      (by decide),
    topFile "T.js" "<" (by decide)]⟩
  cwd := .root

namespace menuProject

/-- The file of the root. -/
def rootFile : Path := .ofText "/R.js"

/-- The file of the menu. -/
def menu : Path := .ofText "/M.js"

/-- The file at fault. -/
def torn : Path := .ofText "/T.js"

/-- There is no link in the project. -/
theorem linkless : menuProject.disk.Linkless := by
  simp [Disk.Linkless, menuProject, topFile]

/-- The root of the project has its file. -/
theorem resolve_root : menuProject.resolve (Path.ofText "R").text none = some rootFile := by
  rw [Walker.resolve, linkless.resolve_eq]
  decide +kernel

/-- So has the menu. -/
theorem resolve_menu : menuProject.resolve (Path.ofText "M").text none = some menu := by
  rw [Walker.resolve, linkless.resolve_eq]
  decide +kernel

/-- What the project renders is looked up among its files. -/
theorem lookUp_eq :
    menuProject.lookUp rootFile ⟨"M", "./M"⟩ = some menu ∧
      menuProject.lookUp menu ⟨"M", "./M"⟩ = some menu ∧
      menuProject.lookUp menu ⟨"T", "./T"⟩ = some torn := by
  simp only [Walker.lookUp, Walker.resolve, linkless.resolve_eq]
  decide +kernel

/-- The root renders the menu. -/
theorem scan_root : menuProject.scan rootFile = .ok [⟨"M", "./M"⟩] :=
  scan_eq_ok_of_toOption (by decide +kernel)

/-- The menu renders itself and a file that is torn. -/
theorem scan_menu : menuProject.scan menu = .ok [⟨"M", "./M"⟩, ⟨"T", "./T"⟩] :=
  scan_eq_ok_of_toOption (by decide +kernel)

/-- The torn file cannot be read. -/
theorem scan_torn : ∃ fault, menuProject.scan torn = .error fault := by
  cases h : menuProject.scan torn with
  | error fault => exact ⟨fault, rfl⟩
  | ok used =>
    have hnone : (menuProject.scan torn).toOption = none := by decide +kernel
    rw [h] at hnone
    cases hnone

/-- The tree of the menu: one of its children leads back to it, the other is at fault. -/
def menuTree : Component :=
  .node ⟨"M", some "./M", some menu, 1, false, .scanned⟩
    [.node ⟨"M", some "./M", some menu, 2, false, .cycle⟩ [],
      .node ⟨"T", some "./T", none, 2, false, .unresolved⟩ []]

/-- The menu below the root. -/
theorem component_menu : (menuProject.component rootFile [] 1 ⟨"M", "./M"⟩).1 = menuTree := by
  obtain ⟨fault, hfault⟩ := scan_torn
  obtain ⟨hmenu, hagain, htorn⟩ := lookUp_eq
  have hopened : menuProject.component rootFile [] 1 ⟨"M", "./M"⟩ = _ :=
    Walker.Exit.component_eq (.opened hmenu (by decide +kernel) rfl scan_menu)
  have hcycle : menuProject.component menu [rootFile] 2 ⟨"M", "./M"⟩ = _ :=
    Walker.Exit.component_eq (.cycle hagain List.mem_cons_self)
  have hfaulty : menuProject.component menu [rootFile] 2 ⟨"T", "./T"⟩ = _ :=
    Walker.Exit.component_eq (.faulty htorn (by decide +kernel) rfl hfault)
  rw [hopened, Walker.components_eq, List.map_cons, List.map_cons, hcycle, hfaulty]
  rfl

/-- The tree of the root. -/
theorem walk_root : ∃ t, menuProject.walk (Path.ofText "R") = .ok t ∧
    t.root = .node (Walker.rootFacts (Path.ofText "R") rootFile) [menuTree] := by
  refine ⟨_, walk_eq_ok_iff.2 ⟨rootFile, _, resolve_root, scan_root, rfl⟩, ?_⟩
  show Component.node _ (menuProject.components rootFile [] 1 [⟨"M", "./M"⟩]).1 = _
  rw [Walker.components_eq, List.map_singleton, component_menu]

/-- The only cycle in the tree of the menu leads to the menu. -/
theorem path_of_cycle {e : Component} (he : e ∈ menuTree.nodes) (hc : e.facts.status = .cycle) :
    e.facts.path = some menu := by
  simp only [Component.nodes_eq_preorder, menuTree, Component.preorder, Component.preorders,
    List.append_nil, List.cons_append, List.nil_append, List.mem_cons, List.not_mem_nil,
    or_false] at he
  rcases he with rfl | rfl | rfl
  · cases hc
  · rfl
  · cases hc

end menuProject

/-! ### Whole walks -/

section Walk

variable {w : Walker} {root l : Path} {t : Walked} {c : Component} {pos : List Nat}

/-- What the file of a scanned component renders is, if it stays below itself, what is found below a
root with that file, only further down; and the errors found below the root are recorded in the
visit of the component, and are among those of the walk. -/
theorem children_eq_sink (hw : w.options.scanDepth = none) (ht : w.walk root = .ok t)
    (hc : t.root.at? pos = some c) (hscanned : c.facts.status = .scanned)
    (hbelow : t.root.StaysBelow pos c) (hpath : c.facts.path = some l) (past : Session) :
    ∃ used, w.scan l = .ok used ∧
      c.children = (w.components l [] 1 used).1.map
        (Component.map (Facts.sink c.facts.depth)) ∧
      ∃ s s', w.Visits past root pos c s s' ∧
        s'.errors = s.errors ++ (w.components l [] 1 used).2 ∧
        s'.errors <+: t.errors := by
  obtain ⟨s, f, outer, hr, he⟩ := Walker.at?_entered ht past hc hscanned
  obtain ⟨s', hv, herrors⟩ := he.exists_visits hr
  -- Below the node nothing of the way above it is met again, so that way may be forgotten.
  have hsink := he.components_eq_sink hw hbelow
  have htree := he.tree
  rw [hsink] at htree herrors
  have hfile : f.file = l := by
    rw [htree] at hpath
    exact Option.some.inj hpath
  subst hfile
  refine ⟨f.todo, he.scanned, ?_, s, s', hv, herrors,
    Walker.errors_prefix_walk ht (hv.entered.trans hv.done)⟩
  rw [htree]
  rfl

/-- **Compositionality.** In a walk without a bound on the depth, let no cycle below a scanned
component lead back to one above it. Then every walk from a root that resolves to the component's path
succeeds. Below that root it finds what is below the component, which differs in nothing but the
depth, greater by that of the component; and the errors that it lists are those recorded between the
moments when the larger walk enters the component and when it is done with it. So two such components
with one path have the same below them, up to the depth. -/
theorem walk_compositional (w : Walker) (root : Path)
    (hw : w.options.scanDepth = none) (t : Walked) (ht : w.walk root = .ok t) (pos : List Nat)
    (c : Component) (hc : t.root.at? pos = some c) (hscanned : c.facts.status = .scanned)
    (hbelow : t.root.StaysBelow pos c) :
    (∀ root' l, w.resolve root'.text none = some l → c.facts.path = some l →
        ∃ u, w.walk root' = .ok u ∧ u.root.facts.path = c.facts.path ∧
          c.children = u.root.children.map (Component.map (Facts.sink c.facts.depth)) ∧
          ∀ past, ∃ s s', w.Visits past root pos c s s' ∧
            s'.errors = s.errors ++ u.errors ∧ s'.errors <+: t.errors) ∧
    ∀ pos' c', t.root.at? pos' = some c' → c'.facts.status = .scanned →
      c'.facts.path = c.facts.path → t.root.StaysBelow pos' c' →
        c.children.map (Component.map (Facts.sink c'.facts.depth)) =
          c'.children.map (Component.map (Facts.sink c.facts.depth)) := by
  constructor
  · intro root' l hl hpath
    obtain ⟨used, hused, hchildren, -⟩ := children_eq_sink hw ht hc hscanned hbelow hpath {}
    refine ⟨_, walk_eq_ok_iff.2 ⟨l, used, hl, hused, rfl⟩, hpath.symm, hchildren, ?_⟩
    intro past
    obtain ⟨used', hused', -, s, s', hv, herrors, hprefix⟩ :=
      children_eq_sink hw ht hc hscanned hbelow hpath past
    rw [hused, Except.ok.injEq] at hused'
    subst hused'
    exact ⟨s, s', hv, herrors, hprefix⟩
  · intro pos' c' hc' hscanned' hsame hbelow'
    obtain ⟨above, hb, -⟩ := Component.branch_of_at? hc
    obtain ⟨l, ls, hl⟩ := branch_onWay ht hb hscanned
    -- Both have below them what a root with their file has.
    obtain ⟨used, hused, hchildren, -⟩ := children_eq_sink hw ht hc hscanned hbelow hl.path {}
    obtain ⟨used', hused', hchildren', -⟩ :=
      children_eq_sink hw ht hc' hscanned' hbelow' (hsame.trans hl.path) {}
    rw [hused, Except.ok.injEq] at hused'
    subst hused'
    rw [hchildren, hchildren', List.map_map, List.map_map]
    apply List.map_congr_left
    intro e _
    rw [Function.comp_apply, Function.comp_apply, Component.map_map, Component.map_map,
      Facts.sink_comp_comm]

open menuProject in
/-- The menu of the project is found below the root as it is found from itself, a level deeper. -/
theorem menuProject_compositional :
    ∃ t u, menuProject.walk (Path.ofText "R") = .ok t ∧
      t.root.at? [0] = some menuTree ∧ t.root.StaysBelow [0] menuTree ∧
      menuProject.walk (Path.ofText "M") = .ok u ∧
      menuTree.children = u.root.children.map (Component.map (Facts.sink 1)) ∧
      ∀ past, ∃ s s', menuProject.Visits past (Path.ofText "R") [0] menuTree s s' ∧
        s'.errors = s.errors ++ u.errors ∧ s'.errors <+: t.errors := by
  obtain ⟨t, ht, hroot⟩ := walk_root
  have hat : t.root.at? [0] = some menuTree := by rw [hroot]; rfl
  -- Above the menu there is the root alone, and the cycle does not lead there.
  have hbelow : t.root.StaysBelow [0] menuTree := by
    intro e he hcycle pre a hpre hne ha
    have hnil : pre = [] := by
      rcases List.prefix_concat_iff.1 (show pre <+: [] ++ [0] from hpre) with h | h
      · exact absurd h hne
      · exact List.prefix_nil.1 h
    rw [hnil, Component.at?_nil, Option.some.injEq] at ha
    rw [path_of_cycle he hcycle, ← ha, hroot]
    decide
  obtain ⟨hwalk, -⟩ := walk_compositional menuProject (Path.ofText "R") rfl t ht [0]
    menuTree hat rfl hbelow
  obtain ⟨u, hu, -, hchildren, hvisits⟩ := hwalk (Path.ofText "M") menu resolve_menu rfl
  exact ⟨t, u, ht, hat, hbelow, hu, hchildren, hvisits⟩

end Walk

end RenderTree
