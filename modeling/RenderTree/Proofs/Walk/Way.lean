import RenderTree.Proofs.Disk.Stands
import RenderTree.Proofs.Tree.Branch
import RenderTree.Proofs.Walk.Exit
import Mathlib.Data.Finset.Card

/-!
# The way to a component

The components above a component in the tree of a walk are those whose files were open when it was
handled. This ties the recursion of the walk, which goes by files, to the finished tree.

* `Walker.OnePath`, `MissesNone.onePath` — one file has one path where no link is missed.
* `Walker.Opened` — the tree of a file that was opened.
* `Walker.OnWay` — the same, with its proper ancestors and the files on the way.
* `branch_onWay` — every scanned component of a walk is `OnWay`, its branch being the way.
* `branch_exit` — every component but the root left by an exit below such a one.
-/

namespace RenderTree

namespace Walker

variable {w : Walker} {l : Path} {above : List Path} {depth : Nat} {b : Binding}
  {c p : Component} {errors : List ScanError} {ancestors : List Component}

/-! ### Files and their paths -/

/-- The file that a path denotes. -/
def file? (w : Walker) (x : Path) : Option Location :=
  w.disk.file? w.cwd x.text

/-- Some specifier stands for the file at the path. -/
def Resolved (w : Walker) (x : Path) : Prop :=
  ∃ specifier importer, w.resolve specifier importer = some x

/-- One file has one path: specifiers that stand for one file resolve to the same. -/
def OnePath (w : Walker) : Prop :=
  ∀ x y l, w.Resolved x → w.Resolved y → w.file? x = some l → w.file? y = some l → x = y

/-- What can be read is at a path that denotes a regular file. -/
theorem exists_file_of_scan {x : Path} {used : List Binding} (h : w.scan x = .ok used) :
    ∃ m ∈ w.disk.files, w.file? x = some m := by
  rw [scan, Host.read, Disk.read] at h
  cases hfind : w.disk.find w.cwd x.text with
  | error t => simp [hfind] at h
  | ok r =>
    obtain ⟨m, _ | (bytes | _ | target)⟩ := r
    · simp [hfind] at h
    · have hfile : w.file? x = some m := Disk.file?_eq_some_iff_find.2 ⟨bytes, hfind⟩
      exact ⟨m, Disk.mem_files (Disk.file?_eq_some_iff.1 hfile).2, hfile⟩
    · simp [hfind] at h
    · simp [hfind] at h

/-- The tree `t` of the file `l`, which was opened with the files `above` on the way to it. -/
structure Opened (w : Walker) (l : Path) (above : List Path) (t : Component) : Prop where
  path : t.facts.path = some l
  status : t.facts.status = .scanned
  shown : t.facts.hidden = false
  children : ∃ used, w.scan l = .ok used ∧
    t.children = used.map (fun b => (w.component l above (t.facts.depth + 1) b).1)

/-- The root of a walk was opened with no files on the way to it. -/
theorem opened_found {used : List Binding} (root : Path) (hs : w.scan l = .ok used) :
    w.Opened l [] (w.found root l used).root :=
  ⟨rfl, rfl, rfl, used, hs, by rw [found, components_eq]; rfl⟩

/-- The tree `t` of the file `l`, below `ancestors` whose files `above` are on the way to it. -/
structure OnWay (w : Walker) (l : Path) (above : List Path) (t : Component)
    (ancestors : List Component) : Prop extends Opened w l above t where
  way : ancestors.map (fun a => a.facts.path) = above.map some
  nodup : (l :: above).Nodup
  resolved : ∀ x ∈ l :: above, w.Resolved x
  scanned : ∀ x ∈ l :: above, ∃ used, w.scan x = .ok used
  depth : t.facts.depth = ancestors.length

/-- The paths of a component on the way and its ancestors are those of the files on the way. -/
theorem OnWay.paths (h : w.OnWay l above p ancestors) :
    (p :: ancestors).map (fun a => a.facts.path) = (l :: above).map some := by
  simp [h.path, h.way]

/-- A file is on the way exactly if its path is that of the component or of an ancestor. -/
theorem OnWay.mem_iff (h : w.OnWay l above p ancestors) {x : Path} :
    x ∈ l :: above ↔ ∃ a ∈ p :: ancestors, a.facts.path = some x := by
  have hp : some x ∈ (p :: ancestors).map (fun a => a.facts.path) ↔ x ∈ l :: above := by
    rw [h.paths, List.mem_map]
    simp
  rw [← hp, List.mem_map]

/-- A component that left as opened is on the way, behind the one that renders it. -/
theorem Exit.onWay (hp : w.OnWay l above p ancestors)
    (h : w.Exit l above (ancestors.length + 1) b c errors) (hs : c.facts.status = .scanned) :
    ∃ next, w.lookUp l b = some next ∧ w.OnWay next (l :: above) c (p :: ancestors) := by
  cases h with
  | missing | cycle | beyond | faulty => simp [unresolved] at hs
  | @opened next used found new near scanned =>
    refine ⟨next, found, ?_⟩
    exact {
      path := rfl
      status := rfl
      shown := rfl
      children := ⟨used, scanned, by rw [components_eq]; rfl⟩
      way := hp.paths
      nodup := List.nodup_cons.2 ⟨new, hp.nodup⟩
      resolved := by
        intro x hx
        rcases List.mem_cons.1 hx with rfl | hx
        · exact ⟨_, _, found⟩
        · exact hp.resolved x hx
      scanned := by
        intro x hx
        rcases List.mem_cons.1 hx with rfl | hx
        · exact ⟨used, scanned⟩
        · exact hp.scanned x hx
      depth := rfl }

/-- A component left by an exit that renders others was scanned. -/
theorem Exit.scanned_of_mem (h : w.Exit l above depth b c errors) {d : Component}
    (hd : d ∈ c.children) : c.facts.status = .scanned := by
  cases h with
  | missing | cycle | beyond | faulty => simp [unresolved] at hd
  | opened => rfl

/-- A component that was not opened renders none. -/
theorem Exit.children_eq_nil (h : w.Exit l above depth b c errors)
    (hc : c.facts.status ≠ .scanned) : c.children = [] := by
  apply List.eq_nil_iff_forall_not_mem.2
  intro d hd
  exact hc (h.scanned_of_mem hd)

/-- Where one file has one path, there are no more paths on the way than regular files on the disk. -/
theorem OnWay.length_le (h : w.OnWay l above p ancestors) (hone : w.OnePath) :
    (p :: ancestors).length ≤ w.disk.files.toFinset.card := by
  have hlen : (p :: ancestors).length = (l :: above).length := by
    simpa using congrArg List.length h.paths
  have hfile : ∀ x ∈ l :: above, ∃ m ∈ w.disk.files, w.file? x = some m := by
    intro x hx
    obtain ⟨used, hscan⟩ := h.scanned x hx
    exact exists_file_of_scan hscan
  have hnodup : ((l :: above).map w.file?).Nodup := by
    apply List.Nodup.map_on _ h.nodup
    intro x hx y hy hxy
    obtain ⟨m, -, hm⟩ := hfile x hx
    exact hone x y m (h.resolved x hx) (h.resolved y hy) hm (hxy ▸ hm)
  -- The files on the way are different, and all of them are on the disk.
  have hsub : ((l :: above).map w.file?).toFinset ⊆ w.disk.files.toFinset.image some := by
    intro m hm
    rw [List.mem_toFinset, List.mem_map] at hm
    obtain ⟨x, hx, rfl⟩ := hm
    obtain ⟨m, hm, hfile⟩ := hfile x hx
    rw [hfile]
    exact Finset.mem_image_of_mem some (List.mem_toFinset.2 hm)
  calc (p :: ancestors).length
      = ((l :: above).map w.file?).toFinset.card := by
        rw [hlen, List.toFinset_card_of_nodup hnodup, List.length_map]
    _ ≤ (w.disk.files.toFinset.image some).card := Finset.card_le_card hsub
    _ = w.disk.files.toFinset.card :=
        Finset.card_image_of_injective _ (Option.some_injective _)

/-- The components on the way have different paths. -/
theorem OnWay.paths_nodup (h : w.OnWay l above p ancestors) :
    ((p :: ancestors).map (fun a => a.facts.path)).Nodup := by
  rw [h.paths]
  exact h.nodup.map (Option.some_injective _)

/-- The file that a component stands for, looked up from the path of the component `p` that renders
it. -/
def target (w : Walker) (p c : Component) : Option Path :=
  c.facts.specifier.bind fun s => w.resolve s p.facts.path

/-- A component with the specifier of a binding stands for the file that the binding does. -/
theorem target_eq_lookUp (w : Walker) (hp : p.facts.path = some l)
    (hc : c.facts.specifier = some b.specifier) : w.target p c = w.lookUp l b := by
  rw [target, hc, hp]
  rfl

/-- Where a component was handled, its file was looked up from the one that renders it. -/
theorem Exit.target_eq (h : w.Exit l above depth b c errors) (hp : p.facts.path = some l) :
    w.target p c = w.lookUp l b :=
  w.target_eq_lookUp hp (by cases h <;> rfl)

/-- A component is a cycle exactly if its file is on the way to it. -/
theorem Exit.cycle_iff (h : w.Exit l above depth b c errors) :
    c.facts.status = .cycle ↔ ∃ x, w.lookUp l b = some x ∧ x ∈ l :: above := by
  cases h with
  | missing found => simp [unresolved, found]
  | cycle found onWay => simpa [found] using onWay
  | beyond found new | faulty found new | opened found new => simpa [found, unresolved] using new

/-- A component lies as deep as it is said to when it is handled. -/
theorem Exit.depth_eq (h : w.Exit l above depth b c errors) : c.facts.depth = depth := by
  cases h <;> rfl

end Walker

/-! ### Branches of a walk -/

section Walk

variable {w : Walker} {root : Path} {t : Walked}
  {c p : Component} {above : List Component}

/-- The root of a walk is on the way to all others. -/
theorem walk_onWay_root (h : w.walk root = .ok t) :
    ∃ l, w.resolve root.text none = some l ∧
      t.root.facts = Walker.rootFacts root l ∧ w.OnWay l [] t.root [] := by
  obtain ⟨l, used, hl, hs, rfl⟩ := walk_eq_ok_iff.1 h
  refine ⟨l, hl, rfl, ?_⟩
  exact {
    toOpened := Walker.opened_found root hs
    way := rfl
    nodup := List.nodup_singleton l
    resolved := by
      intro x hx
      rw [List.mem_singleton.1 hx]
      exact ⟨_, _, hl⟩
    scanned := by
      intro x hx
      rw [List.mem_singleton.1 hx]
      exact ⟨used, hs⟩
    depth := rfl }

/-- The children of a component on the way were handled with its file on the way. -/
theorem Walker.OnWay.exit {w : Walker} {l : Path} {ls : List Path}
    (h : w.OnWay l ls p above) (hc : c ∈ p.children) :
    ∃ b used errors, w.scan l = .ok used ∧ b ∈ used ∧
      w.Exit l ls (above.length + 1) b c errors := by
  obtain ⟨used, hs, hcs⟩ := h.children
  rw [hcs, List.mem_map, h.depth] at hc
  obtain ⟨b, hb, rfl⟩ := hc
  exact ⟨b, used, _, hs, hb, exit_component ..⟩

/-- A component of a walk that renders others is on the way to them. -/
theorem branch_onWay_of_mem (h : w.walk root = .ok t) (hb : t.root.Branch p above)
    (hc : c ∈ p.children) : ∃ l ls, w.OnWay l ls p above := by
  induction hb generalizing c with
  | root =>
    obtain ⟨l, -, -, hl⟩ := walk_onWay_root h
    exact ⟨l, [], hl⟩
  | child _ hp ih =>
    -- It was handled below its own parent, and only opened components render others.
    obtain ⟨l, ls, hl⟩ := ih hp
    obtain ⟨b, used, errors, -, -, hx⟩ := hl.exit hp
    obtain ⟨next, -, hn⟩ := hx.onWay hl (hx.scanned_of_mem hc)
    exact ⟨next, l :: ls, hn⟩

/-- **Exits in the tree.** Every component but the root was handled with the files of its proper
ancestors on the way. -/
theorem branch_exit (h : w.walk root = .ok t) (hb : t.root.Branch c (p :: above)) :
    ∃ l ls b used errors, w.OnWay l ls p above ∧
      w.scan l = .ok used ∧ b ∈ used ∧
      w.Exit l ls (above.length + 1) b c errors := by
  cases hb with
  | child hp hc =>
    obtain ⟨l, ls, hl⟩ := branch_onWay_of_mem h hp hc
    obtain ⟨b, used, errors, hs, hb, hx⟩ := hl.exit hc
    exact ⟨l, ls, b, used, errors, hl, hs, hb, hx⟩

/-- **Scanned components are on the way.** A scanned component of a walk was opened with the files
of its proper ancestors on the way. -/
theorem branch_onWay (h : w.walk root = .ok t) (hb : t.root.Branch c above)
    (hs : c.facts.status = .scanned) : ∃ l ls, w.OnWay l ls c above := by
  cases hb with
  | root =>
    obtain ⟨l, -, -, hl⟩ := walk_onWay_root h
    exact ⟨l, [], hl⟩
  | child hp hc =>
    obtain ⟨l, ls, b, used, errors, hl, -, -, hx⟩ := branch_exit h (.child hp hc)
    obtain ⟨next, -, hn⟩ := hx.onWay hl hs
    exact ⟨next, l :: ls, hn⟩

/-- The depth of a component of a walk is the number of its proper ancestors. -/
theorem branch_depth (h : w.walk root = .ok t) (hb : t.root.Branch c above) :
    c.facts.depth = above.length := by
  cases hb with
  | root =>
    obtain ⟨l, -, -, hl⟩ := walk_onWay_root h
    exact hl.depth
  | child hp hc =>
    obtain ⟨l, ls, b, used, errors, -, -, -, hx⟩ := branch_exit h (.child hp hc)
    exact hx.depth_eq

end Walk

/-! ### A project -/

/-- A file at the top of a disk. -/
def topFile (name : Text) (text : String) (h : IsName name) : Location × Entry :=
  (Location.root.child name h, .file text.toUTF8.toList)

/-- A project whose walk takes all exits: the page that `App` renders renders `App` again, besides a
logo that its menu renders too, a component without a file and one whose file is at fault. -/
def cyclicProject : Walker where
  disk := ⟨[topFile "App.js" "import React from 'r';import Page from './Page';<Page/>" (by decide),
    topFile "Page.js"
      ("import React from 'r';import App from './App';import Logo from './Logo';"
        ++ "import Menu from './Menu';import Kit from 'kit';import Torn from './Torn';"
        ++ "<App><Logo/><Menu/><Kit/><Torn/></App>") (by decide),
    topFile "Menu.js" "import React from 'r';import Logo from './Logo';<Logo/>" (by decide),
    topFile "Logo.jsx" "" (by decide),
    topFile "Torn.js" "<" (by decide)]⟩
  cwd := .root

/-- The file of the root component of the project. -/
def appFile : Location := ⟨["App.js"], by decide⟩

/-- There is no link in the project. -/
theorem cyclicProject_linkless : cyclicProject.disk.Linkless := by
  simp [Disk.Linkless, cyclicProject, topFile]

/-- The root of the project has its file. -/
theorem cyclicProject_resolve :
    cyclicProject.resolve (Path.ofText "App").text none = some appFile.toPath := by
  rw [Walker.resolve, cyclicProject_linkless.resolve_eq]
  decide +kernel

/-- What a file renders can be told without the reasons for which it might not be read. -/
theorem scan_eq_ok_of_toOption {w : Walker} {p : Path} {used : List Binding}
    (h : (w.scan p).toOption = some used) : w.scan p = .ok used := by
  cases hs : w.scan p with
  | error e =>
    rw [hs] at h
    cases h
  | ok used' =>
    rw [hs] at h
    rw [Option.some.inj h]

/-- The file of the root renders the page. -/
theorem cyclicProject_scan : cyclicProject.scan appFile.toPath = .ok [⟨"Page", "./Page"⟩] :=
  scan_eq_ok_of_toOption (by decide +kernel)

/-- The walk from `App` finds a tree. -/
theorem cyclicProject_walk : ∃ t, cyclicProject.walk (Path.ofText "App") = .ok t :=
  ⟨_, walk_eq_ok_iff.2 ⟨appFile.toPath, _, cyclicProject_resolve, cyclicProject_scan, rfl⟩⟩

end RenderTree
