import RenderTree.Proofs.Walk.Session
import RenderTree.Proofs.Walk.Way

/-!
# Open files and cycles

The set of open files is shared by the whole walk, and all that keeps it in order is that a file is
taken out where it was added. So it has to be the way to a component whenever one is handled, and
this is what makes cycles out of those components, and only those, that render themselves.

* `Session.Handles` — a session in which a component is about to be handled.
* `branch_entered`, `branch_handled` — each component of the tree is handled in the course of the
  run, in frames that are its proper ancestors.
* `Walked.CyclesFit` — what the cycles of a tree mean.
* `walk_tracks_ancestors` — all of this for every walk of every walker.
-/

namespace RenderTree

/-- The session `s` is about to handle `b`, the next binding of the innermost of its frames. -/
structure Session.Handles (s : Session) (f : Frame) (outer : List Frame) (b : Binding) : Prop where
  stage : s.stage = .visiting f outer
  todo : f.todo.head? = some b

section Walk

variable {w : Walker} {root : Path} {t : Walked} {past s : Session}
  {c p : Component} {above : List Component} {f : Frame} {outer : List Frame} {b : Binding}

/-! ### Frames and ancestors -/

/-- A session in which the file of `c` has just been entered, in frames that are its ancestors. -/
def Session.Enters (s : Session) (w : Walker) (c : Component)
    (above : List Component) (f : Frame) (outer : List Frame) : Prop :=
  s.stage = .visiting f outer ∧ (f :: outer).map Frame.facts = (c :: above).map Component.facts ∧
    w.scan f.file = .ok f.todo

/-- The files of frames that are the components on the way are those on the way. -/
theorem files_of_facts {l : Path} {ls : List Path} (hl : w.OnWay l ls p above)
    (hf : (f :: outer).map Frame.facts = (p :: above).map Component.facts) :
    (f :: outer).map Frame.file = l :: ls := by
  have h : ((f :: outer).map Frame.file).map some = (l :: ls).map some := by
    have hpaths := congrArg (List.map Facts.path) hf
    rw [List.map_map, List.map_map] at hpaths
    rw [← hl.paths, List.map_map]
    exact hpaths
  exact List.map_injective_iff.2 (Option.some_injective _) h

/-- From where a component is entered, the walk comes to each of those that it renders. -/
theorem exists_handles (h : w.walk root = .ok t) (hb : t.root.Branch c (p :: above))
    (hs : s.Tracks) (he : s.Enters w p above f outer) :
    ∃ s' f' b errors, w.Reaches s s' ∧ s'.Handles f' outer b ∧
      f'.facts = f.facts ∧
      w.Exit f'.file (outer.map Frame.file) (f'.depth + 1) b c errors := by
  obtain ⟨hst, hf, hsc⟩ := he
  obtain ⟨l, ls, b, used, errors, hl, hu, hmem, hx⟩ := branch_exit h hb
  -- The frames have the files that are on the way, so the exit of the tree is that of the run.
  have hfiles := files_of_facts hl hf
  rw [List.map_cons, List.cons.injEq] at hfiles
  obtain ⟨hfile, houter⟩ := hfiles
  rw [hfile, hu, Except.ok.injEq] at hsc
  rw [hsc] at hmem
  obtain ⟨pre, bs, ht⟩ := List.append_of_mem hmem
  obtain ⟨s', f', hr, hst', ht', hfacts, hfile', -⟩ :=
    Walker.reaches_binding (w := w) hs hst ht
  refine ⟨s', f', b, errors, hr, ⟨hst', by rw [ht']; rfl⟩, hfacts, ?_⟩
  have hdepth : f'.depth = above.length := by
    have h₁ : f'.depth = f.depth := congrArg Facts.depth hfacts
    have h₂ : f.depth = p.facts.depth := congrArg Facts.depth (List.cons.inj hf).1
    rw [h₁, h₂, hl.depth]
  rw [hfile', hfile, houter, hdepth]
  exact hx

/-- Where a component that will be scanned is handled, the next step enters it. -/
theorem enters_of_handles {w : Walker} {errors : List ScanError} (hs : s.Tracks)
    (hh : s.Handles f outer b)
    (hx : w.Exit f.file (outer.map Frame.file) (f.depth + 1) b c errors)
    (hc : c.facts.status = .scanned)
    (hf : (f :: outer).map Frame.facts = above.map Component.facts) :
    ∃ g, (w.step s).Enters w c above g (f.next :: outer) := by
  obtain ⟨bs, ht⟩ := List.head?_eq_some_iff.1 hh.todo
  have ha : s.active = f.file :: outer.map Frame.file := by
    rw [hs.active, Session.frames, hh.stage, List.map_cons]
  rw [Walker.step_handle hh.stage ht]
  rcases Walker.handle_exit (f := f.next) ha hx with ⟨-, hn⟩ | ⟨g, -, h, hsc, -, hg, -⟩
  · exact absurd hc hn
  · refine ⟨g, by rw [h]; rfl, ?_, hsc⟩
    show g.facts :: (f :: outer).map Frame.facts = c.facts :: above.map Component.facts
    rw [hf, hg]
    rfl

/-- Each scanned component of a walk is entered in the course of the run. -/
theorem branch_entered (h : w.walk root = .ok t) (past : Session)
    (hb : t.root.Branch c above) (hc : c.facts.status = .scanned) :
    ∃ s f outer, w.Reaches (w.start past root) s ∧
      s.Enters w c above f outer := by
  induction hb with
  | root =>
    obtain ⟨l, used, hl, hsc, rfl⟩ := walk_eq_ok_iff.1 h
    refine ⟨_, ⟨root.componentName, none, 0, l, [], used⟩, [], .refl .., ?_, rfl, hsc⟩
    simp [Walker.start, hl, hsc, Session.enter]
  | @child c p above hp hm ih =>
    -- Down the branch: its parent is entered, then it is handled, and the next step enters it.
    obtain ⟨l, ls, hl⟩ := branch_onWay_of_mem h hp hm
    obtain ⟨s, f, outer, hr, he⟩ := ih hl.status
    have hs := Walker.tracks_of_reaches hr (Walker.tracks_start _ past root)
    obtain ⟨s', f', b, errors, hr', hh, hf', hx⟩ := exists_handles h (.child hp hm) hs he
    have hf : (f' :: outer).map Frame.facts = (p :: above).map Component.facts := by
      rw [← he.2.1, List.map_cons, List.map_cons, hf']
    obtain ⟨g, hg⟩ := enters_of_handles (Walker.tracks_of_reaches hr' hs) hh hx hc hf
    exact ⟨_, g, f'.next :: outer, (hr.trans hr').trans (Walker.Reaches.head (.refl ..)), hg⟩

/-- **Every component is handled.** For each component of a found tree but the root there is a
moment of the run at which it is handled, in frames that are its proper ancestors, and from which on
the run makes of it what it is in the tree. -/
theorem branch_handled (h : w.walk root = .ok t) (past : Session)
    (hb : t.root.Branch c (p :: above)) :
    ∃ s f outer b errors, w.Reaches (w.start past root) s ∧
      s.Handles f outer b ∧ (f :: outer).map Frame.facts = (p :: above).map Component.facts ∧
      w.Reaches (w.step s) (s.settle f.next outer c errors) := by
  cases hb with
  | child hp hm =>
    obtain ⟨l, ls, hl⟩ := branch_onWay_of_mem h hp hm
    obtain ⟨s, f, outer, hr, he⟩ := branch_entered h past hp hl.status
    have hs := Walker.tracks_of_reaches hr (Walker.tracks_start _ past root)
    obtain ⟨s', f', b, errors, hr', hh, hf', hx⟩ := exists_handles h (.child hp hm) hs he
    obtain ⟨bs, ht⟩ := List.head?_eq_some_iff.1 hh.todo
    refine ⟨s', f', outer, b, errors, hr.trans hr', hh, ?_, ?_⟩
    · rw [← he.2.1, List.map_cons, List.map_cons, hf']
    · exact Walker.reaches_handled (Walker.tracks_of_reaches hr' hs) hh.stage ht hx

/-! ### What the cycles of a tree mean -/

/-- The cycles of a found tree are where they should be. -/
structure Walked.CyclesFit (t : Walked) (w : Walker) : Prop where
  /-- A component is a cycle exactly if its file is that of a proper ancestor. -/
  cycle_iff : ∀ {c p : Component} {above : List Component}, t.root.Branch c (p :: above) →
    (c.facts.status = .cycle ↔
      ∃ l, w.target p c = some l ∧ ∃ a ∈ p :: above, a.facts.path = some l)
  /-- No path is scanned twice on one branch. -/
  scanned_nodup : ∀ {c : Component} {above : List Component}, t.root.Branch c above →
    (((c :: above).filter (fun a => a.facts.status = .scanned)).map (fun a => a.facts.path)).Nodup
  /-- A component whose file stands only on other branches is no cycle. -/
  shared : ∀ {c p : Component} {above : List Component} {l : Path},
    t.root.Branch c (p :: above) → w.target p c = some l →
    (∀ a ∈ p :: above, a.facts.path ≠ some l) → c.facts.status ≠ .cycle

/-- A component of a walk is a cycle exactly if its file is that of a proper ancestor. -/
theorem branch_cycle_iff (h : w.walk root = .ok t) (hb : t.root.Branch c (p :: above)) :
    c.facts.status = .cycle ↔ ∃ l, w.target p c = some l ∧
      ∃ a ∈ p :: above, a.facts.path = some l := by
  obtain ⟨l, ls, b, used, errors, hl, -, -, hx⟩ := branch_exit h hb
  rw [hx.cycle_iff, hx.target_eq hl.path]
  simp only [hl.mem_iff]

/-- The scanned components on a branch of a walk have different files. -/
theorem branch_scanned_nodup (h : w.walk root = .ok t) (hb : t.root.Branch c above) :
    (((c :: above).filter (fun a => a.facts.status = .scanned)).map
      (fun a => a.facts.path)).Nodup := by
  by_cases hc : c.facts.status = .scanned
  · obtain ⟨l, ls, hl⟩ := branch_onWay h hb hc
    exact hl.paths_nodup.sublist (List.filter_sublist.map _)
  · -- Only the ancestors count, and the nearest of them was scanned.
    rw [List.filter_cons_of_neg (by simpa using hc)]
    cases hb with
    | root => exact List.nodup_nil
    | child hp hm =>
      obtain ⟨l, ls, hl⟩ := branch_onWay_of_mem h hp hm
      exact hl.paths_nodup.sublist (List.filter_sublist.map _)

/-- **Cycles.** In the tree of a walk all cycles fit. -/
theorem walk_cyclesFit (h : w.walk root = .ok t) : t.CyclesFit w where
  cycle_iff := branch_cycle_iff h
  scanned_nodup := branch_scanned_nodup h
  shared := by
    intro c p above l hb htarget hother hc
    obtain ⟨l', hl', a, ha, hpath⟩ := (branch_cycle_iff h hb).1 hc
    rw [htarget, Option.some.injEq] at hl'
    subst hl'
    exact hother a ha hpath

/-- Whenever a component is handled, the open files are those of its proper ancestors. -/
theorem mem_active_iff (hs : s.Tracks) (hh : s.Handles f outer b) (l : Path) :
    l ∈ s.active ↔ ∃ g ∈ f :: outer, g.facts.path = some l := by
  rw [hs.active, Session.frames, hh.stage, List.mem_map]
  constructor
  · rintro ⟨g, hg, rfl⟩
    exact ⟨g, hg, rfl⟩
  · rintro ⟨g, hg, hpath⟩
    exact ⟨g, hg, Option.some.inj hpath⟩

/-- **Open files are ancestors.** In every walk of a walker, whatever it did before: whenever a
component is handled, the open files are those of its proper ancestors, and once it is done with,
its own children included, they are what they were; at the end of the walk none is open. The walk
finds what `Walker.walk` finds, every component of its tree but the root is handled at some moment
with its proper ancestors as frames, and its cycles are where they should be. -/
theorem walk_tracks_ancestors (w : Walker) (root : Path)
    (past : Session) :
    (∀ s f outer b, w.Reaches (w.start past root) s →
      s.Handles f outer b →
        (∀ l, l ∈ s.active ↔ ∃ g ∈ f :: outer, g.facts.path = some l) ∧
        ∃ s' c, w.Reaches (w.step s) s' ∧
          s'.frames = f.next.add c :: outer ∧ s'.active = s.active) ∧
    (∃ s, w.Reaches (w.start past root) s ∧ s.active = [] ∧
      s.outcome? = some (w.walk root)) ∧
    ∀ t, w.walk root = .ok t →
      (∀ c p above, t.root.Branch c (p :: above) →
        ∃ s f outer b s', w.Reaches (w.start past root) s ∧
          s.Handles f outer b ∧
          (f :: outer).map Frame.facts = (p :: above).map Component.facts ∧
          w.Reaches (w.step s) s' ∧
          s'.frames = f.next.add c :: outer) ∧
      t.CyclesFit w := by
  refine ⟨?_, Walker.reaches_walk w past root, ?_⟩
  · -- The active files are those of the frames, which every step keeps.
    intro s f outer b hr hh
    have hs := Walker.tracks_of_reaches hr (Walker.tracks_start _ past root)
    obtain ⟨bs, ht⟩ := List.head?_eq_some_iff.1 hh.todo
    have hx := Walker.exit_component w f.file (outer.map Frame.file) (f.depth + 1) b
    exact ⟨mem_active_iff hs hh, _, _, Walker.reaches_handled hs hh.stage ht hx, rfl, rfl⟩
  · -- Every component of the tree has been handled, its ancestors being the frames.
    intro t h
    refine ⟨?_, walk_cyclesFit h⟩
    intro c p above hb
    obtain ⟨s, f, outer, b, errors, hr, hh, hf, hr'⟩ := branch_handled h past hb
    exact ⟨s, f, outer, b, _, hr, hh, hf, hr', rfl⟩

/-- In a project with a cycle the file of the root is open when its page is handled, and the cycles
of the tree are where they should be. -/
theorem cyclicProject_tracks :
    ∃ (s : Session) (f : Frame) (outer : List Frame) (b : Binding), s.Handles f outer b ∧
      (∀ l, l ∈ s.active ↔ ∃ g ∈ f :: outer, g.facts.path = some l) ∧
      ∃ t, cyclicProject.walk (Path.ofText "App") = .ok t ∧ t.CyclesFit cyclicProject := by
  obtain ⟨hactive, -, htree⟩ := walk_tracks_ancestors cyclicProject (Path.ofText "App") {}
  obtain ⟨t, ht⟩ := cyclicProject_walk
  have hh : (cyclicProject.start {} (Path.ofText "App")).Handles
      ⟨(Path.ofText "App").componentName, none, 0, appFile.toPath, [], [⟨"Page", "./Page"⟩]⟩ []
      ⟨"Page", "./Page"⟩ := by
    refine ⟨?_, rfl⟩
    simp [Walker.start, Session.enter, cyclicProject_resolve, cyclicProject_scan]
  exact ⟨_, _, _, _, hh, (hactive _ _ _ _ (.refl ..) hh).1, t, ht, (htree t ht).2⟩

end Walk

end RenderTree
