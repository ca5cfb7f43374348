import RenderTree.Proofs.Walk.Session
import RenderTree.Proofs.Walk.Way

/-!
# When a component is visited

The tree of a walk grows while the walk goes on, from the left to the right, and the list of errors
grows along with it. So each scanned component has a stretch of the run to itself, between the moment
when its file is entered and the one when all below it is done with.

* `errors_prefix_of_reaches` — errors are only ever added to the list, at its end.
* `Walker.EntersAt` — a session in which the file of a component has just been entered.
* `at?_entered` — there is one for every scanned component of a walk.
* `Walker.Visits` — the stretch of a run in which a component is visited.
* `EntersAt.exists_visits` — what is recorded in it.
-/

namespace RenderTree

namespace Walker

variable {w : Walker} {s s' s'' : Session}

/-! ### The course of a run -/

/-- Of two sessions that a run comes to, one comes to the other. -/
theorem Reaches.total (h : w.Reaches s s') (h' : w.Reaches s s'') :
    w.Reaches s' s'' ∨ w.Reaches s'' s' := by
  obtain ⟨n, rfl⟩ := h
  obtain ⟨m, rfl⟩ := h'
  rcases Nat.le_total n m with hle | hle
  · exact .inl ⟨m - n, by rw [← Function.iterate_add_apply, Nat.sub_add_cancel hle]⟩
  · exact .inr ⟨n - m, by rw [← Function.iterate_add_apply, Nat.sub_add_cancel hle]⟩

/-- A walk that has come to its end stays there. -/
theorem eq_of_reaches_of_outcome {r : Except WalkError Walked} (hs : s.outcome? = some r)
    (h : w.Reaches s s') : s' = s := by
  have hstep : w.step s = s := by
    rw [step]
    cases hst : s.stage with
    | visiting => simp [Session.outcome?, hst] at hs
    | idle | failed | finished => rfl
  obtain ⟨n, rfl⟩ := h
  exact Function.iterate_fixed hstep n

/-- **One step** keeps the errors that are there. -/
theorem errors_prefix_step (w : Walker) (s : Session) : s.errors <+: (w.step s).errors := by
  cases hst : s.stage with
  | idle | failed | finished =>
    rw [step, hst]
  | visiting f outer =>
    cases ht : f.todo with
    | nil =>
      rw [step_leave hst ht]
      cases outer with
      | nil => exact List.prefix_refl s.errors
      | cons g outer => exact List.prefix_append s.errors []
    | cons b bs =>
      -- Whatever becomes of the component: it is settled with some errors, or a frame is entered.
      rw [step_handle hst ht, handle]
      split
      next => exact List.prefix_append ..
      next =>
        split
        next => exact List.prefix_append ..
        next =>
          split
          next =>
            split
            next => exact List.prefix_append ..
            next => exact List.prefix_refl s.errors
          next => exact List.prefix_append ..

/-- **A run** keeps the errors that are there. -/
theorem errors_prefix_of_reaches (h : w.Reaches s s') : s.errors <+: s'.errors := by
  obtain ⟨n, rfl⟩ := h
  induction n generalizing s with
  | zero => exact List.prefix_refl _
  | succ n ih => exact (errors_prefix_step w s).trans (ih (s := w.step s))

/-- What a walk has recorded on its way is what its errors begin with in the end. -/
theorem errors_prefix_walk {past : Session} {root : Path} {t : Walked}
    (ht : w.walk root = .ok t) (h : w.Reaches (w.start past root) s) :
    s.errors <+: t.errors := by
  obtain ⟨last, hlast, -, hout⟩ := w.reaches_walk past root
  have herrors : last.errors = t.errors := by
    rw [ht, Session.outcome?] at hout
    split at hout
    · simp at hout
    · have hok := Except.ok.inj (Option.some.inj hout)
      exact congrArg Walked.errors hok
    · cases hout
  rw [← herrors]
  -- The last session lies behind `s`, or it is `s`, for nothing follows an outcome.
  rcases h.total hlast with hs | hs
  · exact errors_prefix_of_reaches hs
  · have hsame : s = last := by
      rw [ht] at hout
      exact eq_of_reaches_of_outcome hout hs
    rw [hsame]

/-! ### Entering a component -/

/-- The position of the component whose frame is the innermost: in each frame further out, it comes
behind the children that are done with there. -/
def placeWithin (outer : List Frame) : List Nat :=
  (outer.map fun f => f.done.length).reverse

/-- A frame further in is that of a child at the number of those done with in this one. -/
theorem placeWithin_cons (f : Frame) (outer : List Frame) :
    placeWithin (f :: outer) = placeWithin outer ++ [f.done.length] := by
  simp [placeWithin]

/-- The files are those of components of `root` above a position. -/
def AboveAt (root : Component) (pos : List Nat) (files : List Path) : Prop :=
  ∀ x ∈ files, ∃ pre a, pre <+: pos ∧ pre ≠ pos ∧ root.at? pre = some a ∧
    a.facts.path = some x

/-- Above a child there are the parent and what is above that. -/
theorem AboveAt.child {root p : Component} {pos : List Nat} {files : List Path} {l : Path}
    (h : AboveAt root pos files) (hp : root.at? pos = some p) (hpath : p.facts.path = some l)
    (i : Nat) : AboveAt root (pos ++ [i]) (l :: files) := by
  intro x hx
  rcases List.mem_cons.1 hx with rfl | hx
  · exact ⟨pos, p, List.prefix_append .., by simp, hp, hpath⟩
  · obtain ⟨pre, a, hpre, -, ha, hpath⟩ := h x hx
    refine ⟨pre, a, hpre.trans (List.prefix_append ..), ?_, ha, hpath⟩
    rintro rfl
    exact absurd hpre.length_le (by simp)

/-- The file of the component `c` at a position of `root` has just been entered, in the frame `f`. -/
structure EntersAt (w : Walker) (root : Component) (pos : List Nat) (c : Component) (s : Session)
    (f : Frame) (outer : List Frame) : Prop where
  stage : s.stage = .visiting f outer
  fresh : f.done = []
  place : placeWithin outer = pos
  scanned : w.scan f.file = .ok f.todo
  tree : c = .node f.facts
    (w.components f.file (outer.map Frame.file) (f.depth + 1) f.todo).1
  above : AboveAt root pos (outer.map Frame.file)

variable {w : Walker} {root : Path} {t : Walked} {c p : Component}
  {pos : List Nat} {i : Nat} {f : Frame} {outer : List Frame}

/-- From where a component is entered, the walk comes to where it is the turn of the child with a
given number. -/
theorem EntersAt.exists_turn {r : Component} {b : Binding} (h : w.EntersAt r pos p s f outer)
    (hs : s.Tracks) (hb : f.todo[i]? = some b) :
    ∃ s' f' bs, w.Reaches s s' ∧ s'.stage = .visiting f' outer ∧ f'.todo = b :: bs ∧
      f'.facts = f.facts ∧ f'.file = f.file ∧ f'.done.length = i := by
  obtain ⟨hlt, hget⟩ := List.getElem?_eq_some_iff.1 hb
  -- The children in front of it are handled first.
  have htodo : f.todo = f.todo.take i ++ b :: f.todo.drop (i + 1) := by
    rw [← hget, List.getElem_cons_drop, List.take_append_drop]
  obtain ⟨s', f', hr, hstage, htodo', hfacts, hfile, hdone⟩ := reaches_binding hs h.stage htodo
  rw [h.fresh, List.length_take_of_le hlt.le] at hdone
  exact ⟨s', f', _, hr, hstage, htodo', hfacts, hfile, hdone⟩

/-- From where a component is entered, the walk comes to where each scanned one that it renders is
entered. -/
theorem EntersAt.exists_child {r : Component} (h : w.EntersAt r pos p s f outer) (hs : s.Tracks)
    (hp : r.at? pos = some p) (hc : p.children[i]? = some c)
    (hscanned : c.facts.status = .scanned) :
    ∃ s' g outer', w.Reaches s s' ∧ w.EntersAt r (pos ++ [i]) c s' g outer' := by
  rw [h.tree, Component.children_node, components_eq, List.getElem?_map] at hc
  obtain ⟨b, hb, rfl⟩ := Option.map_eq_some_iff.1 hc
  obtain ⟨s₁, f₁, bs, hr, hstage, htodo, hfacts, hfile, hdone⟩ := h.exists_turn hs hb
  have ha : s₁.active = f₁.file :: outer.map Frame.file := by
    rw [(tracks_of_reaches hr hs).active, Session.frames, hstage, List.map_cons]
  -- The frame has the same file and depth as when it was entered, and so has the child.
  have hdepth : f₁.depth = f.depth := congrArg Facts.depth hfacts
  have hsame : w.component f.file (outer.map Frame.file) (f.depth + 1) b =
      w.component f₁.file (outer.map Frame.file) (f₁.depth + 1) b := by rw [hfile, hdepth]
  rw [hsame] at hscanned ⊢
  -- The next step enters it, since it will be scanned.
  have hx := w.exit_component f₁.file (outer.map Frame.file) (f₁.depth + 1) b
  rcases handle_exit (f := f₁.next) ha hx with ⟨-, hn⟩ | ⟨g, -, hg, hscan, hfresh, htree, -⟩
  · exact absurd hscanned hn
  · have hstep : w.step s₁ = s₁.enter g (f₁.next :: outer) :=
      (step_handle hstage htodo).trans hg
    refine ⟨w.step s₁, g, f₁.next :: outer, hr.trans (Reaches.head (.refl ..)), ?_⟩
    exact {
      stage := by rw [hstep]; rfl
      fresh := hfresh
      place := by
        have hi : f₁.next.done.length = i := hdone
        rw [placeWithin_cons, h.place, hi]
      scanned := hscan
      tree := by rw [htree, ha]; rfl
      above := by
        have hpath : p.facts.path = some f₁.file := by
          rw [h.tree, hfile]
          rfl
        exact h.above.child hp hpath i }

/-- **Every scanned component is entered** in the course of the run. -/
theorem at?_entered (ht : w.walk root = .ok t) (past : Session) (hc : t.root.at? pos = some c)
    (hscanned : c.facts.status = .scanned) :
    ∃ s f outer, w.Reaches (w.start past root) s ∧
      w.EntersAt t.root pos c s f outer := by
  induction pos using List.reverseRecOn generalizing c with
  | nil =>
    obtain ⟨l, used, hl, hsc, rfl⟩ := walk_eq_ok_iff.1 ht
    rw [Component.at?_nil, Option.some.injEq] at hc
    refine ⟨_, ⟨root.componentName, none, 0, l, [], used⟩, [], .refl .., ?_⟩
    exact {
      stage := by simp [start, hl, hsc, Session.enter]
      fresh := rfl
      place := rfl
      scanned := hsc
      tree := hc.symm
      above := fun x hx => absurd hx List.not_mem_nil }
  | append_singleton pos i ih =>
    -- Down the branch: its parent is entered, and from there it is.
    rw [Component.at?_append] at hc
    obtain ⟨p, hp, hi⟩ := Option.bind_eq_some_iff.1 hc
    rw [Component.at?_singleton] at hi
    obtain ⟨above, hb, -⟩ := Component.branch_of_at? hp
    obtain ⟨l, ls, hl⟩ := branch_onWay_of_mem ht hb (List.mem_of_getElem? hi)
    obtain ⟨s, f, outer, hr, he⟩ := ih hp hl.status
    have hs := tracks_of_reaches hr (tracks_start _ past root)
    obtain ⟨s', g, outer', hr', he'⟩ := he.exists_child hs hp hi hscanned
    exact ⟨s', g, outer', hr.trans hr', he'⟩

/-! ### The stretch of a run -/

/-- From the session `s` to the session `s'` the walk from `root` visits the component `c` at a
position: its frame has just been entered in `s` and is about to be left in `s'`, with all that the
component renders done with. -/
structure Visits (w : Walker) (past : Session) (root : Path) (pos : List Nat) (c : Component)
    (s s' : Session) : Prop where
  entered : w.Reaches (w.start past root) s
  done : w.Reaches s s'
  frames : ∃ f f' outer, s.stage = .visiting f outer ∧ f.done = [] ∧ placeWithin outer = pos ∧
    w.scan f.file = .ok f.todo ∧ s'.stage = .visiting f' outer ∧ f'.todo = [] ∧ f'.tree = c

/-- **What is recorded in a visit.** The errors between the entering of a component and the end of
its visit are those of the components that its file renders. -/
theorem EntersAt.exists_visits {past : Session} {r : Component} (h : w.EntersAt r pos c s f outer)
    (hr : w.Reaches (w.start past root) s) :
    ∃ s', w.Visits past root pos c s s' ∧ s'.errors = s.errors ++
      (w.components f.file (outer.map Frame.file) (f.depth + 1) f.todo).2 := by
  have hs := tracks_of_reaches hr (tracks_start w past root)
  have hrun := w.runsThrough f.file (outer.map Frame.file) s f outer hs h.stage rfl rfl
  refine ⟨_, ⟨hr, hrun, f, _, outer, h.stage, h.fresh, h.place, h.scanned, rfl, rfl, ?_⟩, rfl⟩
  rw [h.tree]
  simp [Frame.tree, Frame.facts, h.fresh]

end Walker

end RenderTree
