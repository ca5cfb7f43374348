import RenderTree.Proofs.Walk.Exit
import Mathlib.Logic.Function.Iterate
import Mathlib.Data.List.Nodup

/-!
# Walks step by step

A walk as a machine that changes one state. The state outlives a walk: it holds the set of open
files and the list of files that could not be read, which each walk begins with afresh. In between,
a stack of frames tells which components have been scanned and whose children are still being
visited; a file is added to the open ones when its frame is entered and taken out when it is left.
Nothing in the steps bounds their number.

* `Frame`, `Stage`, `Session` — the state.
* `Walker.start`, `Walker.step` — the beginning of a walk and one step of it.
* `Session.Tracks` — the invariant: the open files are those of the frames, each of them once.
* `tracks_step`, `tracks_of_reaches` — every step keeps it, and so does every run.
* `reaches_handled` — a component is handled in finitely many steps, which leave the open files as
  they were; what it becomes is what the recursion makes of it.
* `reaches_walk` — a run comes to its end, with what `Walker.walk` finds.
-/

namespace RenderTree

/-! ### The state -/

/-- A scanned component whose children are being visited: those that are done with, latest first,
and the bindings of those still to be handled. -/
structure Frame where
  name : Text
  specifier : Option Text
  depth : Nat
  file : Path
  done : List Component
  todo : List Binding

/-- What is known of the component of a frame. -/
def Frame.facts (f : Frame) : Facts :=
  { name := f.name, specifier := f.specifier, path := some f.file, depth := f.depth,
    status := .scanned }

/-- The component of a frame, as far as its children are done with. -/
def Frame.tree (f : Frame) : Component :=
  .node f.facts f.done.reverse

/-- The frame with one more child done with. -/
def Frame.add (f : Frame) (c : Component) : Frame :=
  { f with done := c :: f.done }

/-- The frame with one binding less to be handled. -/
def Frame.next (f : Frame) : Frame :=
  { f with todo := f.todo.tail }

/-- How far a walk has come: to the children of some component, within frames further out, or to its
end. -/
inductive Stage where
  | idle
  | failed (e : WalkError)
  | visiting (frame : Frame) (outer : List Frame)
  | finished (root : Component)

/-- What a walker keeps: the files that are open, those that could not be read, and how far the walk
has come. -/
structure Session where
  active : List Path := []
  errors : List ScanError := []
  stage : Stage := .idle

namespace Session

/-- The frames of a session, the innermost first. -/
def frames (s : Session) : List Frame :=
  match s.stage with
  | .visiting f outer => f :: outer
  | _ => []

/-- What a walk that has come to its end has found. -/
def outcome? (s : Session) : Option (Except WalkError Walked) :=
  match s.stage with
  | .failed e => some (.error e)
  | .finished root => some (.ok ⟨root, s.errors⟩)
  | _ => none

/-- Begins to visit the children of a scanned component. Its file is open from now on. -/
def enter (s : Session) (f : Frame) (outer : List Frame) : Session :=
  { s with active := s.active.insert f.file, stage := .visiting f outer }

/-- Hands a component that is done with, and the file that could not be read for it, to the frame
that it is a child of. -/
def settle (s : Session) (f : Frame) (outer : List Frame) (c : Component)
    (failed : List ScanError) : Session :=
  { s with errors := s.errors ++ failed, stage := .visiting (f.add c) outer }

/-- Hands some components to the frame that they are children of, with `rest` left to be handled. -/
def settleSome (s : Session) (f : Frame) (outer : List Frame)
    (r : List Component × List ScanError) (rest : List Binding) : Session :=
  { s with errors := s.errors ++ r.2,
           stage := .visiting { f with done := r.1.reverse ++ f.done, todo := rest } outer }

/-- Hands all the components that are left to the frame that they are children of. -/
def settleAll (s : Session) (f : Frame) (outer : List Frame)
    (r : List Component × List ScanError) : Session :=
  { s with errors := s.errors ++ r.2,
           stage := .visiting { f with done := r.1.reverse ++ f.done, todo := [] } outer }

/-- Ends the visit of a component's children. Its file is no longer open. -/
def leave (s : Session) (f : Frame) (outer : List Frame) : Session :=
  let s := { s with active := s.active.erase f.file }
  match outer with
  | [] => { s with stage := .finished f.tree }
  | g :: outer => s.settle g outer f.tree []

end Session

/-! ### The steps -/

namespace Walker

/-- Handles a component that the file of the innermost frame renders. -/
def handle (w : Walker) (s : Session) (f : Frame) (outer : List Frame) (b : Binding) : Session :=
  let facts := fresh (f.depth + 1) b
  match w.lookUp f.file b with
  | none => s.settle f outer (w.unresolved facts) []
  | some l =>
    let found : Facts := { facts with path := some l }
    if l ∈ s.active then s.settle f outer (.node { found with status := .cycle } []) []
    else if w.options.reads (f.depth + 1) then
      match w.scan l with
      | .error fault => s.settle f outer (w.unresolved facts) [⟨l, fault⟩]
      | .ok used => s.enter ⟨b.localName, some b.specifier, f.depth + 1, l, [], used⟩ (f :: outer)
    else s.settle f outer (.node { found with status := .resolved } []) []

/-- One step of a walk: the next component of the innermost frame is handled or, if there is none,
the frame is left. A walk that has come to its end stays there. -/
def step (w : Walker) (s : Session) : Session :=
  match s.stage with
  | .visiting f outer =>
    match f.todo with
    | [] => s.leave f outer
    | b :: _ => w.handle s f.next outer b
  | _ => s

/-- The beginning of a walk, whatever the session before was left with. -/
def start (w : Walker) (past : Session) (root : Path) : Session :=
  let s : Session := { past with active := [], errors := [] }
  match w.resolve root.text none with
  | none => { s with stage := .failed (.rootNotFound root) }
  | some l =>
    match w.scan l with
    | .error fault => { s with stage := .failed (.rootUnreadable l fault) }
    | .ok used => s.enter ⟨root.componentName, none, 0, l, [], used⟩ []

/-- Whether a session turns into another by some number of steps. -/
def Reaches (w : Walker) (s s' : Session) : Prop :=
  ∃ n, w.step^[n] s = s'

variable {w : Walker} {s s' s'' : Session}

/-- Every session reaches itself. -/
theorem Reaches.refl (w : Walker) (s : Session) : w.Reaches s s :=
  ⟨0, rfl⟩

/-- A session reaches what it reaches after a step. -/
theorem Reaches.head (h : w.Reaches (w.step s) s') : w.Reaches s s' := by
  obtain ⟨n, hn⟩ := h
  exact ⟨n + 1, hn⟩

/-- What is reached from a session that is reached is reached. -/
theorem Reaches.trans (h : w.Reaches s s') (h' : w.Reaches s' s'') : w.Reaches s s'' := by
  obtain ⟨n, rfl⟩ := h
  obtain ⟨m, rfl⟩ := h'
  exact ⟨m + n, Function.iterate_add_apply ..⟩

end Walker

/-! ### What a step does -/

namespace Walker

variable {w : Walker} {s : Session} {f : Frame} {outer : List Frame} {b : Binding}
  {bs : List Binding} {c : Component} {errors : List ScanError}

/-- At the end of a frame's bindings the frame is left. -/
theorem step_leave (hs : s.stage = .visiting f outer) (ht : f.todo = []) :
    w.step s = s.leave f outer := by
  rw [step, hs]
  simp [ht]

/-- Otherwise the next of them is handled. -/
theorem step_handle (hs : s.stage = .visiting f outer) (ht : f.todo = b :: bs) :
    w.step s = w.handle s f.next outer b := by
  rw [step, hs]
  simp [ht]

/-- **Handling a component** where the open files are those of the frames: it is settled at once, as
its exit says, or a frame is entered for it, in which all that is left of the exit has its place. -/
theorem handle_exit (ha : s.active = f.file :: outer.map Frame.file)
    (h : w.Exit f.file (outer.map Frame.file) (f.depth + 1) b c errors) :
    w.handle s f outer b = s.settle f outer c errors ∧ c.facts.status ≠ .scanned ∨
      ∃ g : Frame, g.file ∉ s.active ∧ w.handle s f outer b = s.enter g (f :: outer) ∧
        w.scan g.file = .ok g.todo ∧ g.done = [] ∧
        c = .node g.facts (w.components g.file s.active (g.depth + 1) g.todo).1 ∧
        errors = (w.components g.file s.active (g.depth + 1) g.todo).2 := by
  rw [ha]
  -- The steps of handling take the exits one by one.
  cases h with
  | missing found => exact .inl ⟨by simp [handle, found], by simp [unresolved]⟩
  | cycle found onWay =>
    rw [← ha] at onWay
    exact .inl ⟨by simp [handle, found, onWay], by simp⟩
  | beyond found new deep =>
    rw [← ha] at new
    exact .inl ⟨by simp [handle, found, new, deep], by simp⟩
  | faulty found new near scanned =>
    rw [← ha] at new
    exact .inl ⟨by simp [handle, found, new, near, scanned], by simp [unresolved]⟩
  | @opened l used found new near scanned =>
    refine .inr ⟨⟨b.localName, some b.specifier, f.depth + 1, l, [], used⟩, new, ?_, scanned, rfl,
      rfl, rfl⟩
    rw [← ha] at new
    simp [handle, found, new, near, scanned]

end Walker

/-! ### The invariant -/

/-- **The invariant.** The open files are those of the frames, each of them once. -/
structure Session.Tracks (s : Session) : Prop where
  active : s.active = s.frames.map Frame.file
  nodup : (s.frames.map Frame.file).Nodup

namespace Walker

variable {w : Walker} {s s' : Session} {f g : Frame} {outer : List Frame}

/-- To settle a component changes no active file. -/
theorem tracks_settle (hs : s.Tracks) (hf : s.frames.map Frame.file = (f :: outer).map Frame.file)
    (c : Component) (failed : List ScanError) : (s.settle f outer c failed).Tracks := by
  have hn := hs.nodup
  rw [hf] at hn
  exact ⟨hs.active.trans hf, hn⟩

/-- A file that is entered becomes active, and its frame is the innermost. -/
theorem tracks_enter (hs : s.Tracks) (hf : s.frames.map Frame.file = (f :: outer).map Frame.file)
    (hg : g.file ∉ s.active) : (s.enter g (f :: outer)).Tracks := by
  have hn := hs.nodup
  rw [← hs.active] at hn hf
  have ha : s.active.insert g.file = (g :: f :: outer).map Frame.file := by
    rw [List.insert_of_not_mem hg, hf]
    rfl
  refine ⟨ha, ?_⟩
  show (g.file :: (f :: outer).map Frame.file).Nodup
  rw [← hf]
  exact List.nodup_cons.2 ⟨hg, hn⟩

/-- A file that is left is active no more. -/
theorem tracks_leave (hs : s.Tracks) (hf : s.frames = f :: outer) : (s.leave f outer).Tracks := by
  have ha := hs.active
  have hn := hs.nodup
  rw [hf, List.map_cons] at ha hn
  -- The file was added when the frame was entered, and stands in front ever since.
  have he : s.active.erase f.file = outer.map Frame.file := by
    rw [ha, List.erase_cons_head]
  cases outer with
  | nil => exact ⟨he, List.nodup_nil⟩
  | cons g outer => exact ⟨he, (List.nodup_cons.1 hn).2⟩

/-- **One step** keeps the invariant. -/
theorem tracks_step (hs : s.Tracks) : (w.step s).Tracks := by
  cases hst : s.stage with
  | idle | failed | finished =>
    rw [step, hst]
    exact hs
  | visiting f outer =>
    have hf : s.frames = f :: outer := by rw [Session.frames, hst]
    cases ht : f.todo with
    | nil =>
      rw [step_leave hst ht]
      exact tracks_leave hs hf
    | cons b bs =>
      rw [step_handle hst ht]
      -- The frame with one binding less still has the same file.
      have hf' : s.frames.map Frame.file = (f.next :: outer).map Frame.file := by
        rw [hf]
        rfl
      have ha : s.active = f.next.file :: outer.map Frame.file := hs.active.trans hf'
      rcases handle_exit ha (exit_component w f.next.file _ _ b) with ⟨h, -⟩ | ⟨g, hg, h, -⟩
      · rw [h]
        exact tracks_settle hs hf' _ _
      · rw [h]
        exact tracks_enter hs hf' hg

/-- **A run** keeps the invariant. -/
theorem tracks_of_reaches (h : w.Reaches s s') (hs : s.Tracks) : s'.Tracks := by
  obtain ⟨n, rfl⟩ := h
  induction n generalizing s with
  | zero => exact hs
  | succ n ih => exact ih (tracks_step hs)

/-- A walk begins with the invariant, whatever was left of the walks before. -/
theorem tracks_start (w : Walker) (past : Session) (root : Path) : (w.start past root).Tracks := by
  rw [start]
  split
  next => exact ⟨rfl, List.nodup_nil⟩
  next l _ =>
    split
    next => exact ⟨rfl, List.nodup_nil⟩
    next => exact ⟨rfl, List.nodup_singleton l⟩

end Walker

/-! ### Runs -/

namespace Walker

variable {w : Walker} {l : Path} {above : List Path} {s : Session} {f : Frame}
  {outer : List Frame} {b : Binding} {bs : List Binding}

/-- The bindings of a frame for the file `l`, with the files `above` further out, are handled in
finitely many steps, and what comes of them is what the recursion says. -/
def RunsThrough (w : Walker) (l : Path) (above : List Path) : Prop :=
  ∀ (s : Session) (f : Frame) (outer : List Frame), s.Tracks → s.stage = .visiting f outer →
    f.file = l → outer.map Frame.file = above →
    w.Reaches s (s.settleAll f outer (w.components l above (f.depth + 1) f.todo))

/-- A frame that was entered and whose bindings have all been handled is left with the open files as
they were before it. -/
theorem step_settleAll {g : Frame} (hg : g.file ∉ s.active) (hd : g.done = [])
    (r : List Component × List ScanError) :
    w.step ((s.enter g (f :: outer)).settleAll g (f :: outer) r) =
      s.settle f outer (.node g.facts r.1) r.2 := by
  rw [step_leave rfl rfl]
  have he : (s.active.insert g.file).erase g.file = s.active := by
    rw [List.insert_of_not_mem hg, List.erase_cons_head]
  simp [Session.leave, Session.settleAll, Session.enter, Session.settle, he, Frame.tree, hd,
    Frame.facts]

/-- One component is handled in finitely many steps, if this is so of the files further on. -/
theorem reaches_settle_of {c : Component} {errors : List ScanError} (hs : s.Tracks)
    (hst : s.stage = .visiting f outer) (ht : f.todo = b :: bs)
    (hr : ∀ next, (∃ used, w.scan next = .ok used) → next ∉ f.file :: outer.map Frame.file →
      w.RunsThrough next (f.file :: outer.map Frame.file))
    (hx : w.Exit f.file (outer.map Frame.file) (f.depth + 1) b c errors) :
    w.Reaches (w.step s) (s.settle f.next outer c errors) := by
  have ha : s.active = f.file :: outer.map Frame.file := by
    rw [hs.active, Session.frames, hst, List.map_cons]
  have hs' := tracks_step (w := w) hs
  rw [step_handle hst ht] at hs' ⊢
  rcases handle_exit (f := f.next) ha hx with ⟨h, -⟩ | ⟨g, hg, h, hscan, hd, rfl, rfl⟩
  · rw [h]
    exact .refl ..
  · -- A frame is entered: its bindings run through, and then it is left.
    rw [h] at hs' ⊢
    have hrun := hr g.file ⟨g.todo, hscan⟩ (by rw [← ha]; exact hg) _ g (f.next :: outer) hs' rfl rfl rfl
    refine hrun.trans (Reaches.head ?_)
    rw [step_settleAll hg hd, ha]
    exact .refl ..

/-- Components handed over one after the other are handed over in their order. -/
theorem settleSome_settle (s : Session) (f : Frame) (outer : List Frame) (c : Component)
    (failed : List ScanError) (r : List Component × List ScanError) (rest : List Binding) :
    (s.settle f.next outer c failed).settleSome (f.next.add c) outer r rest =
      s.settleSome f outer (c :: r.1, failed ++ r.2) rest := by
  simp [Session.settleSome, Session.settle, Frame.add, Frame.next]

/-- The first bindings of a frame are handled in finitely many steps, if those of the files further
on run through. -/
theorem reaches_settleSome_of {pre rest : List Binding} (hs : s.Tracks)
    (hst : s.stage = .visiting f outer) (ht : f.todo = pre ++ rest)
    (hr : ∀ next, (∃ used, w.scan next = .ok used) → next ∉ f.file :: outer.map Frame.file →
      w.RunsThrough next (f.file :: outer.map Frame.file)) :
    w.Reaches s (s.settleSome f outer
      (w.components f.file (outer.map Frame.file) (f.depth + 1) pre) rest) := by
  -- Binding by binding; those already handled are in the frame.
  induction pre generalizing s f with
  | nil =>
    rw [List.nil_append] at ht
    have h : s.settleSome f outer ([], []) rest = s := by
      simp [Session.settleSome, ← ht, ← hst]
    rw [components_eq]
    show w.Reaches s (s.settleSome f outer ([], []) rest)
    rw [h]
    exact .refl ..
  | cons b pre ih =>
    have hx := w.exit_component f.file (outer.map Frame.file) (f.depth + 1) b
    -- First this one, and then the others with it among those that are done with.
    have h₁ := (reaches_settle_of hs hst ht hr hx).head
    have h₂ := ih (f := f.next.add _) (tracks_of_reaches h₁ hs) rfl
      (by simp [Frame.next, Frame.add, ht]) hr
    rw [settleSome_settle] at h₂
    rw [components]
    exact h₁.trans h₂

/-- The bindings of a frame run through, if this is so of the files further on. -/
theorem runsThrough_of (hr : ∀ next, (∃ used, w.scan next = .ok used) → next ∉ l :: above →
    w.RunsThrough next (l :: above)) : w.RunsThrough l above := by
  intro s f outer hs hst hl hab
  subst hl hab
  exact reaches_settleSome_of hs hst (List.append_nil _).symm hr

/-- The bindings of every frame run through. -/
theorem runsThrough (w : Walker) (l : Path) (above : List Path) : w.RunsThrough l above :=
  w.way_induction (fun _ _ => runsThrough_of) l above

/-- **Handling a component** takes finitely many steps. Afterwards the open files are the same as
before; all that has changed is that the component is done with, as its exit says. -/
theorem reaches_handled {c : Component} {errors : List ScanError} (hs : s.Tracks)
    (hst : s.stage = .visiting f outer) (ht : f.todo = b :: bs)
    (hx : w.Exit f.file (outer.map Frame.file) (f.depth + 1) b c errors) :
    w.Reaches (w.step s) (s.settle f.next outer c errors) :=
  reaches_settle_of hs hst ht (fun next _ _ => w.runsThrough next _) hx

/-- The first bindings of a frame are handled in finitely many steps. -/
theorem reaches_settleSome {pre rest : List Binding} (hs : s.Tracks)
    (hst : s.stage = .visiting f outer) (ht : f.todo = pre ++ rest) :
    w.Reaches s (s.settleSome f outer
      (w.components f.file (outer.map Frame.file) (f.depth + 1) pre) rest) :=
  reaches_settleSome_of hs hst ht (fun next _ _ => w.runsThrough next _)

/-- The walk comes to each of a frame's bindings when those in front of it are done with, and the
frame is as it is otherwise. -/
theorem reaches_binding {pre : List Binding} (hs : s.Tracks) (hst : s.stage = .visiting f outer)
    (ht : f.todo = pre ++ b :: bs) :
    ∃ s' f', w.Reaches s s' ∧ s'.stage = .visiting f' outer ∧ f'.todo = b :: bs ∧
      f'.facts = f.facts ∧ f'.file = f.file ∧ f'.done.length = pre.length + f.done.length :=
  ⟨_, _, reaches_settleSome hs hst ht, rfl, rfl, rfl, rfl, by simp [components_eq]⟩

/-- **A walk comes to its end.** Whatever was left of the walks before, a run from the beginning of
a walk ends with no file open and with what `Walker.walk` finds. -/
theorem reaches_walk (w : Walker) (past : Session) (root : Path) :
    ∃ s, w.Reaches (w.start past root) s ∧ s.active = [] ∧
      s.outcome? = some (w.walk root) := by
  rw [start, Walker.walk]
  cases hl : w.resolve root.text none with
  | none => exact ⟨_, .refl .., rfl, rfl⟩
  | some l =>
    dsimp only
    cases hsc : w.scan l with
    | error fault => exact ⟨_, .refl .., rfl, rfl⟩
    | ok used =>
      -- The root is entered, its bindings run through, and it is left.
      have hs : (w.start past root).Tracks := tracks_start w past root
      simp only [start, hl, hsc] at hs
      have hrun := w.runsThrough l [] _ _ [] hs rfl rfl rfl
      refine ⟨_, hrun.trans (Reaches.head (.refl ..)), ?_, ?_⟩
      · rw [step_leave rfl rfl]
        simp [Session.leave, Session.settleAll, Session.enter]
      · rw [step_leave rfl rfl]
        simp [Session.leave, Session.settleAll, Session.enter, Session.outcome?, Frame.tree,
          Frame.facts]

end Walker

end RenderTree
