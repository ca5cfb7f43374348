import RenderTree.Disk.Lookup

/-!
# One segment of a look-up

A look-up goes segment by segment, and there are seven things that it can come to at each. Everything
that holds of look-ups is read off these.

* `Disk.Segment` — what a look-up comes to at a segment, each with its conditions.
* `Disk.segment_along`, `Disk.Segment.along_eq` — it comes to one of them, and to no other.
* `Disk.place_of_find` — the look-up that is behind what a text denotes.
* `Disk.entry?_of_find` — a look-up tells what is where it has led to.
-/

namespace RenderTree.Disk

variable {d : Disk} {cwd here l : Location} {s text : Text} {rest : List Text} {e : Option Entry}
  {jump : Location → List Text → Except Trouble (Location × Option Entry)}
  {r : Except Trouble (Location × Option Entry)}

/-- What a look-up comes to at a segment, with the conditions under which it does. -/
inductive Segment (d : Disk)
    (jump : Location → List Text → Except Trouble (Location × Option Entry)) (here : Location)
    (s : Text) (rest : List Text) : Except Trouble (Location × Option Entry) → Prop where
  | blocked (blocked : d.entry? here ≠ some .directory) :
      Segment d jump here s rest (.error .notADirectory)
  | tooLong (directory : d.entry? here = some .directory) (name : IsName s)
      (size : maxNameSize < s.size) : Segment d jump here s rest (.error .nameTooLong)
  | lost (directory : d.entry? here = some .directory) (name : IsName s)
      (size : ¬ maxNameSize < s.size) (absent : d.entry? (here.child s name) = none)
      (more : rest ≠ []) : Segment d jump here s rest (.error .notFound)
  | free (directory : d.entry? here = some .directory) (name : IsName s)
      (size : ¬ maxNameSize < s.size) (absent : d.entry? (here.child s name) = none)
      (last : rest = []) : Segment d jump here s rest (.ok (here.child s name, none))
  | link {target : Text} (directory : d.entry? here = some .directory) (name : IsName s)
      (size : ¬ maxNameSize < s.size)
      (link : d.entry? (here.child s name) = some (.link target)) :
      Segment d jump here s rest (jump (startOf here target) (stepsOf target ++ rest))
  | enter {e : Entry} (directory : d.entry? here = some .directory) (name : IsName s)
      (size : ¬ maxNameSize < s.size) (entry : d.entry? (here.child s name) = some e)
      (plain : ∀ target, e ≠ .link target) :
      Segment d jump here s rest (d.along jump (here.child s name) rest)
  | dots (directory : d.entry? here = some .directory) (dots : ¬ IsName s) :
      Segment d jump here s rest (d.along jump (if s = ".." then here.parent else here) rest)

/-- A look-up comes to one of these. -/
theorem segment_along (d : Disk)
    (jump : Location → List Text → Except Trouble (Location × Option Entry)) (here : Location)
    (s : Text) (rest : List Text) :
    Segment d jump here s rest (d.along jump here (s :: rest)) := by
  rw [along]
  split
  next hblocked => exact .blocked hblocked
  next hdir =>
    have hdirectory : d.entry? here = some .directory := Classical.not_not.1 hdir
    split
    next hs =>
      split
      next hsize => exact .tooLong hdirectory hs hsize
      next hsize =>
        split
        next hnone =>
          split
          next hrest => exact .free hdirectory hs hsize hnone (List.isEmpty_iff.1 hrest)
          next hrest => exact .lost hdirectory hs hsize hnone (by simpa using hrest)
        next target hlink => exact .link hdirectory hs hsize hlink
        next e hplain hentry => exact .enter hdirectory hs hsize hentry hplain
    next hs => exact .dots hdirectory hs

/-- And to no other. -/
theorem Segment.along_eq (h : Segment d jump here s rest r) :
    d.along jump here (s :: rest) = r := by
  cases h with
  | blocked hblocked => rw [along, if_pos hblocked]
  | tooLong directory name size =>
    rw [along, if_neg (not_not_intro directory), dif_pos name, if_pos size]
  | lost directory name size absent more =>
    rw [along, if_neg (not_not_intro directory), dif_pos name, if_neg size, absent]
    exact if_neg (by simpa using more)
  | free directory name size absent last =>
    rw [along, if_neg (not_not_intro directory), dif_pos name, if_neg size, absent]
    exact if_pos (by simpa using last)
  | link directory name size link =>
    rw [along, if_neg (not_not_intro directory), dif_pos name, if_neg size, link]
  | @enter e directory name size entry plain =>
    rw [along, if_neg (not_not_intro directory), dif_pos name, if_neg size, entry]
    cases e with
    | link target => exact absurd rfl (plain target)
    | file bytes => rfl
    | directory => rfl
  | dots directory dots => rw [along, if_neg (not_not_intro directory), dif_neg dots]

/-- A text that denotes a location is looked up from the working directory or the root. -/
theorem place_of_find (h : d.find cwd text = .ok (l, e)) :
    d.place maxLinks (startOf cwd text) (stepsOf text) = .ok (l, e) := by
  rw [find] at h
  split at h
  · cases h
  · exact h

/-- A look-up tells what is where it has led to, if this is so behind every link. -/
theorem entry?_of_along
    (hjump : ∀ here steps l e, jump here steps = .ok (l, e) → d.entry? l = e) :
    ∀ steps here l e, d.along jump here steps = .ok (l, e) → d.entry? l = e := by
  intro steps
  induction steps with
  | nil =>
    intro here l e h
    rw [along, Except.ok.injEq, Prod.mk.injEq] at h
    obtain ⟨rfl, he⟩ := h
    exact he
  | cons s rest ih =>
    intro here l e h
    have hsegment := d.segment_along jump here s rest
    generalize d.along jump here (s :: rest) = r at hsegment h
    -- Only four cases give an answer; a link hands it on, and two go one segment further.
    cases hsegment with
    | blocked => cases h
    | tooLong => cases h
    | lost => cases h
    | free directory name size none last =>
      cases h
      exact none
    | link => exact hjump _ _ _ _ h
    | enter => exact ih _ _ _ h
    | dots => exact ih _ _ _ h

/-- What is found at a location is what is there. -/
theorem entry?_of_place :
    ∀ links here steps l e, d.place links here steps = .ok (l, e) → d.entry? l = e := by
  -- By induction on the number of links that may still be followed.
  intro links
  induction links with
  | zero =>
    intro here steps l e h
    refine entry?_of_along ?_ steps here l e h
    intro here steps l e h
    cases h
  | succ links ih => exact fun here steps l e h => entry?_of_along ih steps here l e h

/-- What is found for a text is what is at the location. -/
theorem entry?_of_find (h : d.find cwd text = .ok (l, e)) : d.entry? l = e :=
  entry?_of_place _ _ _ _ _ (place_of_find h)

end RenderTree.Disk
