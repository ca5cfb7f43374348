import RenderTree.Proofs.Disk.Content
import RenderTree.Proofs.Disk.Segment

/-!
# What writing a file changes

A text can be written to if it denotes a regular file, or a free name in a directory. Nothing but that
file is changed, and the text denotes it as before, or from then on.

* `Disk.WrittenAt` — two disks that differ in one file, which is there on the second of them.
* `Disk.IsTarget` — a text can be written to, and a location is where that goes.
* `openEmpty_eq_ok_iff` — what can be opened for writing, and what that does.
* `find_written`, `read_written` — what was written is found, and read, where it was written to.
-/

namespace RenderTree.Disk

variable {d d' : Disk} {cwd here l : Location} {text : Text} {bytes : List UInt8}
  {e : Option Entry} {jump jump' : Location → List Text → Except Trouble (Location × Option Entry)}

/-! ### One file written -/

/-- The second disk has bytes in a file at a location, and everywhere else what the first has. -/
structure WrittenAt (l : Location) (bytes : List UInt8) (d d' : Disk) : Prop where
  there : d'.entry? l = some (.file bytes)
  elsewhere : ∀ m, m ≠ l → d'.entry? m = d.entry? m

/-- Bytes that are put at a location are written there. -/
theorem writtenAt_set (hl : l ≠ .root) (bytes : List UInt8) :
    WrittenAt l bytes d (d.set l (.file bytes)) where
  there := entry?_set_self hl _
  elsewhere := fun _ hm => entry?_set_of_ne hm _

/-- Nothing is at the location, or a regular file. -/
def IsFree (d : Disk) (l : Location) : Prop :=
  d.entry? l = none ∨ ∃ bytes, d.entry? l = some (.file bytes)

/-- The root is not free. -/
theorem IsFree.ne_root (h : d.IsFree l) : l ≠ .root := by
  rintro rfl
  rcases h with h | ⟨bytes, h⟩ <;> simp [ entry?] at h

/-- No directory is at a free location. -/
theorem IsFree.ne_directory (h : d.IsFree l) : d.entry? l ≠ some .directory := by
  rcases h with h | ⟨bytes, h⟩ <;> simp [h]

/-- No link is at a free location. -/
theorem IsFree.ne_link {target : Text} (h : d.IsFree l) : d.entry? l ≠ some (.link target) := by
  rcases h with h | ⟨bytes, h⟩ <;> simp [h]

/-! ### Look-ups -/

/-- No look-up finds that a text can be no path: that is done with before. -/
theorem along_title? {t : Trouble}
    (hjump : ∀ here steps t, jump here steps = .error t → t.title? ≠ none) :
    ∀ steps here, d.along jump here steps = .error t → t.title? ≠ none := by
  intro steps
  induction steps with
  | nil =>
    intro here h
    cases h
  | cons s rest ih =>
    intro here h
    have hsegment := d.segment_along jump here s rest
    generalize d.along jump here (s :: rest) = r at hsegment h
    -- A trouble arises at this segment, or behind it.
    cases hsegment with
    | blocked =>
      cases h
      decide
    | tooLong =>
      cases h
      decide
    | lost =>
      cases h
      decide
    | free => cases h
    | link => exact hjump _ _ _ h
    | enter => exact ih _ h
    | dots => exact ih _ h

/-- Every trouble on the way has a number and a text. -/
theorem place_title? {t : Trouble} :
    ∀ links here steps, d.place links here steps = .error t → t.title? ≠ none := by
  intro links
  induction links generalizing t with
  | zero =>
    intro here steps
    refine along_title? ?_ steps here
    intro here steps t h
    cases h
    decide
  | succ links ih => exact fun here steps => along_title? (fun _ _ _ => ih _ _) steps here

/-- That a text can be no path is no trouble with files. -/
theorem title?_of_unnamable? {t : Trouble} (h : unnamable? text = some t) : t.title? = none := by
  rw [unnamable?] at h
  split at h
  · cases h
    rfl
  · split at h <;> cases h
    rfl

/-- What is no trouble with files is found in the text alone. -/
theorem find_eq_error_iff {t : Trouble} (ht : t.title? = none) (d : Disk) (cwd : Location)
    (text : Text) : d.find cwd text = .error t ↔ unnamable? text = some t := by
  have hsize : Trouble.nameTooLong ≠ t ∧ Trouble.notFound ≠ t := by
    constructor <;> rintro rfl <;> cases ht
  rw [find, refused?]
  cases hname : unnamable? text with
  | some u => simp
  | none =>
    rw [Option.none_or]
    split
    next u hu =>
      split at hu
      · cases hu
        simp [hsize.1]
      · split at hu <;> cases hu
        simp [hsize.2]
    next => exact iff_of_false (fun h => place_title? _ _ _ h ht) (by simp)

/-- **Segment by segment.** A look-up that leads to a place where a file is written leads to that
file, if it does so behind every link. -/
theorem along_written (h : WrittenAt l bytes d d') (hl : d.IsFree l)
    (hjump : ∀ here steps e, jump here steps = .ok (l, e) →
      jump' here steps = .ok (l, some (.file bytes))) :
    ∀ steps here e, d.along jump here steps = .ok (l, e) →
      d'.along jump' here steps = .ok (l, some (.file bytes)) := by
  intro steps
  induction steps with
  | nil =>
    intro here e hd
    rw [along, Except.ok.injEq, Prod.mk.injEq] at hd
    obtain ⟨rfl, -⟩ := hd
    rw [along, h.there]
  | cons s rest ih =>
    intro here e hd
    have hdirectory : ∀ {m}, d.entry? m = some .directory → d'.entry? m = some .directory := by
      intro m hm
      rw [h.elsewhere m fun heq => hl.ne_directory (heq ▸ hm), hm]
    have hsegment := d.segment_along jump here s rest
    generalize d.along jump here (s :: rest) = r at hsegment hd
    cases hsegment with
    | blocked => cases hd
    | tooLong => cases hd
    | lost => cases hd
    | free directory name size absent last =>
      -- The place is reached, and there is a file now.
      cases hd
      subst last
      have hsegment' : Segment d' jump' here s [] _ :=
        .enter (hdirectory directory) name size h.there (by simp)
      rw [hsegment'.along_eq, along, h.there]
    | link directory name size link =>
      have hne : here.child s name ≠ l := fun heq => hl.ne_link (heq ▸ link)
      have hsegment' : Segment d' jump' here s rest _ :=
        .link (hdirectory directory) name size (by rw [h.elsewhere _ hne, link])
      rw [hsegment'.along_eq]
      exact hjump _ _ _ hd
    | @enter e directory name size entry plain =>
      -- Be it the place or not, there is something on it now, and no link.
      have hentry : ∃ e', d'.entry? (here.child s name) = some e' ∧ ∀ target, e' ≠ .link target := by
        by_cases hc : here.child s name = l
        · exact ⟨.file bytes, by rw [hc, h.there], by simp⟩
        · exact ⟨e, by rw [h.elsewhere _ hc, entry], plain⟩
      obtain ⟨e', hentry, hplain⟩ := hentry
      have hsegment' : Segment d' jump' here s rest _ :=
        .enter (hdirectory directory) name size hentry hplain
      rw [hsegment'.along_eq]
      exact ih _ _ hd
    | dots directory dots =>
      rw [(Segment.dots (hdirectory directory) dots).along_eq]
      exact ih _ _ hd

/-- Segments that led to a location lead to the file that is written there. -/
theorem place_written (h : WrittenAt l bytes d d') (hl : d.IsFree l) :
    ∀ links here steps e, d.place links here steps = .ok (l, e) →
      d'.place links here steps = .ok (l, some (.file bytes)) := by
  intro links
  induction links with
  | zero =>
    intro here steps e hd
    refine along_written h hl ?_ steps here e hd
    intro here steps e hd
    cases hd
  | succ links ih => exact fun here steps e hd => along_written h hl ih steps here e hd

/-! ### Writing -/

/-- The text denotes the location of a regular file, or one where a file can be made. -/
structure IsTarget (d : Disk) (cwd : Location) (text : Text) (l : Location) : Prop where
  denotes : d.find cwd text = .ok (l, d.entry? l)
  free : d.IsFree l

/-- **Opening.** Exactly a target can be opened for writing, and there is an empty file then. -/
theorem openEmpty_eq_ok_iff :
    d.openEmpty cwd text = .ok (l, d') ↔ d.IsTarget cwd text l ∧ d' = d.set l (.file []) := by
  rw [openEmpty]
  constructor
  · intro h
    -- There is a file, or nothing yet.
    split at h
    next m old hf =>
      cases h
      have he := entry?_of_find hf
      exact ⟨⟨by rw [hf, he], .inr ⟨old, he⟩⟩, rfl⟩
    next m hf =>
      cases h
      have he := entry?_of_find hf
      exact ⟨⟨by rw [hf, he], .inl he⟩, rfl⟩
    next => cases h
    next => cases h
  · rintro ⟨⟨hf, hl⟩, rfl⟩
    rcases hl with hnone | ⟨old, hfile⟩
    · rw [hf, hnone]
    · rw [hf, hfile]

/-- What is no trouble with files is found in the text alone when it is opened, too. -/
theorem openEmpty_eq_error_iff {t : Trouble} (ht : t.title? = none) (d : Disk) (cwd : Location)
    (text : Text) : d.openEmpty cwd text = .error t ↔ unnamable? text = some t := by
  have hdir : Trouble.isADirectory ≠ t := by
    rintro rfl
    cases ht
  rw [← find_eq_error_iff ht d cwd text, openEmpty]
  split <;> simp_all

/-- Of two entries put at a location the later one is there. -/
theorem set_set (d : Disk) (l : Location) (e e' : Entry) : (d.set l e).set l e' = d.set l e' := by
  simp [set]

/-- What is added to a file stands behind what was in it. -/
theorem append_set_file (hl : l ≠ .root) (old : List UInt8) :
    (d.set l (.file old)).append l bytes = d.set l (.file (old ++ bytes)) := by
  rw [append, set_set, bytes?, entry?_set_self hl]
  rfl

/-- A target denotes the file that was written to it. -/
theorem IsTarget.find_written (ht : d.IsTarget cwd text l) (h : WrittenAt l bytes d d') :
    d'.find cwd text = .ok (l, some (.file bytes)) := by
  have hplace := place_written h ht.free _ _ _ _ (place_of_find ht.denotes)
  have hd := ht.denotes
  rw [find] at hd ⊢
  split at hd
  · cases hd
  · exact hplace

/-- **Reading back.** What was written to a target is read from it. -/
theorem IsTarget.read_written (ht : d.IsTarget cwd text l) (h : WrittenAt l bytes d d') :
    d'.read cwd text = .ok bytes := by
  rw [read, ht.find_written h]

end RenderTree.Disk
