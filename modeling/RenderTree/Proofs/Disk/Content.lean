import RenderTree.Proofs.Disk.Follow
import RenderTree.Proofs.Disk.Segment

/-!
# What is in files, and where they are

Which file a path leads to depends on the directories, the links and the files that there are, and
never on what is in a file. So two disks that differ in nothing else look every path up alike.

* `Disk.SameShape` — two disks with the same directories and links and with files at the same places.
* `along_sameShape`, `place_sameShape`, `find_sameShape` — every look-up takes the same course.
* `resolve_sameShape` — every specifier stands for the same file.
* `Disk.DifferIn` — two disks that differ in what is in one file, and in nothing else.
-/

namespace RenderTree

/-- An entry without what is in it, if it is a file. -/
def Entry.shape : Entry → Entry
  | file _ => file []
  | e => e

namespace Disk

/-- The two disks have the same directories and links, and files at the same places. -/
def SameShape (d d' : Disk) : Prop :=
  ∀ l, (d'.entry? l).map Entry.shape = (d.entry? l).map Entry.shape

/-- What a look-up comes to, apart from what is in the file that it may have led to. -/
def courseOf (r : Except Trouble (Location × Option Entry)) :
    Except Trouble (Location × Option Entry) :=
  r.map fun x => (x.1, x.2.map Entry.shape)

section SameShape

variable {d d' : Disk} {cwd here l : Location}
  {jump jump' : Location → List Text → Except Trouble (Location × Option Entry)}

/-- At each place the two disks have the same entry, or a file each. -/
theorem SameShape.entry_cases (h : d.SameShape d') (l : Location) :
    d'.entry? l = d.entry? l ∨
      ∃ bytes bytes', d.entry? l = some (.file bytes) ∧ d'.entry? l = some (.file bytes') := by
  have hl := h l
  rcases hd : d.entry? l with _ | (bytes | _ | target) <;>
    rcases hd' : d'.entry? l with _ | (bytes' | _ | target') <;>
      simp_all [Entry.shape]

/-- Disks of one shape have their regular files at the same locations. -/
theorem SameShape.isSome_bytes? (h : d.SameShape d') (l : Location) :
    (d'.bytes? l).isSome = (d.bytes? l).isSome := by
  rcases h.entry_cases l with heq | ⟨bytes, bytes', hd, hd'⟩
  · rw [bytes?, bytes?, heq]
  · simp [bytes?, hd, hd']

/-- Disks of one shape have the same directories. -/
theorem entry?_eq_directory_iff (h : d.SameShape d') (l : Location) :
    d'.entry? l = some .directory ↔ d.entry? l = some .directory := by
  rcases h.entry_cases l with heq | ⟨bytes, bytes', hd, hd'⟩
  · rw [heq]
  · simp [hd, hd']

/-- Disks of one shape have the same links. -/
theorem entry?_eq_link_iff {target : Text} (h : d.SameShape d') (l : Location) :
    d'.entry? l = some (.link target) ↔ d.entry? l = some (.link target) := by
  rcases h.entry_cases l with heq | ⟨bytes, bytes', hd, hd'⟩
  · rw [heq]
  · simp [hd, hd']

/-- **One run of segments.** Two look-ups take the same course if they do so behind every link. -/
theorem along_sameShape (h : d.SameShape d')
    (hjump : ∀ here steps, courseOf (jump' here steps) = courseOf (jump here steps)) :
    ∀ steps here, courseOf (d'.along jump' here steps) = courseOf (d.along jump here steps) := by
  intro steps
  induction steps with
  | nil =>
    intro here
    simp [along, courseOf, Except.map, h here]
  | cons s rest ih =>
    intro here
    have hdir := entry?_eq_directory_iff h here
    rw [along, along]
    simp only [ne_eq, hdir]
    split
    · rfl
    · split
      next hs =>
        split
        · rfl
        · -- The next segment leads to the same entry on both disks, or to a file on each.
          rcases h.entry_cases (here.child s hs) with heq | ⟨bytes, bytes', hd, hd'⟩
          · rw [heq]
            rcases d.entry? (here.child s hs) with _ | (bytes | _ | target)
            · rfl
            · exact ih _
            · exact ih _
            · exact hjump _ _
          · simp only [hd, hd']
            exact ih _
      next => exact ih _

/-- **Links.** Two look-ups that may follow as many links take the same course. -/
theorem place_sameShape (h : d.SameShape d') :
    ∀ links here steps,
      courseOf (d'.place links here steps) = courseOf (d.place links here steps) := by
  -- By induction on the number of links that may still be followed.
  intro links
  induction links with
  | zero => exact fun here steps => along_sameShape h (fun _ _ => rfl) steps here
  | succ links ih => exact fun here steps => along_sameShape h ih steps here

/-- A text is looked up in one course on disks of one shape. -/
theorem find_sameShape (h : d.SameShape d') (cwd : Location) (text : Text) :
    courseOf (d'.find cwd text) = courseOf (d.find cwd text) := by
  -- Before the first segment is looked up, the text alone decides.
  rw [find, find]
  split
  · rfl
  · exact place_sameShape h _ _ _

/-- A path denotes the same entry on both disks. -/
theorem locate_sameShape (h : d.SameShape d') (cwd : Location) (text : Text) :
    d'.locate cwd text = d.locate cwd text := by
  have hc := find_sameShape h cwd text
  rw [locate, locate]
  rcases hf : d.find cwd text with t | ⟨l, _ | e⟩ <;>
    rcases hf' : d'.find cwd text with t' | ⟨l', _ | e'⟩ <;>
      simp_all [courseOf, Except.map]

/-- A path denotes the same regular file on both disks. -/
theorem file?_sameShape (h : d.SameShape d') (cwd : Location) (text : Text) :
    d'.file? cwd text = d.file? cwd text := by
  rw [file?, file?, locate_sameShape h]
  rcases d.locate cwd text with t | l
  · rfl
  · simp only [h.isSome_bytes? l]

/-- A text denotes the same directory on both disks. -/
theorem find_eq_directory_iff {text : Text} (h : d.SameShape d') (cwd : Location) :
    d'.find cwd text = .ok (l, some .directory) ↔ d.find cwd text = .ok (l, some .directory) := by
  have hc := find_sameShape h cwd text
  have hshape : ∀ e : Entry, e.shape = .directory ↔ e = .directory := by
    intro e
    cases e <;> simp [Entry.shape]
  have hcourse : ∀ r : Except Trouble (Location × Option Entry),
      courseOf r = .ok (l, some .directory) ↔ r = .ok (l, some .directory) := by
    intro r
    obtain t | ⟨m, _ | e⟩ := r <;> simp [courseOf, Except.map, hshape]
  rw [← hcourse (d'.find cwd text), hc, hcourse]

/-- The same links are found on both disks. -/
theorem linkAt?_sameShape {s : Text} (h : d.SameShape d') (cwd : Location) (dir : Path)
    (hs : IsName s) : d'.linkAt? cwd dir s hs = d.linkAt? cwd dir s hs := by
  ext target
  rw [linkAt?_eq_some_iff, linkAt?_eq_some_iff]
  simp only [find_eq_directory_iff h, entry?_eq_link_iff h]

/-- **Same links.** Links are replaced alike on both disks. -/
theorem follow_sameShape (h : d.SameShape d') (cwd : Location) (inside : List Path) (here : Path)
    (steps : List Text) : d'.follow cwd inside here steps = d.follow cwd inside here steps :=
  kept_true.follow_congr (fun _ hs => linkAt?_sameShape h cwd _ hs) trivial

/-- **Same files.** A specifier stands for the same file on both disks. -/
theorem resolve_sameShape (h : d.SameShape d') (readable : Path → Bool) (cwd : Location)
    (specifier : Text) (importer moduleDir : Option Path) :
    d'.resolve readable cwd specifier importer moduleDir =
      d.resolve readable cwd specifier importer moduleDir := by
  have hreadable : d'.isReadableFile readable cwd = d.isReadableFile readable cwd := by
    funext p
    rw [isReadableFile, isReadableFile, file?_sameShape h]
  have hreal : ∀ text, d'.realOf cwd text = d.realOf cwd text := by
    intro text
    rw [realOf, realOf, followed, followed, follow_sameShape h]
  rw [resolve, resolve, chosen?, chosen?, hreadable]
  simp only [hreal]

end SameShape

/-! ### One file -/

/-- The two disks differ in what is in one regular file, and in nothing else. -/
structure DifferIn (file : Location) (d d' : Disk) : Prop where
  /-- The file is there on both of them. -/
  there : (d.bytes? file).isSome ∧ (d'.bytes? file).isSome
  /-- Everywhere else they have the same. -/
  elsewhere : ∀ l, l ≠ file → d'.entry? l = d.entry? l

variable {d d' : Disk} {file l : Location}

/-- To differ in a file goes both ways. -/
theorem DifferIn.symm (h : DifferIn file d d') : DifferIn file d' d :=
  ⟨h.there.symm, fun l hl => (h.elsewhere l hl).symm⟩

/-- Disks that differ in what is in one file have one shape. -/
theorem DifferIn.sameShape (h : DifferIn file d d') : d.SameShape d' := by
  intro l
  by_cases hl : l = file
  · subst hl
    obtain ⟨hd, hd'⟩ := h.there
    rcases he : d.entry? l with _ | (bytes | _ | target) <;>
      rcases he' : d'.entry? l with _ | (bytes' | _ | target') <;>
        simp_all [bytes?, Entry.shape]
  · rw [h.elsewhere l hl]

/-- What is read is the same, unless it is read from the file. -/
theorem DifferIn.read_eq {text : Text} {cwd : Location} (h : DifferIn file d d')
    (hne : d.file? cwd text ≠ some file) : d'.read cwd text = d.read cwd text := by
  have hc := find_sameShape h.sameShape cwd text
  rw [read, read]
  cases hf : d.find cwd text with
  | error t =>
    cases hf' : d'.find cwd text with
    | error t' =>
      simp only [hf, hf', courseOf, Except.map, Except.error.injEq] at hc
      rw [hc]
    | ok r => simp [hf, hf', courseOf, Except.map] at hc
  | ok r =>
    cases hf' : d'.find cwd text with
    | error t' => simp [hf, hf', courseOf, Except.map] at hc
    | ok r' =>
      obtain ⟨l, e⟩ := r
      obtain ⟨l', e'⟩ := r'
      simp only [hf, hf', courseOf, Except.map, Except.ok.injEq, Prod.mk.injEq] at hc
      obtain rfl := hc.1
      -- The same place has been reached, and it is not that of the file.
      have hl : l' ≠ file := by
        rintro rfl
        apply hne
        have hentry := entry?_of_find hf
        obtain ⟨e, he⟩ : ∃ e, d.entry? l' = some e := by
          rw [← Option.isSome_iff_exists]
          have hbytes := h.there.1
          rw [bytes?] at hbytes
          split at hbytes
          next bytes hfile => rw [hfile]; rfl
          next => cases hbytes
        rw [file?, locate, hf, ← hentry, he]
        exact if_pos h.there.1
      have hsame : e' = e := by rw [← entry?_of_find hf, ← entry?_of_find hf', h.elsewhere _ hl]
      rw [hsame]

/-- What was put at a location is there. The root cannot be replaced. -/
theorem entry?_set_self (hl : l ≠ .root) (e : Entry) : entry? (d.set l e) l = some e := by
  simp [ entry?, set, hl]

/-- What is put at a location changes nothing anywhere else. -/
theorem entry?_set_of_ne {m : Location} (hm : m ≠ l) (e : Entry) :
    entry? (d.set l e) m = d.entry? m := by
  have hne : l ≠ m := fun h => hm h.symm
  have hfind : ((l, e) :: d.entries.filter (fun x => x.1 != l)).find? (fun x => x.1 = m) =
      d.entries.find? (fun x => x.1 = m) := by
    rw [List.find?_cons_of_neg (by simpa using hne), List.find?_filter]
    congr 1
    funext x
    by_cases hx : x.1 = m <;> simp [hx, hm]
  unfold entry?
  rw [set, hfind]

end Disk

end RenderTree
