import RenderTree.Proofs.Disk.Stands

/-!
# Texts that have a real path

The real path of a text is made without a look at what exists, and then looked up, to find out whether
links that lead in circles are left in it. If none of the links came up again while it was replaced,
and none was missed, there are none.

* `Disk.Resolves` — a text that has a real path.
* `Disk.realPath_eq_ok_iff` — which one that is.
* `Disk.Unlinked` — no link is met where segments are looked up.
* `Disk.Settled` — a path that is made of two dots and names, and meets no link.
* `Disk.IsLoopless` — a text all of whose links can be replaced; `Disk.IsLoopless.resolves`: it has a
  real path.
-/

namespace RenderTree.Disk

open RenderTree.Text

variable {d : Disk} {cwd here l : Location} {s text : Text} {steps xs ys names : List Text}
  {p : Path} {inside : List Path}
  {jump : Location → List Text → Except Trouble (Location × Option Entry)}

/-- A text has a real path: all paths that are made on the way to it can be paths, and where it leads
with links replaced, there are not too many links left. -/
structure Resolves (d : Disk) (cwd : Location) (text : Text) : Prop where
  plain : ∀ q ∈ (d.followed cwd text).asked ++ [d.realOf cwd text], unnamable? q.text = none
  looped : d.find cwd (d.realOf cwd text).text ≠ .error .tooManyLinks

/-- Asking about paths goes well if all of them can be named. -/
theorem askedTrouble?_eq_none_iff {ps : List Path} :
    askedTrouble? ps = none ↔ ∀ q ∈ ps, unnamable? q.text = none := by
  rw [askedTrouble?, List.findSome?_eq_none_iff]

/-- A text has a real path exactly if it resolves, and then it is the one that is made of it. -/
theorem realPath_eq_ok_iff :
    d.realPath cwd text = .ok p ↔ d.Resolves cwd text ∧ p = d.realOf cwd text := by
  unfold realPath
  dsimp only
  split
  next t ht =>
    refine iff_of_false (by simp) fun h => ?_
    rw [askedTrouble?_eq_none_iff.2 h.1.plain] at ht
    cases ht
  next hname =>
    have hplain := askedTrouble?_eq_none_iff.1 hname
    split
    next hloop => exact iff_of_false (by simp) fun h => h.1.looped hloop
    next hloop =>
      rw [Except.ok.injEq]
      exact ⟨fun h => ⟨⟨hplain, fun hfind => hloop hfind⟩, h.symm⟩, fun h => h.2.symm⟩

/-! ### Look-ups without links -/

/-- No link is met where the segments are looked up: without following any, there are not too many. -/
def Unlinked (d : Disk) (here : Location) (steps : List Text) : Prop :=
  d.place 0 here steps ≠ .error .tooManyLinks

/-- Where no segments are left no link is. -/
theorem unlinked_nil (d : Disk) (here : Location) : d.Unlinked here [] := by
  rw [Unlinked, place, along]
  simp

/-- **One segment.** No link is met at a segment if it is not the name of one, and none behind it. -/
theorem unlinked_cons_iff : d.Unlinked here (s :: xs) ↔
    (d.entry? here = some .directory →
      (∀ hs : IsName s, ¬ maxNameSize < s.size →
        (∀ target, d.entry? (here.child s hs) ≠ some (.link target)) ∧
          (d.entry? (here.child s hs) ≠ none → d.Unlinked (here.child s hs) xs)) ∧
        (¬ IsName s → d.Unlinked (if s = ".." then here.parent else here) xs)) := by
  have hsegment := d.segment_along (fun _ _ => .error .tooManyLinks) here s xs
  unfold Unlinked
  simp only [place]
  generalize d.along (fun _ _ => .error .tooManyLinks) here (s :: xs) = r at hsegment
  -- Each way to deal with the first segment decides what is asked of the rest.
  cases hsegment with
  | blocked blocked => exact iff_of_true (by simp) fun hdir => absurd hdir blocked
  | tooLong directory name size =>
    exact iff_of_true (by simp) fun _ => ⟨fun _ h => absurd size h, fun h => absurd name h⟩
  | lost directory name size absent more =>
    refine iff_of_true (by simp) fun _ => ⟨fun _ _ => ?_, fun h => absurd name h⟩
    simp [absent]
  | free directory name size absent last =>
    refine iff_of_true (by simp) fun _ => ⟨fun _ _ => ?_, fun h => absurd name h⟩
    simp [absent]
  | @link target directory name size link =>
    refine iff_of_false (by simp) fun h => ?_
    exact ((h directory).1 name size).1 target link
  | @enter e directory name size entry plain =>
    constructor
    · intro h _
      refine ⟨fun _ _ => ⟨?_, fun _ => h⟩, fun hdots => absurd name hdots⟩
      intro target htarget
      rw [entry, Option.some.injEq] at htarget
      exact plain target htarget
    · intro h
      exact ((h directory).1 name size).2 (by simp [entry])
  | dots directory dots =>
    constructor
    · exact fun h _ => ⟨fun name => absurd name dots, fun _ => h⟩
    · exact fun h => (h directory).2 dots

/-- A look-up that meets no link comes to the same however links are followed. -/
theorem Unlinked.along_eq (h : d.Unlinked here steps) :
    d.along jump here steps = d.place 0 here steps := by
  induction steps generalizing here with
  | nil => rfl
  | cons s rest ih =>
    have hsegment := d.segment_along (fun _ _ => .error .tooManyLinks) here s rest
    unfold Unlinked at h
    rw [place] at h ih ⊢
    generalize d.along (fun _ _ => .error .tooManyLinks) here (s :: rest) = r at hsegment h
    -- Only a link would make use of the jump.
    cases hsegment with
    | blocked blocked => exact (Segment.blocked blocked).along_eq
    | tooLong directory name size => exact (Segment.tooLong directory name size).along_eq
    | lost directory name size absent more =>
      exact (Segment.lost directory name size absent more).along_eq
    | free directory name size absent last =>
      exact (Segment.free directory name size absent last).along_eq
    | link => exact absurd rfl h
    | enter directory name size entry plain =>
      exact (Segment.enter directory name size entry plain).along_eq.trans (ih h)
    | dots directory dots => exact (Segment.dots directory dots).along_eq.trans (ih h)

/-- No link is met on the first part of the way either. -/
theorem Unlinked.of_append (h : d.Unlinked here (xs ++ ys)) : d.Unlinked here xs := by
  induction xs generalizing here with
  | nil => exact d.unlinked_nil here
  | cons x xs ih =>
    rw [List.cons_append, unlinked_cons_iff] at h
    rw [unlinked_cons_iff]
    intro hdir
    obtain ⟨hname, hdots⟩ := h hdir
    refine ⟨fun hs hsize => ?_, fun hs => ih (hdots hs)⟩
    obtain ⟨hplain, hnext⟩ := hname hs hsize
    exact ⟨hplain, fun hne => ih (hnext hne)⟩

/-- With one more segment no link is met if it is not the name of one, where there is a directory. -/
theorem Unlinked.concat (h : d.Unlinked here xs)
    (hlast : ∀ l, d.Leads here xs l 0 → d.entry? l = some .directory → d.Unlinked l [s]) :
    d.Unlinked here (xs ++ [s]) := by
  induction xs generalizing here with
  | nil =>
    rw [List.nil_append, unlinked_cons_iff]
    exact fun hdir => unlinked_cons_iff.1 (hlast here (.arrive here) hdir) hdir
  | cons x xs ih =>
    rw [unlinked_cons_iff] at h
    rw [List.cons_append, unlinked_cons_iff]
    intro hdir
    obtain ⟨hname, hdots⟩ := h hdir
    refine ⟨fun hs hsize => ?_, fun hs => ?_⟩
    · obtain ⟨hplain, hnext⟩ := hname hs hsize
      refine ⟨hplain, fun hne => ih (hnext hne) fun l hl => ?_⟩
      exact hlast l (.enter hdir hs hsize hplain hl)
    · exact ih (hdots hs) fun l hl => hlast l (.dots hdir hs hl)

/-! ### Settled paths -/

/-- A path in which all is done that can be done: two dots are only in front, and none if it is
absolute, and no link is met. -/
structure Settled (d : Disk) (cwd : Location) (p : Path) : Prop where
  unlinked : d.Unlinked (if p.anchor = .relative then cwd else .root) p.segments
  shape : ∃ (k : Nat) (names : List Text),
    p.segments = List.replicate k (Text.ofString "..") ++ names ∧ (∀ s ∈ names, IsName s) ∧
      (p.anchor ≠ .relative → k = 0 ∧ p.anchor = .root)

/-- The working directory is settled. -/
theorem settled_here (d : Disk) (cwd : Location) : d.Settled cwd .here :=
  ⟨d.unlinked_nil cwd, 0, [], rfl, by simp, fun h => absurd rfl h⟩

/-- The root is settled. -/
theorem settled_root (d : Disk) (cwd : Location) : d.Settled cwd .root :=
  ⟨d.unlinked_nil .root, 0, [], rfl, by simp, fun _ => ⟨rfl, rfl⟩⟩

/-- The target of a link on a settled path begins at a settled path. -/
theorem Settled.startAt (h : d.Settled cwd p) (target : Text) :
    d.Settled cwd (startAt p target) := by
  unfold Disk.startAt
  split
  · exact d.settled_root cwd
  · exact h

/-- Where a settled path leads, it stands. -/
theorem Settled.stands (h : d.Settled cwd p)
    (hleads : d.Leads (if p.anchor = .relative then cwd else .root) p.segments l 0) :
    d.Stands cwd p l := by
  obtain ⟨k, names, hsegments, hnames, habsolute⟩ := h.shape
  refine ⟨hleads, fun ha => ?_⟩
  obtain ⟨rfl, hroot⟩ := habsolute ha
  refine ⟨hroot, fun s hs => hnames s ?_⟩
  rw [hsegments] at hs
  simpa using hs

/-- A name behind a settled path settles, unless it is that of a link. -/
theorem Settled.child (h : d.Settled cwd p) (hs : IsName s)
    (hplain : ∀ l, d.Stands cwd p l → d.entry? l = some .directory → ¬ maxNameSize < s.size →
      ∀ target, d.entry? (l.child s hs) ≠ some (.link target)) :
    d.Settled cwd (p.child s hs.isSegment) := by
  constructor
  · -- No link is met at the new segment, nor before it.
    refine h.unlinked.concat fun l hleads hl => ?_
    rw [unlinked_cons_iff]
    refine fun _ => ⟨fun _ hsize => ⟨?_, fun _ => d.unlinked_nil _⟩, fun hdots => absurd hs hdots⟩
    exact hplain l (h.stands hleads) hl hsize
  · obtain ⟨k, names, hsegments, hnames, habsolute⟩ := h.shape
    refine ⟨k, names ++ [s], ?_, ?_, habsolute⟩
    · show p.segments ++ [s] = _
      rw [hsegments, List.append_assoc]
    · intro t ht
      rcases List.mem_append.1 ht with ht | ht
      · exact hnames t ht
      · rw [List.mem_singleton.1 ht]
        exact hs

/-- Two dots behind a settled path take back a name, or stay. -/
theorem Settled.up (h : d.Settled cwd p) : d.Settled cwd p.up := by
  obtain ⟨k, names, hsegments, hnames, habsolute⟩ := h.shape
  unfold Path.up
  split
  -- Two dots behind two dots are appended.
  next hlast =>
    refine ⟨h.unlinked.concat fun l _ _ => ?_, k + 1, [], ?_, by simp, fun ha => absurd hlast.1 ha⟩
    · rw [unlinked_cons_iff]
      exact fun _ => ⟨fun hs => absurd hs (by decide), fun _ => d.unlinked_nil _⟩
    · have hnil : names = [] := by
        rcases List.eq_nil_or_concat names with hnil | ⟨front, x, hx⟩
        · exact hnil
        · rw [List.concat_eq_append] at hx
          have hdots : x = Text.ofString ".." := by simpa [hsegments, hx] using hlast.2
          exact absurd hdots (hnames x (by simp [hx])).2
      show p.segments ++ [Text.ofString ".."] = _
      rw [hsegments, hnil, List.append_nil, List.append_nil, List.replicate_succ']
  next hlast =>
    -- Otherwise the last segment, which is a name, is dropped.
    constructor
    · show d.Unlinked (if p.anchor = .relative then cwd else .root) p.segments.dropLast
      have hunlinked := h.unlinked
      rcases List.eq_nil_or_concat p.segments with hnil | ⟨front, x, hx⟩
      · rw [hnil]
        exact d.unlinked_nil _
      · rw [hx, List.concat_eq_append] at hunlinked
        rw [hx, List.concat_eq_append, List.dropLast_concat]
        exact hunlinked.of_append
    · rcases List.eq_nil_or_concat names with hnil | ⟨front, x, hx⟩
      · have hk : k = 0 := by
          by_cases ha : p.anchor = .relative
          · by_contra hk
            obtain ⟨j, rfl⟩ := Nat.exists_eq_succ_of_ne_zero hk
            exact hlast ⟨ha, by simp [hsegments, hnil, List.replicate_succ']⟩
          · exact (habsolute ha).1
        refine ⟨0, [], ?_, by simp, fun ha => ⟨rfl, (habsolute ha).2⟩⟩
        show p.segments.dropLast = _
        rw [hsegments, hnil, hk]
        rfl
      · rw [List.concat_eq_append] at hx
        refine ⟨k, front, ?_, fun t ht => hnames t (by simp [hx, ht]), habsolute⟩
        show p.segments.dropLast = _
        rw [hsegments, hx, ← List.append_assoc, List.dropLast_concat]

/-- **Where all links are replaced, and none is missed, none is left.** -/
theorem Settled.follow (h : d.Settled cwd p)
    (hmissed : d.NoneMissed cwd (d.follow cwd inside p steps).asked)
    (hends : (d.follow cwd inside p steps).ends = true) :
    d.Settled cwd (d.follow cwd inside p steps).path := by
  fun_induction Disk.follow d cwd inside p steps with
  | case1 inside here => exact h
  -- No link was found: the segment is appended. As none was missed there is none.
  | case2 inside here s rest hs next hlink further ih =>
    refine ih (h.child hs fun l hl hdir hsize target link => ?_)
      (hmissed.mono (List.subset_cons_self _ _)) hends
    have hfits := hmissed here s hs l target List.mem_cons_self hl link
    rw [hl.linkAt?_eq_some hdir hsize link hfits] at hlink
    cases hlink
  | case3 => cases hends
  -- A link was found: what it leads to is settled, and so is what follows.
  | case4 inside here s rest hs next target hlink hnew inner hinner further _ ihInner ih =>
    have hsub : inner.asked ⊆ next :: inner.asked ++ further.asked :=
      fun x hx => List.mem_append_left _ (List.mem_cons_of_mem next hx)
    have hsub' : further.asked ⊆ next :: inner.asked ++ further.asked :=
      fun x hx => List.mem_append_right _ hx
    have hpath := ihInner (h.startAt target) (hmissed.mono hsub) hinner
    exact ih hpath (hmissed.mono hsub') hends
  | case5 => cases hends
  | case6 inside here s rest hs ih =>
    refine ih ?_ hmissed hends
    split
    · exact h.up
    · exact h

/-! ### Settled paths as absolute ones -/

/-- Names are appended one after the other. -/
theorem lexical_names (hnames : ∀ s ∈ names, IsName s) (here : Location) :
    (lexical here names).names = here.names ++ names := by
  induction names generalizing here with
  | nil => exact (List.append_nil _).symm
  | cons s names ih =>
    rw [lexical, dif_pos (hnames s List.mem_cons_self),
      ih fun t ht => hnames t (List.mem_cons_of_mem s ht)]
    exact List.append_assoc ..

/-- Two dots in front of names lead to a real directory around, and on from there. -/
theorem Unlinked.exists_around (hhere : d.IsRealDirectory here) (k : Nat)
    (h : d.Unlinked here (List.replicate k (Text.ofString "..") ++ names)) :
    ∃ m, d.IsRealDirectory m ∧ d.Unlinked m names ∧
      lexical here (List.replicate k (Text.ofString "..") ++ names) = lexical m names := by
  induction k generalizing here with
  | zero => exact ⟨here, hhere, h, rfl⟩
  | succ k ih =>
    have hdir := hhere here here.isWithin_self
    rw [List.replicate_succ, List.cons_append] at h ⊢
    have hrest := (unlinked_cons_iff.1 h hdir).2 (by decide)
    rw [if_pos rfl] at hrest
    rw [lexical, dif_neg (by decide), if_pos rfl]
    exact ih hhere.parent hrest

/-- The names that lead to a real directory may be written in front. -/
theorem Unlinked.of_isRealDirectory (hl : d.IsRealDirectory l) (h : d.Unlinked l names) :
    ∀ (front : List Text) (here : Location), here.names ++ front = l.names →
      d.Unlinked here (front ++ names) := by
  intro front
  induction front with
  | nil =>
    intro here hhere
    have heq : here.names = l.names := by simpa using hhere
    have hhere' : here = l := by
      obtain ⟨ns, hns⟩ := here
      cases heq
      rfl
    rw [hhere']
    exact h
  | cons s front ih =>
    intro here hhere
    rw [List.cons_append, unlinked_cons_iff]
    intro _
    have hname : IsName s := l.proper s (by simp [← hhere])
    refine ⟨fun hs _ => ⟨?_, fun _ => ?_⟩, fun hdots => absurd hname hdots⟩
    · -- The directory lies within what has been reached, and no link is around it.
      have hwithin : l.isWithin (here.child s hs) = true := by
        rw [Location.isWithin_iff, ← hhere]
        exact ⟨front, List.append_assoc ..⟩
      exact fun target => hl.isReal.entry?_ne_link hwithin target
    · exact ih _ (by rw [← hhere]; exact List.append_assoc ..)

/-- No text is refused for its links. -/
theorem refused?_ne_tooManyLinks (text : Text) : refused? text ≠ some .tooManyLinks := by
  rw [refused?, unnamable?]
  split
  · simp
  · split
    · simp
    · split
      · simp
      · split <;> simp

/-- A settled path is looked up without trouble of that kind once it is absolute. -/
theorem Settled.find_ne (h : d.Settled cwd p) (hcwd : d.IsRealDirectory cwd) :
    d.find cwd (p.absolute cwd).text ≠ .error .tooManyLinks := by
  obtain ⟨k, names, hsegments, hnames, habsolute⟩ := h.shape
  have hbase : d.IsRealDirectory (if p.anchor = .relative then cwd else .root) := by
    split
    · exact hcwd
    · exact d.isRealDirectory_root
  have hunlinked := h.unlinked
  rw [hsegments] at hunlinked
  -- The dots in front lead to a real directory, and from there only names do.
  obtain ⟨m, hm, hrest, hlexical⟩ := hunlinked.exists_around hbase k
  have hway : d.Unlinked .root (lexical m names).names := by
    rw [lexical_names hnames]
    exact hrest.of_isRealDirectory hm _ .root rfl
  have hanchor : p.anchor ≠ .doubleRoot := by
    intro ha
    have hroot := (habsolute (by rw [ha]; decide)).2
    rw [ha] at hroot
    cases hroot
  rw [absolute_eq hanchor (hsegments ▸ hlexical)]
  cases hrefused : refused? (lexical m names).toPath.text with
  | some t =>
    rw [find, hrefused]
    rintro ⟨⟩
    exact refused?_ne_tooManyLinks _ hrefused
  | none =>
    rw [find_text hrefused d.entry?_root]
    exact hway.along_eq.trans_ne hway

/-- All links in a text are replaced: none of them comes up again while it is replaced, none is missed,
and all paths that are made on the way can be paths. -/
structure IsLoopless (d : Disk) (cwd : Location) (text : Text) : Prop where
  plain : ∀ q ∈ (d.followed cwd text).asked ++ [d.realOf cwd text], unnamable? q.text = none
  ends : (d.followed cwd text).ends = true
  missed : d.NoneMissed cwd (d.followed cwd text).asked

/-- **Real paths.** A text has a real path if no link in it leads in a circle. -/
theorem IsLoopless.resolves (h : d.IsLoopless cwd text) (hcwd : d.IsRealDirectory cwd) :
    d.Resolves cwd text where
  plain := h.plain
  looped := (((d.settled_here cwd).startAt text).follow h.missed h.ends).find_ne hcwd

end RenderTree.Disk
