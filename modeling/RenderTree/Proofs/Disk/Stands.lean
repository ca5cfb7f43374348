import RenderTree.Proofs.Disk.Follow
import RenderTree.Proofs.Disk.Leads

/-!
# Real paths of what can be looked up

A look-up follows links as it meets them; a real path is made of one longer path after the other, each
of them asked for a link to replace. Wherever a look-up arrives, the real path is the path of that
place, unless one of those paths is too long to be asked for the link that is there: then the link is
missed and stays in the real path.

* `refused?_eq_none_iff`, `refused?_of_child` — the texts that can be looked up.
* `Disk.Stands` — a path without links on the way that leads to a location.
* `find_text`, `followed_text` — a look-up of a path, and its links replaced, by its segments.
* `Disk.NoneMissed` — all links are found that there are at the paths that were asked for them.
* `Leads.follow_stands` — with none missed, links are replaced by where they lead.
* `Disk.realOf_eq` — the real path of what is denoted.
-/

namespace RenderTree

open RenderTree.Text

namespace Disk

variable {d : Disk} {cwd here l m : Location} {p q : Path} {s target text : Text}
  {front rest steps : List Text} {inside asked asked' : List Path} {n k : Nat}

/-! ### Texts that can be looked up -/

/-- A text can be a path if all of it can be encoded and no NUL is in it. -/
theorem unnamable?_eq_none_iff : unnamable? text = none ↔
    (∀ u, Symbol.surrogate u ∈ text → Symbol.isByte (.surrogate u) = true) ∧
      Symbol.char '\x00' ∉ text := by
  rw [unnamable?]
  cases hfault : symbolFault? Symbol.isByte 0 text with
  | none =>
    have hbytes := symbolFault?_eq_none_iff.1 hfault
    by_cases hnul : Symbol.char '\x00' ∈ text
    · simp [hnul]
    · simpa [hnul] using hbytes
  | some f =>
    refine iff_of_false (by simp) fun h => ?_
    rw [symbolFault?_eq_none_iff.2 h.1] at hfault
    cases hfault

/-- A text is looked up if it can be a path, is short enough and is not empty. -/
theorem refused?_eq_none_iff :
    refused? text = none ↔ unnamable? text = none ∧ text.size ≤ maxPathSize ∧ text ≠ [] := by
  rw [refused?, Option.or_eq_none_iff]
  apply and_congr_right'
  by_cases hsize : maxPathSize < text.size
  · rw [if_pos hsize]
    exact iff_of_false (by simp) fun h => by omega
  · rw [if_neg hsize]
    simp [Nat.le_of_not_lt hsize]

/-- If a longer path can be looked up, so can the shorter one. -/
theorem refused?_of_child {hs : IsSegment s} (h : refused? (p.child s hs).text = none) :
    refused? p.text = none := by
  rcases p.exists_text_child hs with rfl | ⟨t, ht⟩
  · decide
  · rw [refused?_eq_none_iff, unnamable?_eq_none_iff, ht, size_append] at h
    obtain ⟨⟨hbytes, hnul⟩, hsize, -⟩ := h
    rw [refused?_eq_none_iff, unnamable?_eq_none_iff]
    refine ⟨⟨?_, ?_⟩, by omega, p.text_ne_nil⟩
    · exact fun u hu => hbytes u (List.mem_append_left t hu)
    · exact fun hmem => hnul (List.mem_append_left t hmem)

/-- A segment behind a path is written behind a slash. -/
theorem text_child (hp : p.segments ≠ []) (hs : IsSegment s) :
    (p.child s hs).text = p.text ++ "/" ++ s := by
  rw [← Path.join_eq_child hs, Path.text_join hp hs]

/-- A child takes a slash and its name more. -/
theorem size_text_child (hp : p.segments ≠ []) (hs : IsSegment s) :
    (p.child s hs).text.size = p.text.size + 1 + s.size := by
  rw [text_child hp hs, size_append, size_append]
  rfl

/-- The child of a path that can be named can be named. -/
theorem unnamable?_child (hp : p.segments ≠ []) (hs : IsSegment s)
    (hname : unnamable? p.text = none) (hname' : unnamable? s = none) :
    unnamable? (p.child s hs).text = none := by
  rw [unnamable?_eq_none_iff] at hname hname' ⊢
  -- The slash between them adds neither a surrogate nor a NUL.
  have hslash : ∀ x ∈ Text.ofString "/", x = Symbol.char '/' := by decide
  rw [text_child hp hs]
  constructor
  · intro u hu
    rcases List.mem_append.1 hu with hu | hu
    · rcases List.mem_append.1 hu with hu | hu
      · exact hname.1 u hu
      · cases hslash _ hu
    · exact hname'.1 u hu
  · intro hnul
    rcases List.mem_append.1 hnul with hnul | hnul
    · rcases List.mem_append.1 hnul with hnul | hnul
      · exact hname.2 hnul
      · exact absurd (hslash _ hnul) (by decide)
    · exact hname'.2 hnul

/-! ### Paths without links -/

/-- The segments of the path lead to the location, and none of them is that of a link. Behind the root
there are only names. -/
structure Stands (d : Disk) (cwd : Location) (p : Path) (l : Location) : Prop where
  leads : d.Leads (if p.anchor = .relative then cwd else .root) p.segments l 0
  names : p.anchor ≠ .relative → p.anchor = .root ∧ ∀ s ∈ p.segments, IsName s

/-- The working directory stands for itself. -/
theorem stands_here (d : Disk) (cwd : Location) : d.Stands cwd .here cwd where
  leads := .arrive cwd
  names := fun h => absurd rfl h

/-- The root stands for itself. -/
theorem stands_root (d : Disk) (cwd : Location) : d.Stands cwd .root .root where
  leads := .arrive .root
  names := fun _ => ⟨rfl, by simp [Path.root]⟩

/-- A path leads to one location only. -/
theorem Stands.unique (h : d.Stands cwd p l) (h' : d.Stands cwd p m) : m = l :=
  (h.leads.unique h'.leads).1

/-- A child stands for what has its name, unless that is a link. -/
theorem Stands.child (h : d.Stands cwd p l) (hl : d.entry? l = some .directory) (hs : IsName s)
    (hsize : ¬ maxNameSize < s.size)
    (hplain : ∀ target, d.entry? (l.child s hs) ≠ some (.link target)) :
    d.Stands cwd (p.child s hs.isSegment) (l.child s hs) where
  leads := h.leads.append (.enter hl hs hsize hplain (.arrive _))
  names := by
    intro ha
    obtain ⟨hroot, hnames⟩ := h.names ha
    refine ⟨hroot, ?_⟩
    intro t ht
    rcases List.mem_append.1 ht with ht | ht
    · exact hnames t ht
    · rw [List.mem_singleton.1 ht]
      exact hs

/-- Where a last segment is taken back, it is a name. -/
theorem Stands.parent (h : d.Stands cwd p l)
    (hlast : ¬ (p.anchor = .relative ∧ p.segments.getLast?.all (· = ofString ".."))) :
    d.Stands cwd p.parent l.parent := by
  have hnames : p.parent.anchor ≠ .relative →
      p.parent.anchor = .root ∧ ∀ s ∈ p.parent.segments, IsName s := by
    intro ha
    obtain ⟨hroot, hall⟩ := h.names ha
    exact ⟨hroot, fun s hs => hall s (List.dropLast_subset _ hs)⟩
  refine ⟨?_, hnames⟩
  show d.Leads (if p.anchor = .relative then cwd else .root) p.segments.dropLast l.parent 0
  have hleads := h.leads
  rcases List.eq_nil_or_concat p.segments with hnil | ⟨front, s, hsegments⟩
  · -- Without segments the path is the root, whose parent it is itself.
    have ha : p.anchor ≠ .relative := fun ha => hlast ⟨ha, by rw [hnil]; rfl⟩
    rw [hnil, if_neg ha] at hleads ⊢
    cases hleads
    exact .arrive .root
  · rw [List.concat_eq_append] at hsegments
    have hname : IsName s := by
      by_cases ha : p.anchor = .relative
      · refine ⟨p.proper s (by simp [hsegments]), ?_⟩
        rintro rfl
        exact hlast ⟨ha, by simp [hsegments]⟩
      · exact (h.names ha).2 s (by simp [hsegments])
    rw [hsegments] at hleads ⊢
    rw [List.dropLast_concat]
    -- The last segment is a name, so that it is entered and its parent is where it was entered
    -- from.
    obtain ⟨m, j, k, hfront, hs, hjk⟩ := hleads.split
    obtain rfl : j = 0 := by omega
    obtain rfl : k = 0 := by omega
    cases hs with
    | enter directory name size plain next =>
      cases next
      rw [Location.parent_child]
      exact hfront
    | dots directory dots next => exact absurd hname dots

/-- Two dots behind a path lead to the directory around. -/
theorem Stands.up (h : d.Stands cwd p l) (hl : d.entry? l = some .directory) :
    d.Stands cwd p.up l.parent := by
  unfold Path.up
  split
  next hdots =>
    have hstep : d.Leads l [ofString ".."] l.parent 0 := .dots hl (by decide) (.arrive l.parent)
    exact ⟨h.leads.append hstep, fun ha => absurd hdots.1 ha⟩
  next hlast => exact h.parent hlast

/-- Where the target of a link begins stands for where it is looked up from. -/
theorem Stands.startAt (h : d.Stands cwd p here) (target : Text) :
    d.Stands cwd (startAt p target) (startOf here target) := by
  unfold Disk.startAt startOf
  split
  · exact d.stands_root cwd
  · exact h

/-- What is written in front of the segments of a path leads nowhere else. -/
theorem leads_front (h : ∀ s ∈ front, s = [] ∨ s = ofString ".")
    (hhere : d.entry? here = some .directory) : d.Leads here front here 0 := by
  induction front with
  | nil => exact .arrive here
  | cons s front ih =>
    have hrest := ih fun t ht => h t (List.mem_cons_of_mem s ht)
    rcases h s List.mem_cons_self with rfl | rfl
    · exact .dots hhere (by decide) hrest
    · exact .dots hhere (by decide) hrest

/-- Exactly the paths with an anchor begin with a slash. -/
theorem head?_text_iff (p : Path) :
    p.text.head? = some (Symbol.char '/') ↔ p.anchor ≠ .relative := by
  rw [← Path.isAbsolute_ofText_iff, Path.ofText_text]
  rfl

/-- A path is looked up from the root or from the working directory. -/
theorem startOf_text (cwd : Location) (p : Path) :
    startOf cwd p.text = if p.anchor = .relative then cwd else .root := by
  by_cases ha : p.anchor = .relative
  · rw [if_pos ha]
    exact if_neg fun h => (head?_text_iff p).1 h ha
  · rw [if_neg ha]
    exact if_pos ((head?_text_iff p).2 ha)

/-- Where a path begins. -/
theorem startAt_text (p : Path) :
    startAt .here p.text = if p.anchor = .relative then .here else .root := by
  by_cases ha : p.anchor = .relative
  · rw [if_pos ha]
    exact if_neg fun h => (head?_text_iff p).1 h ha
  · rw [if_neg ha]
    exact if_pos ((head?_text_iff p).2 ha)

/-- A path is looked up by its segments, if it can be. -/
theorem find_text (hfits : refused? p.text = none)
    (hstart : d.entry? (if p.anchor = .relative then cwd else .root) = some .directory) :
    d.find cwd p.text =
      d.place maxLinks (if p.anchor = .relative then cwd else .root) p.segments := by
  obtain ⟨front, hpieces, hfront⟩ := p.exists_pieces_text
  rw [find, hfits, startOf_text, stepsOf, hpieces]
  exact (leads_front hfront hstart).along_append rfl hstart _ p.segments

/-- The links of a path are replaced by its segments. -/
theorem followed_text (d : Disk) (cwd : Location) (p : Path) :
    d.followed cwd p.text =
      d.follow cwd [] (if p.anchor = .relative then .here else .root) p.segments := by
  obtain ⟨front, hpieces, hfront⟩ := p.exists_pieces_text
  rw [followed, startAt_text, stepsOf, hpieces]
  clear hpieces
  induction front with
  | nil => rfl
  | cons s front ih =>
    have hrest := ih fun t ht => hfront t (List.mem_cons_of_mem s ht)
    rcases hfront s List.mem_cons_self with rfl | rfl
    · exact (follow_dots (by decide) ..).trans hrest
    · exact (follow_dots (by decide) ..).trans hrest

/-- A path without links is looked up without trouble. -/
theorem Stands.find_eq (h : d.Stands cwd p l) (hl : d.entry? l = some .directory)
    (hfits : refused? p.text = none) : d.find cwd p.text = .ok (l, some .directory) := by
  have halong := h.leads.along_append rfl hl (d.place 39) []
  rw [List.append_nil] at halong
  rw [find_text hfits (h.leads.directory hl)]
  show d.along (d.place 39) _ _ = _
  rw [halong, along, hl]

/-- A run of segments goes on from where the one before it leads. -/
theorem lexical_append (here : Location) (xs ys : List Text) :
    lexical here (xs ++ ys) = lexical (lexical here xs) ys := by
  induction xs generalizing here with
  | nil => rfl
  | cons x xs ih =>
    rw [List.cons_append, lexical, lexical]
    split
    · exact ih _
    · exact ih _

/-- The path is absolute by where it leads. -/
theorem Leads.lexical_eq (h : d.Leads here steps l n) (hn : n = 0) : lexical here steps = l := by
  induction h with
  | arrive here => rfl
  | enter directory name size plain next ih =>
    rw [lexical, dif_pos name]
    exact ih hn
  | dots directory dots next ih =>
    rw [lexical, dif_neg dots]
    exact ih hn
  | link directory name size link inner next ihInner ihNext => omega

/-- What a path is made into, by the names it leads along. -/
theorem absolute_eq (ha : p.anchor ≠ .doubleRoot)
    (hl : lexical (if p.anchor = .relative then cwd else .root) p.segments = l) :
    p.absolute cwd = l.toPath := by
  rw [Path.absolute, hl, if_neg ha]
  rfl

/-- A path that stands for a location is made into the path of that. -/
theorem Stands.absolute_eq (h : d.Stands cwd p l) : p.absolute cwd = l.toPath := by
  apply Disk.absolute_eq
  · intro ha
    have hroot := (h.names (by rw [ha]; decide)).1
    rw [ha] at hroot
    cases hroot
  · exact h.leads.lexical_eq rfl

/-! ### Links at a path -/

/-- A link is found at a path that can be looked up. -/
theorem Stands.linkAt?_eq_some (h : d.Stands cwd p l) (hl : d.entry? l = some .directory)
    {hs : IsName s} (hsize : ¬ maxNameSize < s.size)
    (link : d.entry? (l.child s hs) = some (.link target))
    (hfits : refused? (p.child s hs.isSegment).text = none) : d.linkAt? cwd p s hs = some target := by
  rw [linkAt?, if_neg (by simp [hfits, hsize]), h.find_eq hl (refused?_of_child hfits)]
  dsimp only
  rw [link]

/-- Where there is no link, none is found. -/
theorem Stands.linkAt?_eq_none (h : d.Stands cwd p l) (hl : d.entry? l = some .directory)
    {hs : IsName s} (hplain : ∀ target, d.entry? (l.child s hs) ≠ some (.link target)) :
    d.linkAt? cwd p s hs = none := by
  rw [linkAt?]
  split
  · rfl
  next hfits =>
    have hchild : refused? (p.child s hs.isSegment).text = none := by simpa using (not_or.1 hfits).1
    rw [h.find_eq hl (refused?_of_child hchild)]
    dsimp only
    split
    next target link => exact absurd link (hplain target)
    next => rfl

/-- At a path that is not looked up no link is found. -/
theorem linkAt?_of_refused {hs : IsName s} (h : refused? (p.child s hs.isSegment).text ≠ none) :
    d.linkAt? cwd p s hs = none := by
  rw [linkAt?, if_pos]
  exact .inl (Option.isSome_iff_ne_none.2 h)

/-- No link is missed: where a path was asked for one, it can be looked up if there is one. -/
def NoneMissed (d : Disk) (cwd : Location) (asked : List Path) : Prop :=
  ∀ (p : Path) (s : Text) (hs : IsName s) (l : Location) (target : Text),
    p.child s hs.isSegment ∈ asked → d.Stands cwd p l → d.entry? (l.child s hs) = some (.link target) →
      refused? (p.child s hs.isSegment).text = none

/-- Where no link is missed none is among fewer paths. -/
theorem NoneMissed.mono (h : d.NoneMissed cwd asked) (hsub : asked' ⊆ asked) :
    d.NoneMissed cwd asked' :=
  fun p s hs l target hmem => h p s hs l target (hsub hmem)

/-- To replace the link at a path takes at least `n` links inside of it. -/
def Holds (d : Disk) (cwd : Location) (n : Nat) (x : Path) : Prop :=
  ∀ (p : Path) (s : Text) (hs : IsName s) (l m : Location) (target : Text) (j : Nat),
    x = p.child s hs.isSegment → d.Stands cwd p l → d.entry? (l.child s hs) = some (.link target) →
      d.Leads (startOf l target) (stepsOf target) m j → n ≤ j

/-- What takes a number of links takes at least fewer. -/
theorem Holds.mono {x : Path} (h : d.Holds cwd n x) (hk : k ≤ n) : d.Holds cwd k x :=
  fun p s hs l m target j hx hp link inner => Nat.le_trans hk (h p s hs l m target j hx hp link inner)

end Disk

end RenderTree
