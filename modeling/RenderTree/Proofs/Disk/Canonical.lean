import RenderTree.Proofs.Disk.Stands
import RenderTree.Proofs.Path.Extension

/-!
# Canonical paths

A specifier resolves to the real path of the file that the chosen candidate denotes. That is the path
of the file itself, so that one file has one path, unless a link has been missed on the way: with it
left in the path, the same file has two.

* `Disk.Canonical`, `resolve_canonical` — what specifiers resolve to.
* `linkedProject` — a project with links behind links.
* `ups` — paths that consist of two dots many times over.
* `overlongProject` — a project in which a link is missed.
-/

namespace RenderTree

open RenderTree.Text

namespace Disk

variable {d : Disk} {cwd l : Location} {p : Path} {text : Text}

/-! ### What specifiers resolve to -/

variable {readable : Path → Bool} {specifier : Text} {importer moduleDir : Option Path}

/-- A path with an extension that is a file as it is written is chosen for itself. -/
theorem chosen?_of_written (hext : extension p.name ≠ [])
    (hfile : d.file? cwd p.text = some l) (hreadable : readable p = true) (dir : Option Path) :
    d.chosen? readable cwd p.text none dir = some p := by
  have hwritten : (extension p.text).isEmpty = false := by
    rw [Path.extension_text, List.isEmpty_eq_false_iff]
    exact hext
  have hcandidates : ∃ ps, p.candidates = p :: ps := by
    rw [Path.candidates, Path.candidateTexts, hwritten, if_neg (by simp), List.append_assoc,
      List.singleton_append, List.eraseDups_cons, List.map_cons, Path.ofText_text]
    exact ⟨_, rfl⟩
  obtain ⟨ps, hps⟩ := hcandidates
  have hp : d.isReadableFile readable cwd p = true := by simp [isReadableFile, hfile, hreadable]
  rw [chosen?, if_neg p.text_ne_nil, searchPath, Path.ofText_text, hps,
    List.find?_cons_of_pos hp]

end Disk

/-! ### A project with links -/

/-- An entry at the location that some names lead to. -/
def placed (names : List Text) (h : ∀ s ∈ names, IsName s) (e : Entry) : Location × Entry :=
  (⟨names, h⟩, e)

/-- Two dots, many times over. -/
def ups : Nat → Path
  | 0 => .here
  | n + 1 => (ups n).up

/-- What is written of a path of dots. -/
theorem ups_eq (n : Nat) :
    (ups n).anchor = .relative ∧ (ups n).segments = List.replicate n (Text.ofString "..") := by
  induction n with
  | zero => exact ⟨rfl, rfl⟩
  | succ n ih =>
    -- Behind two dots, or nothing at all, two more dots stay.
    have hlast : (ups n).segments.getLast?.all (· = Text.ofString "..") = true := by
      rw [ih.2]
      cases n with
      | zero => rfl
      | succ n => simp [List.replicate_succ']
    rw [ups, Path.up, if_pos ⟨ih.1, hlast⟩]
    refine ⟨ih.1, ?_⟩
    show (ups n).segments ++ [Text.ofString ".."] = _
    rw [ih.2, ← List.replicate_succ']

/-- The root is not left by two dots. -/
theorem Disk.stands_ups (d : Disk) (n : Nat) : d.Stands .root (ups n) .root := by
  induction n with
  | zero => exact d.stands_here .root
  | succ n ih => exact ih.up d.entry?_root

/-- Two dots are followed one pair after the other. -/
theorem Disk.follow_ups (d : Disk) (cwd : Location) (inside : List Path) (rest : List Text) :
    ∀ n k, d.follow cwd inside (ups k) (List.replicate n (Text.ofString "..") ++ rest) =
      d.follow cwd inside (ups (k + n)) rest := by
  intro n
  induction n with
  | zero => exact fun k => rfl
  | succ n ih =>
    intro k
    rw [List.replicate_succ, List.cons_append, follow_dots (by decide), if_pos rfl]
    show d.follow cwd inside (ups (k + 1)) _ = _
    rw [ih (k + 1), Nat.add_assoc, Nat.add_comm 1 n]

/-- With dots there are segments. -/
theorem ups_ne_nil {n : Nat} (hn : 0 < n) : (ups n).segments ≠ [] := by
  rw [(ups_eq n).2]
  simp
  omega

/-- Paths of two dots can be written, and how long they are then. -/
theorem text_ups {n : Nat} (hn : 0 < n) :
    Disk.unnamable? (ups n).text = none ∧ (ups n).text.size + 1 = 3 * n := by
  induction n with
  | zero => omega
  | succ n ih =>
    by_cases hzero : n = 0
    · subst hzero
      decide
    · have hpos : 0 < n := by omega
      have hdots : IsSegment (Text.ofString "..") := by decide
      have hsize : (Text.ofString "..").size = 2 := by decide
      have hsucc : ups (n + 1) = (ups n).child (Text.ofString "..") hdots := by
        refine Path.ext ((ups_eq _).1.trans (ups_eq _).1.symm) ?_
        show _ = (ups n).segments ++ [Text.ofString ".."]
        rw [(ups_eq _).2, (ups_eq _).2, ← List.replicate_succ']
      obtain ⟨hname, hlength⟩ := ih hpos
      rw [hsucc, Disk.size_text_child (ups_ne_nil hpos)]
      exact ⟨Disk.unnamable?_child (ups_ne_nil hpos) hdots hname (by decide), by omega⟩

/-- What is in the only file of a project: a component that renders itself. -/
def selfText : String := "import React from 'r';import F from './F';<F/>"

/-- A project with two links: `d` leads to a directory, and in that one link leads to the only file. -/
def overlongProject : Disk :=
  ⟨[placed ["shared-component"] (by decide) .directory,
    placed ["d"] (by decide) (.link "shared-component"),
    placed ["shared-component", "L.js"] (by decide) (.link "F.js"),
    placed ["shared-component", "F.js"] (by decide)
      (.file selfText.toUTF8.toList)]⟩

/-- The only file of the project, and the link to it. -/
def sharedFile : Location := ⟨["shared-component", "F.js"], by decide⟩
def sharedLink : Location := ⟨["shared-component", "L.js"], by decide⟩

/-- A path to the link, longer the more dots there are. -/
def longWay (n : Nat) : Path :=
  ((ups n).child "d" (by decide)).child "L.js" (by decide)

/-- The numbers of dots with which the path can be looked up, but not the other link with the first
one replaced. -/
def IsOverlong (n : Nat) : Prop :=
  1360 ≤ n ∧ n ≤ 1363

instance (n : Nat) : Decidable (IsOverlong n) :=
  inferInstanceAs (Decidable (_ ∧ _))

section Overlong

variable {n : Nat}

/-- There are dots in such a path. -/
theorem IsOverlong.pos (h : IsOverlong n) : 0 < n :=
  Nat.lt_of_lt_of_le (by decide) h.1

/-- The path can be looked up, and so can that of the first link on it. -/
theorem IsOverlong.refused? (h : IsOverlong n) :
    Disk.refused? (longWay n).text = none ∧
      Disk.refused? ((ups n).child "d" (by decide)).text = none := by
  have hd : IsSegment "d" := by decide
  have hlink : IsSegment "L.js" := by decide
  have hdSize : (Text.ofString "d").size = 1 := by decide
  have hlinkSize : (Text.ofString "L.js").size = 4 := by decide
  have hne : ((ups n).child "d" hd).segments ≠ [] :=
    List.append_ne_nil_of_right_ne_nil _ (by simp)
  obtain ⟨hname, hsize⟩ := text_ups h.pos
  have hname' := Disk.unnamable?_child (ups_ne_nil h.pos) hd hname (by decide)
  have hsize' := Disk.size_text_child (ups_ne_nil h.pos) hd
  have hsize'' := Disk.size_text_child hne hlink
  -- What remains is to count the bytes.
  have hway : Disk.refused? (longWay n).text = none := by
    rw [Disk.refused?_eq_none_iff]
    refine ⟨Disk.unnamable?_child hne hlink hname' (by decide), ?_, Path.text_ne_nil _⟩
    show Text.size (((ups n).child "d" hd).child "L.js" hlink).text ≤ 4095
    have hn := h.2
    omega
  exact ⟨hway, Disk.refused?_of_child hway⟩

/-- With that link replaced the path is too long. -/
theorem IsOverlong.refused?_replaced (h : IsOverlong n) :
    Disk.refused? ((ups n).child "shared-component" (by decide)).text ≠ none := by
  have hs : IsSegment "shared-component" := by decide
  have hsize : (Text.ofString "shared-component").size = 16 := by decide
  have hups := (text_ups h.pos).2
  have hn := h.1
  intro hfits
  rw [Disk.refused?_eq_none_iff, Disk.size_text_child (ups_ne_nil h.pos) hs] at hfits
  have hle : (ups n).text.size + 1 + (Text.ofString "shared-component").size ≤ 4095 := hfits.2.1
  omega

/-- The long way goes up first and then through both links. -/
theorem segments_longWay (n : Nat) :
    (longWay n).anchor = .relative ∧
      (longWay n).segments = (ups n).segments ++ [("d" : Text), ("L.js" : Text)] :=
  ⟨(ups_eq n).1, List.append_assoc ..⟩

/-- Two dots do not lead away from the root, so the look-up arrives at the file behind both links. -/
theorem IsOverlong.find (h : IsOverlong n) :
    overlongProject.find .root (longWay n).text =
      .ok (sharedFile, some (.file selfText.toUTF8.toList)) := by
  have hleads := (overlongProject.stands_ups n).leads
  have hlast : overlongProject.along (overlongProject.place 39) .root
      [("d" : Text), ("L.js" : Text)] =
        .ok (sharedFile, some (.file selfText.toUTF8.toList)) := by
    decide +kernel
  rw [ite_self] at hleads
  have halong := hleads.along_append rfl overlongProject.entry?_root (overlongProject.place 39)
    [("d" : Text), ("L.js" : Text)]
  rw [Disk.find_text h.refused?.1 (by rw [ite_self, Disk.entry?_root]), ite_self,
    (segments_longWay n).2]
  exact halong.trans hlast

/-- The long way denotes the file. -/
theorem IsOverlong.locate (h : IsOverlong n) :
    overlongProject.locate .root (longWay n).text = .ok sharedFile := by
  rw [Disk.locate, h.find]

/-- The first link is replaced, and the second one is missed. -/
theorem IsOverlong.followed (h : IsOverlong n) :
    (overlongProject.followed .root (longWay n).text).path =
      ((ups n).child "shared-component" (by decide)).child "L.js" (by decide) := by
  have hfound : overlongProject.linkAt? .root (ups n) "d" (by decide) = some "shared-component" :=
    (overlongProject.stands_ups n).linkAt?_eq_some overlongProject.entry?_root (by decide)
      (by decide +kernel) h.refused?.2
  -- With the first link replaced the paths are too long to be looked up.
  have hinner : overlongProject.linkAt? .root (ups n) "shared-component" (by decide) = none :=
    Disk.linkAt?_of_refused h.refused?_replaced
  have hmissed : overlongProject.linkAt? .root ((ups n).child "shared-component" (by decide)) "L.js"
      (by decide) = none :=
    Disk.linkAt?_of_refused fun hfits => h.refused?_replaced (Disk.refused?_of_child hfits)
  have hreplaced : overlongProject.follow .root [(ups n).child "d" (by decide)]
      (Disk.startAt (ups n) "shared-component") (Disk.stepsOf "shared-component") =
        ⟨(ups n).child "shared-component" (by decide), true,
          [(ups n).child "shared-component" (by decide)]⟩ := by
    have hstart : Disk.startAt (ups n) "shared-component" = ups n := if_neg (by decide)
    show overlongProject.follow .root _ _ [("shared-component" : Text)] = _
    rw [hstart, Disk.follow_plain hinner, Disk.follow_nil]
  have hups := overlongProject.follow_ups .root [] [("d" : Text), ("L.js" : Text)] n 0
  rw [Nat.zero_add] at hups
  rw [Disk.followed_text, (segments_longWay n).2, (ups_eq n).2, if_pos (segments_longWay n).1]
  refine (congrArg Disk.Followed.path hups).trans ?_
  rw [Disk.follow_link hfound (by simp), hreplaced]
  dsimp only
  rw [if_pos rfl, Disk.follow_plain hmissed, Disk.follow_nil]

/-- The real path that is made of the long way is that of the link. -/
theorem IsOverlong.realOf (h : IsOverlong n) :
    overlongProject.realOf .root (longWay n).text = sharedLink.toPath := by
  have hleads := (overlongProject.stands_ups n).leads
  rw [ite_self] at hleads
  have hlexical : Disk.lexical .root ((ups n).segments ++ [("shared-component" : Text)] ++
      [("L.js" : Text)]) = sharedLink := by
    rw [List.append_assoc, Disk.lexical_append, hleads.lexical_eq rfl]
    decide
  rw [Disk.realOf, h.followed]
  apply Disk.absolute_eq
  · show (ups n).anchor ≠ .doubleRoot
    rw [(ups_eq n).1]
    decide
  · rw [ite_self]
    exact hlexical

/-- The long way is resolved to the link. -/
theorem IsOverlong.resolve (h : IsOverlong n) :
    overlongProject.resolve (fun _ => true) .root (longWay n).text none none =
      some sharedLink.toPath := by
  have hname : (longWay n).name = "L.js" := Path.name_of_concat rfl
  have hfile : overlongProject.file? .root (longWay n).text = some sharedFile := by
    rw [Disk.file?, Disk.locate, h.find]
    decide +kernel
  have hchosen : overlongProject.chosen? (fun _ => true) .root (longWay n).text none none =
      some (longWay n) :=
    Disk.chosen?_of_written (by rw [hname]; decide) hfile rfl none
  rw [Disk.resolve, hchosen, Option.map_some, h.realOf]

end Overlong

end RenderTree
