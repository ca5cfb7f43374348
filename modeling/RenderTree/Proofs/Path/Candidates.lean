import RenderTree.Resolve
import RenderTree.Proofs.Path.Extension
import RenderTree.Proofs.Text.LetterCase
import Mathlib.Data.List.Nodup

/-!
# The candidates of a path

The candidates of a path are put together as texts, and the texts are told apart before they are
read as paths. All of them are texts of paths, so that nothing is lost by this: different texts are
different paths. Which paths they are depends on the extension of the last segment alone.

* `Path.IsScript` — the extensions of component files, in any letter case.
* `Path.expansions` — the files that are looked for under a path without its extension.
* `Path.Expands` — the candidates of a path, by its extension.
* `Expands.candidates_eq`, `exists_expands` — the candidates that are found are these.
* `candidates_expand` — they are different, and four or five.
-/

namespace RenderTree

open RenderTree.Text

/-- Nothing is erased from a list without repetition. -/
theorem eraseDups_of_nodup {α : Type} [BEq α] [LawfulBEq α] {xs : List α} (h : xs.Nodup) :
    xs.eraseDups = xs := by
  induction xs with
  | nil => rfl
  | cons x xs ih =>
    obtain ⟨hx, hxs⟩ := List.nodup_cons.1 h
    have hkeep : xs.filter (fun y => !(y == x)) = xs := by
      rw [List.filter_eq_self]
      intro y hy
      simpa using fun hyx : y = x => hx (hyx ▸ hy)
    rw [List.eraseDups_cons, hkeep, ih hxs]

/-- To filter an element out of a list without repetition is to erase it. -/
theorem filter_ne_eq_erase {α : Type} [DecidableEq α] {xs : List α} (h : xs.Nodup) (x : α) :
    xs.filter (· ≠ x) = xs.erase x := by
  rw [h.erase_eq_filter]
  refine List.filter_congr fun y _ => ?_
  rw [Bool.eq_iff_iff]
  simp

namespace Path

/-! ### What the candidates are -/

/-- The path whose text is that of `p` with more text behind it. -/
def followedBy (p : Path) (text : Text) : Path :=
  ofText (p.text ++ text)

/-- The files that are looked for under a path to which extensions are added: beside it, and in the
directory that it denotes. -/
def expansions (p : Path) : List Path :=
  [p.followedBy ".js", p.followedBy ".jsx", p.join "index.js", p.join "index.jsx"]

/-- An extension of component files in any letter case. -/
def IsScript (ext : Text) : Prop :=
  ∃ e ∈ scriptExtensions, List.Forall₂ SameLetter ext e

/-- The path `s` is `p` with the extension `ext` taken from the last segment. -/
structure WithoutExtension (p s : Path) (ext : Text) : Prop where
  parent : s.parent = p.parent
  ends : Ends p.name s.name ext

/-- The candidates of a path: the path as it is written if it has an extension, and what is looked
for under the path without the extension, if that is one of component files, or else under the path.
-/
inductive Expands : Path → List Path → Prop where
  | bare {p : Path} {stem : Text} (ends : Ends p.name stem []) : Expands p p.expansions
  | foreign {p : Path} {stem ext : Text} (ends : Ends p.name stem ext) (nonempty : ext ≠ [])
      (foreign : ¬ IsScript ext) : Expands p (p :: p.expansions)
  | script {p s : Path} {ext : Text} (stem : WithoutExtension p s ext) (script : IsScript ext) :
      Expands p (p :: s.expansions.filter (· ≠ p))

variable {p q r s : Path} {front : List Text} {n e stem ext : Text} {ps : List Path}

/-! ### Extensions of component files -/

/-- The extensions of component files are written in plain characters. -/
theorem isPlain_of_mem_scriptExtensions (he : e ∈ scriptExtensions) :
    ∀ d ∈ e, IsPlain d := by
  have hall : ∀ e ∈ scriptExtensions, e.all (fun d => decide (IsPlain d)) = true := by
    decide
  simpa only [List.all_eq_true, decide_eq_true_eq] using hall e he

/-- An extension is one of component files if its lower-case form is. -/
theorem contains_lower_iff : scriptExtensions.contains (lower ext) = true ↔ IsScript ext := by
  rw [List.contains_iff_mem]
  constructor
  · exact fun h => ⟨lower ext, h, (lower_eq_iff (isPlain_of_mem_scriptExtensions h)).1 rfl⟩
  · rintro ⟨e, he, hsame⟩
    rw [(lower_eq_iff (isPlain_of_mem_scriptExtensions he)).2 hsame]
    exact he

/-- A script has an extension. -/
theorem IsScript.ne_empty (h : IsScript ext) : ext ≠ [] := by
  rintro rfl
  obtain ⟨e, he, hsame⟩ := h
  obtain rfl := List.forall₂_nil_left_iff.1 hsame
  exact absurd he (by decide)

/-- The extensions that are tried are those of scripts. -/
theorem isScript_of_mem (h : ext ∈ scriptExtensions) : IsScript ext :=
  ⟨ext, h, List.forall₂_same.2 fun _ _ => .inl rfl⟩

/-! ### Texts behind a path -/

/-- Whether there is anything to write of a path; of the empty one a dot is written. -/
def IsWritten (p : Path) : Prop :=
  ¬ (p.anchor = .relative ∧ p.segments = [])

/-- Segments one behind the other are a segment. -/
theorem isSegment_append (hn : IsSegment n) (he : IsSegment e) : IsSegment (n ++ e) := by
  have hn0 : n.length ≠ 0 := fun h => hn.1 (List.length_eq_zero_iff.1 h)
  have he0 : e.length ≠ 0 := fun h => he.1 (List.length_eq_zero_iff.1 h)
  refine ⟨?_, ?_, ?_⟩
  · exact fun h => hn.1 (List.append_eq_nil_iff.1 h).1
  · intro h
    have hlen : n.length + e.length = 1 := by
      rw [← List.length_append, h]
      rfl
    omega
  · rw [List.mem_append]
    exact fun h => h.elim hn.2.2 he.2.2

/-- What a path is followed by can be read off its text. -/
theorem followedBy_eq (h : r.text = p.text ++ e) : p.followedBy e = r := by
  rw [followedBy, ← h, ofText_text]

/-- What is written behind a path is the text of a path. -/
theorem text_followedBy (hp : p.IsWritten) (he : IsSegment e) :
    (p.followedBy e).text = p.text ++ e := by
  have hr : ∃ r : Path, r.text = p.text ++ e := by
    rcases List.eq_nil_or_concat p.segments with hnil | ⟨front, n, hconcat⟩
    · refine ⟨p.join e, ?_⟩
      rw [text_join_of_nil hnil he, text_eq hp, hnil, List.intercalate_nil,
        List.append_nil]
    · rw [List.concat_eq_append] at hconcat
      have hproper : ∀ s ∈ front ++ [n ++ e], IsSegment s := by
        intro s hs
        rcases List.mem_append.1 hs with hs | hs
        · exact p.proper s (by simp [hconcat, hs])
        · rw [List.mem_singleton.1 hs]
          exact isSegment_append (p.proper n (by simp [hconcat])) he
      exact ⟨⟨p.anchor, front ++ [n ++ e], hproper⟩, text_append hconcat rfl rfl⟩
  obtain ⟨r, hr⟩ := hr
  rw [followedBy_eq hr, hr]

/-- What is written between a path and the name of a file below it. -/
def gap (p : Path) : Text :=
  if p.segments = [] then [] else "/"

/-- How a joined segment is written behind a path. -/
theorem text_join_gap (hp : p.IsWritten) (hs : IsSegment e) :
    (p.join e).text = p.text ++ (p.gap ++ e) := by
  rw [gap]
  split
  next hnil =>
    rw [text_join_of_nil hnil hs, text_eq hp, hnil, List.intercalate_nil,
      List.append_nil, List.nil_append]
  next hne => rw [text_join hne hs, List.append_assoc]

/-- A path ends in a slash if it has no segments. -/
theorem getLast?_eq_slash_iff (hp : p.IsWritten) :
    p.text.getLast? = some (Symbol.char '/') ↔ p.segments = [] := by
  rcases List.eq_nil_or_concat p.segments with hnil | ⟨front, n, hconcat⟩
  · rw [text_eq hp, hnil, List.intercalate_nil, List.append_nil]
    have ha : p.anchor ≠ .relative := fun ha => hp ⟨ha, hnil⟩
    cases hanchor : p.anchor with
    | relative => exact absurd hanchor ha
    | root => decide
    | doubleRoot => decide
  · rw [List.concat_eq_append] at hconcat
    have hn : IsSegment n := p.proper n (by simp [hconcat])
    -- With segments the text ends with the last of them, which has no slash.
    have hlast : p.text.getLast? = n.getLast? := by
      rcases exists_text_eq hconcat with h | ⟨before, h⟩
      · rw [h]
      · rw [h, List.getLast?_append_of_ne_nil _ (by simp), List.getLast?_cons_of_ne_nil hn.1]
    rw [hlast]
    refine iff_of_false (fun h => hn.2.2 (List.mem_of_getLast? h)) ?_
    simp [hconcat]

/-- What is written behind a path for the files that are looked for under it. -/
def suffixes (p : Path) : List Text :=
  [".js", ".jsx", p.gap ++ "index.js", p.gap ++ "index.jsx"]

/-- The suffixes that are tried are distinct. -/
theorem suffixes_nodup (p : Path) : p.suffixes.Nodup := by
  rw [suffixes, gap]
  split <;> decide

/-- None of the suffixes that are tried is empty. -/
theorem nil_notMem_suffixes (p : Path) : [] ∉ p.suffixes := by
  rw [suffixes, gap]
  split <;> decide

/-- The expansions of a path are written with the suffixes behind it. -/
theorem map_text_expansions (hp : p.IsWritten) :
    p.expansions.map text = p.suffixes.map (p.text ++ ·) := by
  simp only [expansions, suffixes, List.map_cons, List.map_nil]
  rw [text_followedBy hp (by decide), text_followedBy hp (by decide),
    text_join_gap hp (by decide), text_join_gap hp (by decide)]

/-- Paths can be read back from their texts. -/
theorem map_ofText_text (rs : List Path) : (rs.map text).map ofText = rs := by
  rw [List.map_map]
  conv_rhs => rw [← List.map_id rs]
  exact List.map_congr_left fun r _ => ofText_text r

/-- The texts of the expansions are distinct. -/
theorem nodup_expansions_texts (p : Path) : (p.suffixes.map (p.text ++ ·)).Nodup := by
  refine p.suffixes_nodup.map ?_
  intro e e' h
  simpa using h

/-! ### From texts to paths -/

/-- What is put together for a path whose stem is the text of the path `q`. -/
theorem candidateTexts_eq (hq : q.IsWritten) (hstem : p.stem = q.text) :
    p.candidateTexts =
      (if (extension p.text).isEmpty then [] else [p.text]) ++
        q.suffixes.map (q.text ++ ·) := by
  have hdirectory : (if p.stem.getLast? = some (Symbol.char '/') then p.stem else p.stem ++ "/") =
      q.text ++ q.gap := by
    rw [hstem, gap]
    by_cases hnil : q.segments = []
    · rw [if_pos ((getLast?_eq_slash_iff hq).2 hnil), if_pos hnil, List.append_nil]
    · rw [if_neg (fun h => hnil ((getLast?_eq_slash_iff hq).1 h)), if_neg hnil]
  rw [candidateTexts, hdirectory, hstem, List.append_assoc]
  have hindex : ofString "index.js" = ofString "index" ++ ofString ".js" ∧
      ofString "index.jsx" = ofString "index" ++ ofString ".jsx" := by decide
  simp [scriptExtensions, suffixes, indexName, hindex]

/-- A path without the extension of a script is its own stem. -/
theorem stem_eq_text (ends : Ends p.name stem ext) (h : ¬ IsScript ext) :
    p.stem = p.text := by
  have hext : extension p.text = ext := by
    rw [extension_text, ends.extension_eq p.slash_notMem_name]
  rw [Path.stem, splitExtension, hext]
  dsimp only
  rw [if_neg (fun hlower => h (contains_lower_iff.1 hlower))]

/-- Only a path with segments has an extension. -/
theorem segments_ne_nil_of_ends (ends : Ends p.name stem ext) (he : ext ≠ []) :
    p.segments ≠ [] := by
  intro hnil
  have happend := ends.append_eq
  rw [name_of_nil hnil] at happend
  exact he (List.append_eq_nil_iff.1 happend.symm).2

/-- The name is the last segment. -/
theorem segments_eq_concat (hp : p.segments ≠ []) :
    p.segments = p.segments.dropLast ++ [p.name] := by
  rw [name, List.getLast?_eq_some_getLast hp, Option.getD_some, List.dropLast_concat_getLast]

/-- A path and the path without its extension have the same segments but for the last one. -/
theorem WithoutExtension.segments (h : WithoutExtension p s ext) (he : ext ≠ []) :
    ∃ front, p.segments = front ++ [s.name ++ ext] ∧ s.segments = front ++ [s.name] := by
  have hfront : s.segments.dropLast = p.segments.dropLast := congrArg Path.segments h.parent
  have hp := segments_eq_concat (segments_ne_nil_of_ends h.ends he)
  have hs : s.segments ≠ [] := by
    intro hnil
    obtain ⟨c, hc, -⟩ := h.ends.named he
    rw [name_of_nil hnil] at hc
    simp at hc
  exact ⟨s.segments.dropLast, by rw [hfront, ← h.ends.append_eq, ← hp], segments_eq_concat hs⟩

/-- The extension is written behind the path without it. -/
theorem WithoutExtension.text_eq (h : WithoutExtension p s ext) (he : ext ≠ []) :
    p.text = s.text ++ ext := by
  obtain ⟨front, hp, hs⟩ := h.segments he
  have ha : s.parent.anchor = p.parent.anchor := congrArg Path.anchor h.parent
  exact text_append hs ha.symm hp

/-- The path without its extension is written as it is. -/
theorem WithoutExtension.isWritten (h : WithoutExtension p s ext) (he : ext ≠ []) :
    s.IsWritten := by
  obtain ⟨front, -, hs⟩ := h.segments he
  rintro ⟨-, hnil⟩
  rw [hs] at hnil
  simp at hnil

/-- The stem of a script is the path without the extension. -/
theorem WithoutExtension.stem_eq (h : WithoutExtension p s ext) (hscript : IsScript ext) :
    p.stem = s.text := by
  have hext : extension p.text = ext := by
    rw [extension_text, h.ends.extension_eq p.slash_notMem_name]
  rw [Path.stem, splitExtension, hext]
  dsimp only
  rw [if_pos (contains_lower_iff.2 hscript), h.text_eq hscript.ne_empty, List.length_append,
    Nat.add_sub_cancel, List.take_left]

/-- A path has an extension if its last segment does. -/
theorem isEmpty_extension_iff (ends : Ends p.name stem ext) :
    (extension p.text).isEmpty = true ↔ ext = [] := by
  rw [extension_text, ends.extension_eq p.slash_notMem_name, List.isEmpty_iff]

/-- The empty path has no segment to have an extension. -/
theorem isWritten_of_ends (ends : Ends p.name stem ext) (he : ext ≠ []) : p.IsWritten :=
  fun hp => segments_ne_nil_of_ends ends he hp.2

/-- Only the dot is not written as it is. -/
theorem eq_of_not_isWritten (hp : ¬ p.IsWritten) : p = ofText "." := by
  obtain ⟨ha, hs⟩ := Classical.not_not.1 hp
  exact ext ha hs

/-- No path is one of its expansions. -/
theorem notMem_expansions (hp : p.IsWritten) : p ∉ p.expansions := by
  intro h
  have htext : p.text ∈ p.suffixes.map (p.text ++ ·) := by
    rw [← map_text_expansions hp]
    exact List.mem_map_of_mem h
  obtain ⟨e, he, heq⟩ := List.mem_map.1 htext
  have hempty : e = [] := by simpa using heq
  exact p.nil_notMem_suffixes (hempty ▸ he)

/-- The expansions of a path are distinct. -/
theorem nodup_expansions (p : Path) : p.expansions.Nodup := by
  by_cases hp : p.IsWritten
  · apply List.Nodup.of_map text
    rw [map_text_expansions hp]
    exact p.nodup_expansions_texts
  · rw [eq_of_not_isWritten hp]
    decide +kernel

/-- To tell the texts of paths apart is to tell the paths apart. -/
theorem eraseDups_map_text (h : ps.Nodup) :
    (ps.map text).eraseDups.map ofText = ps := by
  rw [eraseDups_of_nodup (h.map fun _ _ => text_injective), map_ofText_text]

/-- **The candidates.** The candidates that are found are those that the extension asks for. -/
theorem Expands.candidates_eq (h : Expands p ps) : p.candidates = ps := by
  cases h with
  | @bare stem ends =>
    by_cases hp : p.IsWritten
    · have hnone : ¬ IsScript [] := fun h => h.ne_empty rfl
      rw [candidates, candidateTexts_eq hp (stem_eq_text ends hnone),
        if_pos ((isEmpty_extension_iff ends).2 rfl), List.nil_append, ← map_text_expansions hp,
        eraseDups_map_text p.nodup_expansions]
    · rw [eq_of_not_isWritten hp]
      decide +kernel
  | @foreign stem ext ends nonempty foreign =>
    have hp := isWritten_of_ends ends nonempty
    have hnodup := List.nodup_cons.2 ⟨notMem_expansions hp, p.nodup_expansions⟩
    rw [candidates, candidateTexts_eq hp (stem_eq_text ends foreign),
      if_neg (fun h => nonempty ((isEmpty_extension_iff ends).1 h)), ← map_text_expansions hp,
      List.singleton_append, ← List.map_cons, eraseDups_map_text hnodup]
  | @script s ext stem script =>
    have hs := stem.isWritten script.ne_empty
    have hkeep : (s.expansions.map text).filter (fun t => !(t == p.text)) =
        (s.expansions.filter (· ≠ p)).map text := by
      rw [List.filter_map]
      congr 1
      refine List.filter_congr fun r _ => ?_
      have hiff : r.text = p.text ↔ r = p := ⟨text_injective, congrArg text⟩
      rw [Bool.eq_iff_iff]
      simp [hiff]
    -- The path as it is written comes first, and is left out where it comes again.
    rw [candidates, candidateTexts_eq hs (stem.stem_eq script),
      if_neg (fun h => script.ne_empty ((isEmpty_extension_iff stem.ends).1 h)),
      ← map_text_expansions hs, List.singleton_append, List.eraseDups_cons, hkeep,
      List.map_cons, ofText_text, eraseDups_map_text (s.nodup_expansions.filter _)]

/-! ### Every path has candidates -/

/-- An extension can be taken from a path. -/
theorem exists_withoutExtension (ends : Ends p.name stem ext) (he : ext ≠ []) :
    ∃ s, WithoutExtension p s ext := by
  -- A stem is not empty and no dot, since something else than a dot stands in front of the
  -- extension.
  have hstem : IsSegment stem := by
    obtain ⟨c, hc, hdot⟩ := ends.named he
    refine ⟨?_, ?_, ?_⟩
    · rintro rfl
      simp at hc
    · rintro rfl
      exact hdot (List.mem_singleton.1 hc)
    · intro hslash
      apply p.slash_notMem_name
      rw [ends.append_eq]
      exact List.mem_append_left _ hslash
  have hproper : ∀ s ∈ p.segments.dropLast ++ [stem], IsSegment s := by
    intro s hs
    rcases List.mem_append.1 hs with hs | hs
    · exact p.proper s (List.dropLast_subset _ hs)
    · rw [List.mem_singleton.1 hs]
      exact hstem
  obtain ⟨s, ha, hs⟩ :
      ∃ s : Path, s.anchor = p.anchor ∧ s.segments = p.segments.dropLast ++ [stem] :=
    ⟨⟨p.anchor, _, hproper⟩, rfl, rfl⟩
  refine ⟨s, Path.ext ha ?_, ?_⟩
  · show s.segments.dropLast = p.segments.dropLast
    rw [hs, List.dropLast_concat]
  · rw [name_of_concat hs]
    exact ends

/-- Every path expands to something. -/
theorem exists_expands (p : Path) : ∃ ps, Expands p ps := by
  obtain ⟨stem, ext, ends⟩ := exists_ends p.name
  by_cases he : ext = []
  · subst he
    exact ⟨_, .bare ends⟩
  · by_cases hscript : IsScript ext
    · obtain ⟨s, hs⟩ := exists_withoutExtension ends he
      exact ⟨_, .script hs hscript⟩
    · exact ⟨_, .foreign ends he hscript⟩

/-- What a path expands to is distinct. -/
theorem Expands.nodup (h : Expands p ps) : ps.Nodup := by
  cases h with
  | bare ends => exact p.nodup_expansions
  | foreign ends nonempty foreign =>
    have hwritten := isWritten_of_ends ends nonempty
    exact List.nodup_cons.2 ⟨notMem_expansions hwritten, p.nodup_expansions⟩
  | @script s ext stem script =>
    exact List.nodup_cons.2 ⟨by simp, s.nodup_expansions.filter _⟩

/-- A path is looked for under the path without its extension if the extension is one of those that
are added there, letter by letter. -/
theorem WithoutExtension.mem_expansions_iff (h : WithoutExtension p s ext) (he : ext ≠ []) :
    p ∈ s.expansions ↔ ext ∈ scriptExtensions := by
  obtain ⟨front, -, hsegments⟩ := h.segments he
  have hgap : s.gap = "/" := if_neg (by simp [hsegments])
  have hslash : Symbol.char '/' ∉ ext := by
    intro hslash
    apply p.slash_notMem_name
    rw [h.ends.append_eq]
    exact List.mem_append_right _ hslash
  -- No extension goes into a directory.
  have hfar : ∀ e, ext ≠ ofString "/" ++ e := by
    rintro e rfl
    exact hslash List.mem_cons_self
  have htext : p ∈ s.expansions ↔ ext ∈ s.suffixes := by
    rw [← List.mem_map_of_injective (f := text) (fun _ _ => text_injective),
      map_text_expansions (h.isWritten he), h.text_eq he,
      List.mem_map_of_injective (f := (s.text ++ ·)) (fun _ _ heq => by simpa using heq)]
  rw [htext, suffixes, hgap]
  simp [scriptExtensions, hfar]

/-- There are four candidates, and one more if the path as it is written is not among those that are
looked for under the path without its extension. -/
theorem length_candidates (ends : Ends p.name stem ext) :
    p.candidates.length = if ext = [] ∨ ext ∈ scriptExtensions then 4 else 5 := by
  by_cases he : ext = []
  · subst he
    rw [(Expands.bare ends).candidates_eq, if_pos (.inl rfl)]
    rfl
  · by_cases hscript : IsScript ext
    · obtain ⟨s, hs⟩ := exists_withoutExtension ends he
      have hmem : (ext = [] ∨ ext ∈ scriptExtensions) ↔ p ∈ s.expansions := by
        rw [hs.mem_expansions_iff he]
        exact or_iff_right he
      rw [(Expands.script hs hscript).candidates_eq, List.length_cons,
        filter_ne_eq_erase s.nodup_expansions, List.length_erase, if_congr hmem rfl rfl]
      split <;> rfl
    · rw [(Expands.foreign ends he hscript).candidates_eq,
        if_neg (fun h => h.elim he fun h => hscript (isScript_of_mem h))]
      rfl

/-- **Candidates.** The candidates of a path are different paths, and are those that its extension
asks for: the path itself if it has an extension, and what is looked for under the path, or under
the path without the extension if that is one of component files in any letter case. So there are
four of them, and five if there is an extension that is not literally one of component files. -/
theorem candidates_expand (p : Path) :
    p.candidates.Nodup ∧ (∀ ps, p.candidates = ps ↔ Expands p ps) ∧
      ∃ stem ext, Ends p.name stem ext ∧
        (p.candidates.length = 4 ∨ p.candidates.length = 5) ∧
        (p.candidates.length = 5 ↔ ext ≠ [] ∧ ext ≠ ".js" ∧ ext ≠ ".jsx") := by
  obtain ⟨ps, h⟩ := exists_expands p
  obtain ⟨stem, ext, ends⟩ := exists_ends p.name
  refine ⟨h.candidates_eq ▸ h.nodup, ?_, stem, ext, ends, ?_⟩
  · intro qs
    constructor
    · rintro rfl
      exact h.candidates_eq.symm ▸ h
    · exact Expands.candidates_eq
  · -- Four expansions are tried, and the path itself if its extension is not one of those.
    rw [length_candidates ends]
    split
    next h =>
      refine ⟨.inl rfl, by simp, ?_⟩
      rintro ⟨hempty, hjs, hjsx⟩
      simp [scriptExtensions, hempty, hjs, hjsx] at h
    next h =>
      refine ⟨.inr rfl, fun _ => ?_, fun _ => rfl⟩
      simpa [scriptExtensions] using h

example : (ofText "a.b/..Menu.d.JSX").candidates.map text =
    ["a.b/..Menu.d.JSX", "a.b/..Menu.d.js", "a.b/..Menu.d.jsx", "a.b/..Menu.d/index.js",
      "a.b/..Menu.d/index.jsx"] := by
  decide +kernel

end Path

end RenderTree
