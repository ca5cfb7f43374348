import RenderTree.Proofs.Path.Candidates

/-!
# The name of a component

The path of a file gives its component a name, which goes without an extension of component files. The
name is cut at the end of the last segment, whatever stands in front of the extension there. The
candidates are made by the rules for extensions, and these ask for something else than dots in front.
So the two agree but for hidden files like `.js`: to the candidates they have no extension, and of their
name nothing but the dots in front is left.

* `Path.isSuffixOf_lower_iff` — the end of a segment in any letter case.
* `Path.componentName_cases`, `Path.componentName_append` — the name by the end of it.
* `Path.IsHiddenScript` — hidden files whose names end like those of component files.
* `Path.IsStem`, `Path.exists_isStem` — the path that the candidates of a path are made of.
* `Path.NamedAlike` — the name and the candidates of a path take the same for its extension.
* `Path.componentName_namedAlike` — they do, but for hidden files.
-/

namespace RenderTree.Path

open RenderTree.Text

variable {p s t : Path} {front front' stem ext ext' dots e : Text}

/-! ### The end of a segment -/

/-- A text in lower case ends with an extension of component files if it ends, in any letter case, with
that. -/
theorem isSuffixOf_lower_iff (he : e ∈ scriptExtensions) (segment : Text) :
    e.isSuffixOf (lower segment) = true ↔
      ∃ front ext, segment = front ++ ext ∧ List.Forall₂ SameLetter ext e := by
  have hplain := isPlain_of_mem_scriptExtensions he
  rw [List.isSuffixOf_iff_suffix, lower, suffix_lowerBehind_iff hplain]
  constructor
  · rintro ⟨xs, hxs⟩
    obtain ⟨front, ext, hsegment, -, hext⟩ := List.map_eq_append_iff.1 hxs.symm
    exact ⟨front, ext, hsegment, (map_small_eq_iff ext _ hplain).1 hext⟩
  · rintro ⟨front, ext, rfl, hsame⟩
    rw [List.map_append, (map_small_eq_iff _ _ hplain).2 hsame]
    exact List.suffix_append ..

/-- An extension of component files is a dot and what has no dot. -/
theorem IsScript.exists_eq (h : IsScript ext) :
    ∃ rest, ext = Symbol.char '.' :: rest ∧ Symbol.char '.' ∉ rest := by
  obtain ⟨e, he, hsame⟩ := h
  have hdotted : ∀ e ∈ scriptExtensions,
      e = Symbol.char '.' :: e.tail ∧ Symbol.char '.' ∉ e.tail := by
    decide
  obtain ⟨hcons, htail⟩ := hdotted e he
  rw [← map_small_eq_iff _ _ (isPlain_of_mem_scriptExtensions he), hcons] at hsame
  obtain ⟨x, rest, hext, hx, hrest⟩ := List.map_eq_cons_iff.1 hsame
  -- Neither a dot nor anything else but a dot becomes a dot in lower case.
  have hdot : x = Symbol.char '.' := by
    rcases (small_eq_iff (by decide)).1 hx with h | h <;> exact h
  refine ⟨rest, by rw [hext, hdot], ?_⟩
  exact fun hmem => htail (hrest ▸ List.mem_map.2 ⟨_, hmem, by decide⟩)

/-- A segment ends with one extension of component files at most: the last dot begins it. -/
theorem IsScript.unique (h : IsScript ext) (h' : IsScript ext')
    (heq : front ++ ext = front' ++ ext') : front' = front ∧ ext' = ext := by
  obtain ⟨rest, rfl, hplain⟩ := h.exists_eq
  obtain ⟨rest', rfl, hplain'⟩ := h'.exists_eq
  -- Both of them stand behind the last dot of one text.
  have hrest : rest' = rest := by
    rw [← afterLast_append hplain', ← heq, afterLast_append hplain]
  subst hrest
  rw [List.append_cancel_right_eq] at heq
  exact ⟨heq.symm, rfl⟩

/-! ### Names -/

/-- The name is what stands in front of an extension of component files at the end of the last segment,
or all of the segment if there is none. -/
theorem componentName_cases (p : Path) :
    (∃ front ext, p.name = front ++ ext ∧ IsScript ext ∧ p.componentName = front) ∨
      (∀ front ext, p.name = front ++ ext → ¬ IsScript ext) ∧ p.componentName = p.name := by
  unfold componentName
  split
  next e hfind =>
    have he := List.mem_of_find?_eq_some hfind
    have hends : e.isSuffixOf (lower p.name) = true := by simpa using List.find?_some hfind
    obtain ⟨front, ext, hname, hsame⟩ := (isSuffixOf_lower_iff he p.name).1 hends
    refine .inl ⟨front, ext, hname, ⟨e, he, hsame⟩, ?_⟩
    -- The extension is as long as the one that it is, but for letter case.
    have hlen : ext.length = e.length := hsame.length_eq
    rw [hname, List.length_append, hlen, Nat.add_sub_cancel, List.take_left]
  next hfind =>
    refine .inr ⟨?_, rfl⟩
    rintro front ext hname ⟨e, he, hsame⟩
    have hends := (isSuffixOf_lower_iff he p.name).2 ⟨front, ext, hname, hsame⟩
    exact List.find?_eq_none.1 hfind e he hends

/-- **Names.** The name is what stands in front of an extension of component files. -/
theorem componentName_append (h : p.name = front ++ ext) (hext : IsScript ext) :
    p.componentName = front := by
  rcases p.componentName_cases with ⟨front', ext', hname, hext', hcut⟩ | ⟨hnone, -⟩
  · obtain ⟨rfl, -⟩ := hext.unique hext' (h.symm.trans hname)
    exact hcut
  · exact absurd hext (hnone front ext h)

/-! ### Hidden files -/

/-- The name of a hidden file that ends like those of component files: an extension of these with
nothing but dots in front of it. -/
def IsHiddenScript (segment : Text) : Prop :=
  ∃ dots ext, (∀ c ∈ dots, c = Symbol.char '.') ∧ IsScript ext ∧ segment = dots ++ ext

/-- What looks like the extension of a hidden file is part of its stem. -/
theorem ends_hidden (hdots : ∀ c ∈ dots, c = Symbol.char '.') (hext : IsScript ext) :
    Ends (dots ++ ext) (dots ++ ext) [] := by
  obtain ⟨rest, rfl, hplain⟩ := hext.exists_eq
  have hleading : ∀ c ∈ dots ++ [Symbol.char '.'], c = Symbol.char '.' := by
    intro c hc
    rw [List.mem_append] at hc
    rcases hc with hc | hc
    · exact hdots c hc
    · exact List.mem_singleton.1 hc
  rw [← List.singleton_append, ← List.append_assoc]
  exact .bare hleading hplain

/-- A segment that ends like those of component files has that for its extension or is the name of a
hidden file. -/
theorem ends_or_isHiddenScript (front : Text) (hext : IsScript ext) :
    Ends (front ++ ext) front ext ∨ IsHiddenScript (front ++ ext) := by
  by_cases hnamed : ∃ c ∈ front, c ≠ Symbol.char '.'
  · obtain ⟨rest, rfl, hplain⟩ := hext.exists_eq
    exact .inl (.extended hnamed hplain)
  · refine .inr ⟨front, ext, ?_, hext, rfl⟩
    intro c hc
    by_contra hne
    exact hnamed ⟨c, hc, hne⟩

/-- The name of a component is the last segment, unless that has an extension of component files or is
the name of a hidden file. -/
theorem componentName_of_ends (ends : Ends p.name stem ext) (hext : ¬ IsScript ext)
    (hhidden : ¬ IsHiddenScript p.name) : p.componentName = p.name := by
  rcases p.componentName_cases with ⟨front, ext', hname, hscript, -⟩ | ⟨-, hwhole⟩
  · rcases ends_or_isHiddenScript front hscript with h | h
    · rw [← hname] at h
      obtain ⟨-, rfl⟩ := ends.unique h p.slash_notMem_name
      exact absurd hscript hext
    · exact absurd (hname ▸ h) hhidden
  · exact hwhole

/-! ### Stems -/

/-- The last segment of a path has an extension of component files, in any letter case. -/
def HasScriptExtension (p : Path) : Prop :=
  ∃ stem ext, Ends p.name stem ext ∧ IsScript ext

/-- As the last segment divides in one way, any division of it will do. -/
theorem hasScriptExtension_iff (ends : Ends p.name stem ext) :
    p.HasScriptExtension ↔ IsScript ext := by
  constructor
  · rintro ⟨stem', ext', ends', hext⟩
    obtain ⟨-, rfl⟩ := ends.unique ends' p.slash_notMem_name
    exact hext
  · exact fun hext => ⟨stem, ext, ends, hext⟩

/-- A hidden script has no extension. -/
theorem IsHiddenScript.not_hasScriptExtension (h : IsHiddenScript p.name) :
    ¬ p.HasScriptExtension := by
  obtain ⟨dots, ext, hdots, hext, hname⟩ := h
  have hwhole : Ends p.name p.name [] := hname ▸ ends_hidden hdots hext
  rw [hasScriptExtension_iff hwhole]
  exact fun hempty => hempty.ne_empty rfl

/-- The candidates of `p` are made of the path `s`: besides `p` as it is written they are the files
that are looked for under `s`. -/
structure IsStem (p s : Path) : Prop where
  /-- Extensions are added to its text. -/
  text : p.stem = s.text
  /-- What is looked for under it is a candidate. -/
  expansions : s.expansions ⊆ p.candidates
  /-- There is no other candidate but the path itself. -/
  others : p.candidates ⊆ p :: s.expansions

/-- A path has one stem. -/
theorem IsStem.unique (h : IsStem p s) (h' : IsStem p t) : t = s :=
  text_injective (h'.text.symm.trans h.text)

/-- The stem of a path with an extension of component files is the path without the extension. -/
theorem WithoutExtension.isStem (h : WithoutExtension p s ext) (hext : IsScript ext) :
    IsStem p s where
  text := h.stem_eq hext
  expansions := by
    rw [(Expands.script h hext).candidates_eq]
    intro q hq
    -- The path as it is written comes first, and is left out below the stem.
    by_cases hqp : q = p
    · simp [hqp]
    · simp [hq, hqp]
  others := by
    rw [(Expands.script h hext).candidates_eq]
    exact List.cons_subset_cons p (List.filter_subset_self _)

/-- Unless a path ends like a script its expansions are tried, and it may be tried before them. -/
theorem candidates_eq_or (ends : Ends p.name stem ext) (hext : ¬ IsScript ext) :
    p.candidates = p.expansions ∨ p.candidates = p :: p.expansions := by
  by_cases he : ext = []
  · subst he
    exact .inl (Expands.bare ends).candidates_eq
  · exact .inr (Expands.foreign ends he hext).candidates_eq

/-- Any other path is its own stem. -/
theorem isStem_self (ends : Ends p.name stem ext) (hext : ¬ IsScript ext) : IsStem p p where
  text := stem_eq_text ends hext
  expansions := by
    rcases candidates_eq_or ends hext with h | h <;> simp [h]
  others := by
    rcases candidates_eq_or ends hext with h | h <;> simp [h]

/-- Every path has a stem, which is another path if it has an extension of component files. -/
theorem exists_isStem (p : Path) : ∃ s, IsStem p s ∧ (p.HasScriptExtension ↔ s ≠ p) := by
  obtain ⟨stem, ext, ends⟩ := exists_ends p.name
  by_cases hext : IsScript ext
  · obtain ⟨s, hs⟩ := exists_withoutExtension ends hext.ne_empty
    have hne : s ≠ p := by
      rintro rfl
      have htext := hs.text_eq hext.ne_empty
      exact hext.ne_empty (by simpa using htext.symm)
    exact ⟨s, hs.isStem hext, iff_of_true ((hasScriptExtension_iff ends).2 hext) hne⟩
  · refine ⟨p, isStem_self ends hext, ?_⟩
    rw [hasScriptExtension_iff ends]
    exact iff_of_false hext (by simp)

/-- The last segment of the stem is that of the path, less the extension. -/
theorem IsStem.name_eq (h : IsStem p s) (ends : Ends p.name stem ext) (hext : IsScript ext) :
    s.name = stem := by
  obtain ⟨t, ht⟩ := exists_withoutExtension ends hext.ne_empty
  obtain rfl := (ht.isStem hext).unique h
  exact (ends.unique ht.ends p.slash_notMem_name).1

/-! ### Names and candidates -/

/-- The name of a component and the candidates for its file, which are made of the path `s`, take the
same for the extension of its path. -/
structure NamedAlike (p s : Path) : Prop where
  /-- There is a name. -/
  nonempty : p.componentName ≠ []
  /-- An extension of component files is missing from the name as it is from the stem. -/
  cut : p.HasScriptExtension → p.componentName = s.name
  /-- Where there is none the name is all of the last segment. -/
  whole : ¬ p.HasScriptExtension → p.componentName = p.name

/-- A path that is no hidden script is named like its stem. -/
theorem namedAlike_of_not_hidden (hp : p.name ≠ []) (h : IsStem p s)
    (hhidden : ¬ IsHiddenScript p.name) : NamedAlike p s := by
  obtain ⟨stem, ext, ends⟩ := exists_ends p.name
  by_cases hext : IsScript ext
  · -- The name is cut where the extension begins, behind something else than dots.
    have hcut : p.componentName = stem := componentName_append ends.append_eq hext
    obtain ⟨c, hc, -⟩ := ends.named hext.ne_empty
    refine ⟨?_, fun _ => hcut.trans (h.name_eq ends hext).symm, ?_⟩
    · rw [hcut]
      rintro rfl
      simp at hc
    · exact fun hnone => absurd ((hasScriptExtension_iff ends).2 hext) hnone
  · have hwhole := componentName_of_ends ends hext hhidden
    refine ⟨?_, ?_, fun _ => hwhole⟩
    · rwa [hwhole]
    · exact fun hscript => absurd ((hasScriptExtension_iff ends).1 hscript) hext

/-- **Names and candidates.** The name of a component and the candidates for its file take the same for
the extension of its path, in any letter case and whatever dots there are elsewhere, unless the last
segment is the name of a hidden file that ends like those of component files. Of such a name the dots in
front are left, or nothing, while the candidates are made of the whole path. -/
theorem componentName_namedAlike (p : Path) (hp : p.name ≠ []) :
    ∃ s, (∀ t, IsStem p t ↔ t = s) ∧ (p.HasScriptExtension ↔ s ≠ p) ∧
      (NamedAlike p s ↔ ¬ IsHiddenScript p.name) ∧
      ∀ dots ext, (∀ c ∈ dots, c = Symbol.char '.') → IsScript ext → p.name = dots ++ ext →
        s = p ∧ p.componentName = dots := by
  obtain ⟨s, hs, hscript⟩ := p.exists_isStem
  refine ⟨s, fun t => ⟨hs.unique, fun h => h ▸ hs⟩, hscript, ⟨?_, namedAlike_of_not_hidden hp hs⟩, ?_⟩
  · -- The name of a hidden file would be all of the segment, and yet only the dots in front of it.
    intro halike hhidden
    have hwhole := halike.whole hhidden.not_hasScriptExtension
    obtain ⟨dots, ext, -, hext, hname⟩ := hhidden
    rw [componentName_append hname hext, hname] at hwhole
    exact hext.ne_empty (by simpa using hwhole.symm)
  · intro dots ext hdots hext hname
    have hhidden : IsHiddenScript p.name := ⟨dots, ext, hdots, hext, hname⟩
    refine ⟨?_, componentName_append hname hext⟩
    by_contra hne
    exact hhidden.not_hasScriptExtension (hscript.2 hne)

/-- The path of a file with several dots, whose extension is written in capitals. -/
def dottedFile : Path := ofText "a.b/..Menu.d.JSX"

/-- What the name with dots in front ends with. -/
theorem dottedFile_ends : Ends dottedFile.name "..Menu.d" ".JSX" := by
  have hname : dottedFile.name = ofString "..Menu.d" ++ Symbol.char '.' :: ofString "JSX" := by
    decide +kernel
  rw [hname]
  exact .extended ⟨'M', by decide, by decide⟩ (by decide)

/-- The name of that file goes by the same extension as the candidates for it. -/
theorem dottedFile_namedAlike :
    dottedFile.name ≠ [] ∧ ∃ s, IsStem dottedFile s ∧ s ≠ dottedFile ∧ NamedAlike dottedFile s ∧
      dottedFile.componentName = "..Menu.d" := by
  have hname : dottedFile.name ≠ [] := by decide
  have hext : IsScript ".JSX" := contains_lower_iff.1 (by decide +kernel)
  have hscript : dottedFile.HasScriptExtension := ⟨_, _, dottedFile_ends, hext⟩
  obtain ⟨s, hs, hother, halike, -⟩ := componentName_namedAlike dottedFile hname
  have hvisible : ¬ IsHiddenScript dottedFile.name := fun h =>
    h.not_hasScriptExtension hscript
  exact ⟨hname, s, (hs s).2 rfl, hother.1 hscript, halike.2 hvisible,
    componentName_append dottedFile_ends.append_eq hext⟩

/-- Of the name of a hidden file nothing is left, although it is the stem of the candidates as it is. -/
theorem hiddenFile_not_namedAlike :
    (ofText ".js").name = ".js" ∧ (ofText ".js").componentName = [] ∧
      (ofText ".js").candidates.map text =
        [".js.js", ".js.jsx", ".js/index.js", ".js/index.jsx"] ∧
      ∀ s, IsStem (ofText ".js") s → ¬ NamedAlike (ofText ".js") s := by
  have hname : (ofText ".js").componentName = [] := by decide +kernel
  exact ⟨by decide +kernel, hname, by decide +kernel, fun s _ h => h.nonempty hname⟩

end RenderTree.Path
