import RenderTree.Path.Written
import RenderTree.Proofs.Text.Basic

/-!
# Extensions

The extension of a segment is its last dot and what follows, unless there is nothing but dots in
front of it. That of a path is the extension of its last segment, wherever else in its text there
are dots.

* `Ends` — how a segment divides into a stem and an extension.
* `exists_ends`, `Ends.unique` — every segment does, in one way.
* `Ends.extension_eq` — the extension that is found is this one.
* `Path.extension_text` — the extension of a path's text is that of the last segment.
-/

namespace RenderTree

open RenderTree.Text

variable {segment stem ext stem' ext' : Text}

/-! ### Stems and extensions -/

/-- A segment consists of a stem and an extension, which may be empty. -/
inductive Ends : (segment stem ext : Text) → Prop where
  /-- The only dots of the segment are at its beginning. -/
  | bare {dots rest : Text} (leading : ∀ x ∈ dots, x = '.') (plain : Symbol.char '.' ∉ rest) :
      Ends (dots ++ rest) (dots ++ rest) []
  /-- There is something else than dots in front of the last dot. -/
  | extended {stem rest : Text} (named : ∃ x ∈ stem, x ≠ '.') (plain : Symbol.char '.' ∉ rest) :
      Ends (stem ++ Symbol.char '.' :: rest) stem (Symbol.char '.' :: rest)

/-- A segment is its stem and its extension. -/
theorem Ends.append_eq (h : Ends segment stem ext) : segment = stem ++ ext := by
  cases h with
  | bare leading plain => rw [List.append_nil]
  | extended named plain => rfl

/-- The stem in front of an extension is more than dots. -/
theorem Ends.named (h : Ends segment stem ext) (he : ext ≠ []) :
    ∃ x ∈ stem, x ≠ Symbol.char '.' := by
  cases h with
  | bare leading plain => exact absurd rfl he
  | extended named plain => exact named

/-- Every segment has a stem and an extension. -/
theorem exists_ends (segment : Text) : ∃ stem ext, Ends segment stem ext := by
  by_cases hdot : Symbol.char '.' ∈ segment
  · obtain ⟨xs, ys, rfl, hplain⟩ := exists_append_cons_last hdot
    by_cases hnamed : ∃ x ∈ xs, x ≠ Symbol.char '.'
    · exact ⟨_, _, .extended hnamed hplain⟩
    · have hleading : ∀ x ∈ xs ++ [Symbol.char '.'], x = Symbol.char '.' := by
        intro x hx
        rw [List.mem_append, List.mem_singleton] at hx
        rcases hx with hx | hx
        · exact Classical.not_not.1 fun hne => hnamed ⟨x, hx, hne⟩
        · exact hx
      have h := Ends.bare hleading hplain
      rw [List.append_assoc, List.singleton_append] at h
      exact ⟨_, _, h⟩
  · have h : Ends ([] ++ segment) ([] ++ segment) [] := .bare (by simp) hdot
    rw [List.nil_append] at h
    exact ⟨segment, [], h⟩

/-- **Extensions.** The extension that is found in a segment is the one that it ends in. -/
theorem Ends.extension_eq (h : Ends segment stem ext) (hslash : Symbol.char '/' ∉ segment) :
    extension segment = ext := by
  rw [extension, afterLast_of_notMem hslash]
  cases h with
  -- Behind the leading dots there is no other dot, so nothing is cut off.
  | @bare dots rest leading plain =>
    have hdots : dots.dropWhile (· == Symbol.char '.') = [] := by
      rw [List.dropWhile_eq_nil_iff]
      intro x hx
      simpa using leading x hx
    have hrest : Symbol.char '.' ∉ rest.dropWhile (· == Symbol.char '.') :=
      fun h => plain ((List.dropWhile_suffix _).subset h)
    simp [List.dropWhile_append, hdots, hrest]
  -- The leading dots end within the stem, so the dot in front of the extension is left.
  | @extended stem rest named plain =>
    have hstem : (stem.dropWhile (· == Symbol.char '.')).isEmpty = false := by
      rw [List.isEmpty_eq_false_iff, ne_eq, List.dropWhile_eq_nil_iff]
      obtain ⟨x, hx, hne⟩ := named
      exact fun hall => hne (by simpa using hall x hx)
    have hcore : (stem ++ Symbol.char '.' :: rest).dropWhile (· == Symbol.char '.') =
        stem.dropWhile (· == Symbol.char '.') ++ Symbol.char '.' :: rest := by
      simp [List.dropWhile_append, hstem]
    simp only [hcore]
    rw [if_pos (by simp), afterLast_append plain]

/-- A segment divides in one way. -/
theorem Ends.unique (h : Ends segment stem ext) (h' : Ends segment stem' ext')
    (hslash : Symbol.char '/' ∉ segment) : stem' = stem ∧ ext' = ext := by
  have hext : ext' = ext := by
    rw [← h.extension_eq hslash, h'.extension_eq hslash]
  refine ⟨?_, hext⟩
  have happend := h.append_eq.symm.trans h'.append_eq
  rw [hext, List.append_cancel_right_eq] at happend
  exact happend.symm

/-! ### The last segment of a path -/

namespace Path

variable {p : Path} {front : List Text} {n : Text}

/-- The last segment is the name. -/
theorem name_of_concat (hp : p.segments = front ++ [n]) : p.name = n := by
  rw [name, hp]
  simp

/-- Without segments there is no name. -/
theorem name_of_nil (hp : p.segments = []) : p.name = [] := by
  rw [name, hp]
  rfl

/-- The last segment of a path has no slash. -/
theorem slash_notMem_name (p : Path) : Symbol.char '/' ∉ p.name := by
  rcases List.eq_nil_or_concat p.segments with hp | ⟨front, n, hp⟩
  · rw [name_of_nil hp]
    simp
  · rw [List.concat_eq_append] at hp
    rw [name_of_concat hp]
    exact (p.proper n (by simp [hp])).2.2

/-- What stands in front of the last segment ends in a slash, if there is anything. -/
theorem exists_text_eq (hp : p.segments = front ++ [n]) :
    p.text = n ∨ ∃ before, p.text = before ++ Symbol.char '/' :: n := by
  rw [text_concat hp]
  by_cases hfront : front = []
  · subst hfront
    rw [List.nil_append, List.intercalate_singleton]
    cases p.anchor with
    | relative => exact .inl rfl
    | root => exact .inr ⟨[], rfl⟩
    | doubleRoot => exact .inr ⟨[Symbol.char '/'], rfl⟩
  · rw [intercalate_concat _ hfront, List.append_assoc, ← List.append_assoc]
    exact .inr ⟨_, rfl⟩

/-- **The last segment.** The extension of a path's text is that of its last segment. -/
theorem extension_text (p : Path) : extension p.text = extension p.name := by
  rcases List.eq_nil_or_concat p.segments with hp | ⟨front, n, hp⟩
  · -- There are no segments to have an extension.
    rw [name_of_nil hp]
    by_cases ha : p.anchor = .relative
    · rw [text, if_pos ⟨ha, hp⟩]
      decide
    · rw [text_eq (fun h => ha h.1), hp, List.intercalate_nil, List.append_nil]
      cases p.anchor <;> decide
  · rw [List.concat_eq_append] at hp
    have hslash : Symbol.char '/' ∉ n := (p.proper n (by simp [hp])).2.2
    have hlast : afterLast (Symbol.char '/') p.text = n := by
      rcases exists_text_eq hp with h | ⟨before, h⟩
      · rw [h, afterLast_of_notMem hslash]
      · rw [h]
        exact afterLast_append hslash
    rw [name_of_concat hp, extension, extension, hlast, afterLast_of_notMem hslash]

end Path

end RenderTree
