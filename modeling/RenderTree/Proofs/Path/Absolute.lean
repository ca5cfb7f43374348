import RenderTree.Proofs.Text.Basic
import RenderTree.Resolve

/-!
# Absolute paths

An absolute path begins at the root. The candidates for a component that an absolute file imports
are absolute, however its specifier is written, so none of them is looked up from the working
directory.

* `Path.IsAbsolute` — a path that begins at the root.
* `isAbsolute_ofText_iff`, `IsAbsolute.head?_text` — it is written with a slash at the
  beginning.
* `IsAbsolute.candidates` — its candidates are absolute.
-/

namespace RenderTree

open RenderTree.Text

variable {t : Text}

/-! ### Extensions -/

/-- An extension is part of the last segment. -/
theorem Text.length_extension_le (t : Text) :
    (extension t).length ≤ (afterLast (Symbol.char '/') t).length := by
  have hcore : ((afterLast (Symbol.char '/') t).dropWhile (· == Symbol.char '.')).length ≤
      (afterLast (Symbol.char '/') t).length :=
    (List.dropWhile_suffix _).length_le
  rw [extension]
  split
  next hdot =>
    have hlt := length_afterLast_lt (List.contains_iff_mem.1 hdot)
    rw [List.length_cons]
    omega
  next => simp

/-- Without its extension a path's text still begins with the slash that it begins with. -/
theorem Text.head?_splitExtension (h : t.head? = some (Symbol.char '/')) :
    (splitExtension t).1.head? = some (Symbol.char '/') := by
  have hmem : Symbol.char '/' ∈ t := List.mem_of_head? h
  have hlt := length_afterLast_lt hmem
  have hle := length_extension_le t
  rw [splitExtension, List.head?_take, if_neg (by omega), h]

/-! ### Absolute paths -/

namespace Path

variable {p q : Path}

/-- The path begins at the root. -/
def IsAbsolute (p : Path) : Prop :=
  p.anchor ≠ .relative

instance (p : Path) : Decidable p.IsAbsolute :=
  inferInstanceAs (Decidable (_ ≠ _))

/-- A text is relative if it does not begin with a slash. -/
theorem anchorOf_eq_relative_iff : anchorOf t = .relative ↔ t.head? ≠ some (Symbol.char '/') := by
  cases t with
  | nil => simp [anchorOf]
  | cons x t =>
    by_cases hx : x = Symbol.char '/'
    · rw [anchorOf, List.takeWhile_cons_of_pos (by simpa using hx), List.length_cons]
      constructor
      · intro h
        split at h <;> simp_all
      · exact fun h => absurd (congrArg some hx) h
    · simp [anchorOf, hx]

/-- A text denotes an absolute path if it begins with a slash. -/
theorem isAbsolute_ofText_iff {s : Text} :
    (ofText s).IsAbsolute ↔ s.head? = some (Symbol.char '/') :=
  not_iff_comm.1 anchorOf_eq_relative_iff.symm

/-- An absolute path is written with a slash at the beginning. -/
theorem IsAbsolute.head?_text (h : p.IsAbsolute) : p.text.head? = some (Symbol.char '/') := by
  rw [text, if_neg (fun hp => h hp.1)]
  cases ha : p.anchor with
  | relative => exact absurd ha h
  | root => rfl
  | doubleRoot => rfl

/-- The parent of an absolute path is absolute. -/
theorem IsAbsolute.parent (h : p.IsAbsolute) : p.parent.IsAbsolute := h

/-- A child of an absolute path is absolute. -/
theorem IsAbsolute.child {s : Text} (h : p.IsAbsolute) (hs : IsSegment s) :
    (p.child s hs).IsAbsolute := h

/-- What is looked up from an absolute path is absolute. -/
theorem IsAbsolute.join (h : p.IsAbsolute) (s : Text) : (p.join s).IsAbsolute := by
  rw [Path.join]
  split
  next => exact h
  next hs => exact hs

/-- The stem of an absolute path begins with a slash. -/
theorem IsAbsolute.head?_stem (h : p.IsAbsolute) : p.stem.head? = some (Symbol.char '/') := by
  have hroot := head?_splitExtension h.head?_text
  rw [stem]
  simp only
  split
  · exact hroot
  · exact h.head?_text

/-- A text that begins with a slash does so however it goes on. -/
theorem head?_append_of_slash {s : Text} (h : s.head? = some (Symbol.char '/')) (t : Text) :
    (s ++ t).head? = some (Symbol.char '/') := by
  rw [List.head?_append, h, Option.some_or]

/-- The texts of the candidates for an absolute path begin with slashes. -/
theorem IsAbsolute.head?_of_mem_candidateTexts (h : p.IsAbsolute) {text : Text}
    (ht : text ∈ p.candidateTexts) : text.head? = some (Symbol.char '/') := by
  have hstem := h.head?_stem
  rw [candidateTexts, List.mem_append, List.mem_append, List.mem_map, List.mem_map] at ht
  rcases ht with (hwritten | ⟨e, -, rfl⟩) | ⟨e, -, rfl⟩
  · split at hwritten
    · cases hwritten
    · rw [List.mem_singleton.1 hwritten]
      exact h.head?_text
  · exact head?_append_of_slash hstem e
  · apply head?_append_of_slash
    apply head?_append_of_slash
    split
    · exact hstem
    · exact head?_append_of_slash hstem "/"

/-- **Candidates.** The candidates for an absolute path are absolute. -/
theorem IsAbsolute.candidates (h : p.IsAbsolute) (hq : q ∈ p.candidates) : q.IsAbsolute := by
  obtain ⟨text, ht, rfl⟩ := List.mem_map.1 hq
  rw [isAbsolute_ofText_iff]
  exact h.head?_of_mem_candidateTexts (List.mem_eraseDups.1 ht)

/-- What is tried for a specifier in an absolute file is absolute, if the module directory is. -/
theorem IsAbsolute.searchPath {file : Path} {moduleDir : Option Path} {specifier : Text}
    (hfile : file.IsAbsolute) (hdir : ∀ dir, moduleDir = some dir → dir.IsAbsolute)
    (hq : q ∈ searchPath specifier (some file) moduleDir) : q.IsAbsolute := by
  have hnear := hfile.parent.join specifier
  cases moduleDir with
  | none => exact hnear.candidates hq
  | some dir =>
    rcases List.mem_append.1 hq with hq | hq
    · exact hnear.candidates hq
    · exact ((hdir dir rfl).join specifier).candidates (List.mem_filter.1 hq).1

end Path

end RenderTree
