import RenderTree.Imports
import RenderTree.Proofs.Path.Absolute
import RenderTree.Proofs.Path.Extension
import RenderTree.Proofs.Text.LetterCase
import RenderTree.Proofs.Text.Basic

/-!
# Assets

Whether a specifier denotes an asset is found out by taking it apart: the query is cut off, then all
directories, then all that is in front of the last dot. It comes to the same as a look at the end of
what stands in front of the query.

* `PathPart` — what stands in front of the query of a specifier.
* `SameButCase` — two texts that differ in the case of letters.
* `suffix_afterLast_iff`, `dotted_suffix_iff` — ends of a text and its parts behind a last occurrence.
* `isAsset_iff`, `isAsset_iff_lower` — assets by the end of the specifier in front of its query.
* `SameButCase.isAsset_eq`, `PathPart.isAsset_eq`, `isAsset_directory` — what does not matter.
* `isAsset_endsIn` — assets by their suffixes, and what they do not depend on.
-/

namespace RenderTree

open RenderTree.Text

variable {specifier path : Text} {c : Symbol} {cs ds : Text}

/-! ### Queries -/

/-- What stands in front of the query of a specifier: in front of its first question mark, or all of
it where there is none. -/
inductive PathPart : (specifier path : Text) → Prop where
  | bare {path : Text} (plain : Symbol.char '?' ∉ path) : PathPart path path
  | queried {path query : Text} (plain : Symbol.char '?' ∉ path) :
      PathPart (path ++ Symbol.char '?' :: query) path

/-- Every specifier has one such part. -/
theorem pathPart_iff :
    PathPart specifier path ↔ path = beforeFirst (Symbol.char '?') specifier := by
  constructor
  · intro h
    cases h with
    | bare plain => rw [beforeFirst_of_notMem plain]
    | queried plain => exact (beforeFirst_append_cons plain).symm
  · rintro rfl
    by_cases hmark : Symbol.char '?' ∈ specifier
    · obtain ⟨front, query, hspecifier, hplain⟩ := List.eq_append_cons_of_mem hmark
      rw [hspecifier, beforeFirst_append_cons hplain]
      exact .queried hplain
    · rw [beforeFirst_of_notMem hmark]
      exact .bare hmark

/-! ### Letter case -/

/-- Two texts differ in nothing but the case of letters: they have the same lower-case form, or
their symbols have, each by itself. -/
def SameButCase (s t : Text) : Prop :=
  lower s = lower t ∨ s.map small = t.map small

/-- Only the question mark is it in lower case. -/
theorem small_eq_mark_iff : small c = Symbol.char '?' ↔ c = Symbol.char '?' := by
  rw [small_eq_iff (by decide)]
  constructor
  · rintro (h | h) <;> exact h
  · exact .inl

/-- Lower case and the cut at the question mark can be exchanged, symbol by symbol. -/
theorem beforeFirst_map_small (cs : Text) :
    beforeFirst (Symbol.char '?') (cs.map small) = (beforeFirst (Symbol.char '?') cs).map small := by
  have hmark : (fun c => small c != Symbol.char '?') = (fun c => c != Symbol.char '?') := by
    funext c
    simp [bne, small_eq_mark_iff]
  rw [beforeFirst, beforeFirst, List.takeWhile_map]
  exact congrArg (fun p => (cs.takeWhile p).map small) hmark

/-- Symbols that do not count are passed over. -/
theorem nextIsCased_cons (c : Symbol) (cs : Text) :
    nextIsCased (c :: cs) = if isIgnorable c then nextIsCased cs else isCased c := by
  by_cases hc : isIgnorable c = true <;> simp [nextIsCased, hc]

/-- A question mark is as good as the end of a text to a sigma in front of it. -/
theorem nextIsCased_beforeFirst (cs : Text) :
    nextIsCased (beforeFirst (Symbol.char '?') cs) = nextIsCased cs := by
  induction cs with
  | nil => rfl
  | cons c cs ih =>
    by_cases hmark : c = Symbol.char '?'
    · have hignorable : isIgnorable (Symbol.char '?') = false := by decide +kernel
      have hcased : isCased (Symbol.char '?') = false := by decide +kernel
      rw [hmark, nextIsCased_cons, hignorable, hcased]
      rfl
    · rw [beforeFirst, List.takeWhile_cons_of_pos (by simpa using hmark), ← beforeFirst,
        nextIsCased_cons, nextIsCased_cons, ih]

/-- The form of a symbol is the same in front of a question mark as in front of what follows it, and
there is no question mark in it. -/
theorem lowerSymbol_beforeFirst (hmark : c ≠ Symbol.char '?') (before cs : Text) :
    lowerSymbol before c (beforeFirst (Symbol.char '?') cs) = lowerSymbol before c cs ∧
      Symbol.char '?' ∉ lowerSymbol before c cs := by
  cases c with
  | surrogate u => exact ⟨rfl, by simp [lowerSymbol]⟩
  | char c =>
    rw [lowerSymbol, lowerSymbol, nextIsCased_beforeFirst]
    refine ⟨rfl, ?_⟩
    split
    · decide
    · split
      · split <;> decide
      · have hsmall : lowerChar c ≠ '?' := fun h =>
          hmark (small_eq_mark_iff.1 (congrArg Symbol.char h))
        simpa using hsmall.symm

/-- Lower case and the cut at the question mark can be exchanged: what the cut leaves out has no
effect on what comes before it. -/
theorem beforeFirst_lowerBehind (cs : Text) :
    ∀ before, beforeFirst (Symbol.char '?') (lowerBehind before cs) =
      lowerBehind before (beforeFirst (Symbol.char '?') cs) := by
  induction cs with
  | nil => exact fun _ => rfl
  | cons c cs ih =>
    intro before
    by_cases hmark : c = Symbol.char '?'
    · subst hmark
      rfl
    · have hfront : beforeFirst (Symbol.char '?') (c :: cs) = c :: beforeFirst (Symbol.char '?') cs :=
        List.takeWhile_cons_of_pos (by simpa using hmark)
      obtain ⟨hsame, hplain⟩ := lowerSymbol_beforeFirst hmark before cs
      rw [hfront, lowerBehind, lowerBehind, hsame, beforeFirst_append_of_notMem hplain, ih]

/-! ### Ends -/

/-- An end of a text without a symbol is an end of what stands behind the last one. -/
theorem suffix_afterLast_iff (hc : c ∉ ds) : ds <:+ afterLast c cs ↔ ds <:+ cs := by
  by_cases hmem : c ∈ cs
  · obtain ⟨front, back, rfl, hback⟩ := exists_append_cons_last hmem
    rw [afterLast_append hback, suffix_append_cons_iff hc]
  · rw [afterLast_of_notMem hmem]

/-- A text ends with a dot and what has no dot exactly if it has a dot and this is behind the last. -/
theorem dotted_suffix_iff (hdot : Symbol.char '.' ∉ ds) :
    Symbol.char '.' :: ds <:+ cs ↔
      Symbol.char '.' ∈ cs ∧ afterLast (Symbol.char '.') cs = ds := by
  constructor
  · rintro ⟨front, rfl⟩
    exact ⟨by simp, afterLast_append hdot⟩
  · rintro ⟨hmem, rfl⟩
    obtain ⟨front, back, rfl, hback⟩ := exists_append_cons_last hmem
    rw [afterLast_append hback]
    exact List.suffix_append ..

/-- The extensions of assets are a dot and plain characters, no more dots and no slashes. -/
theorem exists_of_mem_assetExtensions : ∀ ext ∈ assetExtensions,
    (∀ c ∈ ext, IsPlain c) ∧ Symbol.char '/' ∉ ext ∧
      ext = Symbol.char '.' :: ext.tail ∧ Symbol.char '.' ∉ ext.tail := by
  decide

/-- **Assets.** A specifier denotes an asset if it ends, in front of its query, with an extension of
assets when each of its symbols is made small. -/
theorem isAsset_iff (specifier : Text) :
    isAsset specifier = true ↔
      ∃ ext ∈ assetExtensions, ext <:+ (beforeFirst (Symbol.char '?') specifier).map small := by
  rw [isAsset, lower]
  generalize beforeFirst (Symbol.char '?') specifier = cs
  -- No asset extension holds a slash or a second dot, so an end of the whole text is the end behind
  -- the last of both.
  simp only [Bool.and_eq_true, List.contains_iff_mem]
  constructor
  · rintro ⟨hdot, hmem⟩
    refine ⟨_, hmem, ?_⟩
    obtain ⟨hplain, hslash, -, hrest⟩ := exists_of_mem_assetExtensions _ hmem
    rw [← suffix_lowerBehind_iff hplain [], ← suffix_afterLast_iff hslash]
    exact (dotted_suffix_iff hrest).2 ⟨hdot, rfl⟩
  · rintro ⟨ext, hmem, hsuffix⟩
    obtain ⟨hplain, hslash, hext, hrest⟩ := exists_of_mem_assetExtensions ext hmem
    rw [← suffix_lowerBehind_iff hplain [], ← suffix_afterLast_iff hslash, hext,
      dotted_suffix_iff hrest] at hsuffix
    refine ⟨hsuffix.1, ?_⟩
    rwa [hsuffix.2, ← hext]

/-- The same by the lower-case form of the whole specifier. -/
theorem isAsset_iff_lower (specifier : Text) :
    isAsset specifier = true ↔
      ∃ ext ∈ assetExtensions, ext <:+ beforeFirst (Symbol.char '?') (lower specifier) := by
  rw [isAsset_iff, lower, beforeFirst_lowerBehind]
  refine exists_congr fun ext => and_congr_right fun hmem => ?_
  rw [suffix_lowerBehind_iff (exists_of_mem_assetExtensions ext hmem).1]

/-- Letter case makes no difference. -/
theorem SameButCase.isAsset_eq {other : Text} (h : SameButCase other specifier) :
    isAsset other = isAsset specifier := by
  rw [Bool.eq_iff_iff]
  rcases h with h | h
  · rw [isAsset_iff_lower, isAsset_iff_lower, h]
  · rw [isAsset_iff, isAsset_iff, ← beforeFirst_map_small, ← beforeFirst_map_small, h]

/-- What stands behind the path does not matter. -/
theorem PathPart.isAsset_eq {other : Text} (h : PathPart specifier path)
    (h' : PathPart other path) : isAsset other = isAsset specifier := by
  have hparts := (pathPart_iff.1 h').symm.trans (pathPart_iff.1 h)
  rw [Bool.eq_iff_iff, isAsset_iff, isAsset_iff, hparts]

/-- A directory in front does not matter. -/
theorem isAsset_directory {directory : Text} (h : Symbol.char '?' ∉ directory) (specifier : Text) :
    isAsset (directory ++ "/" ++ specifier) = isAsset specifier := by
  have hfront : beforeFirst (Symbol.char '?') (directory ++ "/" ++ specifier) =
      directory ++ Symbol.char '/' :: beforeFirst (Symbol.char '?') specifier := by
    rw [List.append_assoc, beforeFirst_append_of_notMem h,
      beforeFirst_append_of_notMem (by decide)]
    rfl
  rw [Bool.eq_iff_iff, isAsset_iff, isAsset_iff, hfront, List.map_append, List.map_cons]
  refine exists_congr fun ext => and_congr_right fun hmem => ?_
  exact suffix_append_cons_iff (exists_of_mem_assetExtensions ext hmem).2.1

/-- The path of a specifier, in lower case, ends with an extension of assets if it is an asset. -/
theorem PathPart.isAsset_iff (h : PathPart specifier path) : isAsset specifier = true ↔
    ∃ ext ∈ assetExtensions, ext <:+ lower path := by
  rw [pathPart_iff.1 h, RenderTree.isAsset_iff, lower]
  refine exists_congr fun ext => and_congr_right fun hmem => ?_
  rw [suffix_lowerBehind_iff (exists_of_mem_assetExtensions ext hmem).1]

/-- **Assets by their suffixes.** A specifier denotes an asset exactly if the part of it in front of
its query ends, in lower case, with one of these suffixes. So it depends neither on letter case, nor
on the query, nor on the directories in front. -/
theorem isAsset_endsIn (specifier : Text) :
    ∃ path, (∀ p, PathPart specifier p ↔ p = path) ∧
      (isAsset specifier = true ↔
        ∃ suffix ∈ ([".css", ".scss", ".sass", ".less", ".styl", ".svg", ".png", ".jpg", ".jpeg",
            ".gif", ".webp", ".ico", ".bmp", ".woff", ".woff2", ".ttf", ".eot", ".otf",
            ".json"] : List Text),
          suffix <:+ lower path) ∧
      (∀ other, SameButCase other specifier → isAsset other = isAsset specifier) ∧
      (∀ other, PathPart other path → isAsset other = isAsset specifier) ∧
      ∀ directory : Text, Symbol.char '?' ∉ directory →
        isAsset (directory ++ "/" ++ specifier) = isAsset specifier := by
  have hpath : PathPart specifier (beforeFirst (Symbol.char '?') specifier) := pathPart_iff.2 rfl
  exact ⟨_, fun p => pathPart_iff, hpath.isAsset_iff, fun other => SameButCase.isAsset_eq,
    fun other => hpath.isAsset_eq, fun directory h => isAsset_directory h specifier⟩

end RenderTree
