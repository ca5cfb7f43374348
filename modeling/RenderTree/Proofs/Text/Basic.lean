import RenderTree.Text.Basic
import Mathlib.Data.List.TakeWhile
import Mathlib.Logic.Function.Basic

/-!
# Texts and their parts

A string counts as the text of its characters, and a text with surrogates in it is no string.
Texts are taken apart at the first occurrence of a symbol and at the last one. Things of a kind that
have names are looked up by them in the list of all of their kind.

* `Symbol.toNat_injective` — symbols are told apart, and ordered, by their code points.
* `ofString_injective`, `toString?_eq_ok_iff` — strings among the texts.
* `beforeFirst_append_cons`, `afterLast_append` — the parts around an occurrence.
* `beforeFirst_of_notMem`, `afterLast_of_notMem` — where there is none, a part is all of the text.
* `exists_append_cons_last` — the last occurrence.
* `find?_name_eq_some_iff`, `find?_name_eq_none_iff` — what is found by a name.
-/

namespace RenderTree

/-! ### The order of symbols -/

namespace Symbol

/-- Symbols with the same code point are the same. -/
theorem toNat_injective : Function.Injective toNat :=
  fun _ _ => eq_of_toNat_eq

instance : LE Symbol := ⟨fun a b => a.toNat ≤ b.toNat⟩

instance : Std.IsLinearOrder Symbol where
  le_refl a := Nat.le_refl a.toNat
  le_trans _ _ _ hab hbc := Nat.le_trans hab hbc
  le_antisymm _ _ hab hba := toNat_injective (Nat.le_antisymm hab hba)
  le_total a b := Nat.le_total a.toNat b.toNat

instance : Std.LawfulOrderLT Symbol where
  lt_iff _ _ := Nat.lt_iff_le_and_not_ge

end Symbol

namespace Text

/-! ### Strings -/

variable {s : String} {t : Text}

/-- Strings with the same symbols are the same. -/
theorem ofString_injective : Function.Injective ofString := by
  intro s s' h
  have hmap : s.toList.map Symbol.char = s'.toList.map Symbol.char := h
  rw [List.map_inj_right (fun _ _ hc => Symbol.char.inj hc)] at hmap
  exact String.toList_inj.1 hmap

@[simp] theorem ofString_ofList (cs : List Char) : ofString (String.ofList cs) = cs.map .char := by
  rw [ofString, String.toList_ofList]

/-- Only the empty string is the empty text. -/
theorem ofString_eq_nil_iff : ofString s = [] ↔ s = "" := by
  rw [ofString, List.map_eq_nil_iff, String.toList_eq_nil_iff]

/-- No surrogate is in a string. -/
theorem surrogate_notMem_ofString (u : Surrogate) (s : String) :
    Symbol.surrogate u ∉ ofString s := by
  simp [ofString]

/-- The bytes of two texts add up. -/
theorem size_append (t u : Text) : Text.size (t ++ u) = Text.size t + Text.size u := by
  induction t with
  | nil => exact (Nat.zero_add _).symm
  | cons x t ih =>
    show x.size + Text.size (t ++ u) = x.size + Text.size t + Text.size u
    rw [ih, Nat.add_assoc]

/-- What is reported of a text without symbols that are not allowed: nothing. -/
theorem symbolFault?_eq_none_iff {allowed : Symbol → Bool} {offset : Nat} :
    symbolFault? allowed offset t = none ↔
      ∀ u, Symbol.surrogate u ∈ t → allowed (.surrogate u) = true := by
  induction t generalizing offset with
  | nil => simp [symbolFault?]
  | cons x t ih =>
    cases x with
    | char c => simp [symbolFault?, ih]
    | surrogate u =>
      rw [symbolFault?]
      split
      next hu =>
        rw [ih]
        simp only [List.mem_cons, Symbol.surrogate.injEq]
        exact ⟨fun h v hv => hv.elim (fun heq => heq ▸ hu) (h v), fun h v hv => h v (.inr hv)⟩
      next hu => exact iff_of_false (by simp) fun h => hu (h u List.mem_cons_self)

/-- In a string all symbols are allowed. -/
theorem symbolFault?_ofString (allowed : Symbol → Bool) (offset : Nat) (s : String) :
    symbolFault? allowed offset (ofString s) = none :=
  symbolFault?_eq_none_iff.2 fun u hu => absurd hu (surrogate_notMem_ofString u s)

/-- The characters of a string are those of its text. -/
theorem filterMap_char?_ofString (s : String) : (ofString s).filterMap Symbol.char? = s.toList := by
  rw [ofString, List.filterMap_map]
  exact List.filterMap_some

/-- **Strings.** A text that is a string is the text of that string. -/
theorem toString?_eq_ok_iff : toString? t = .ok s ↔ t = ofString s := by
  constructor
  · intro h
    rw [toString?] at h
    split at h
    · cases h
    next hnone =>
      obtain rfl := Except.ok.inj h
      rw [symbolFault?_eq_none_iff] at hnone
      rw [ofString_ofList]
      -- All of the symbols are characters, so none of them is left out.
      clear h
      induction t with
      | nil => rfl
      | cons x t ih =>
        have hrest := ih fun u hu => hnone u (List.mem_cons_of_mem x hu)
        cases x with
        | char c => exact congrArg (Symbol.char c :: ·) hrest
        | surrogate u => exact absurd (hnone u List.mem_cons_self) (by simp)
  · rintro rfl
    rw [toString?, symbolFault?_ofString]
    dsimp only
    rw [filterMap_char?_ofString, String.ofList_toList]

@[simp] theorem toString?_ofString (s : String) : toString? (ofString s) = .ok s :=
  toString?_eq_ok_iff.2 rfl

/-- The first surrogates of a text are the same with a string behind it. -/
theorem symbolFault?_append_ofString (allowed : Symbol → Bool) (offset : Nat) (t : Text)
    (s : String) : symbolFault? allowed offset (t ++ ofString s) = symbolFault? allowed offset t := by
  induction t generalizing offset with
  | nil => exact symbolFault?_ofString allowed offset s
  | cons x t ih =>
    have hrun : ((t ++ ofString s).takeWhile Symbol.isSurrogate).length =
        (t.takeWhile Symbol.isSurrogate).length := by
      clear ih
      induction t with
      | nil =>
        rw [List.nil_append, ofString]
        cases s.toList <;> rfl
      | cons y t ih =>
        rw [List.cons_append, List.takeWhile_cons, List.takeWhile_cons]
        split
        · rw [List.length_cons, List.length_cons, ih]
        · rfl
    cases x with
    | char c => exact ih (offset + 1)
    | surrogate u =>
      show symbolFault? allowed offset (.surrogate u :: (t ++ ofString s)) = _
      rw [symbolFault?, symbolFault?, ih, hrun]

/-- A text with a string behind it is a string if the text is one. -/
theorem toString?_append_ofString (t : Text) (s : String) :
    toString? (t ++ ofString s) = (toString? t).map (· ++ s) := by
  rw [toString?, toString?, symbolFault?_append_ofString]
  split
  · rfl
  · rw [List.filterMap_append, filterMap_char?_ofString, Except.map, String.ofList_append,
      String.ofList_toList]

/-! ### Before the first occurrence -/

section Parts

variable {α : Type} [DecidableEq α] {c : α} {cs ds : List α}

/-- What has no such symbol stands before the first one. -/
theorem beforeFirst_append_of_notMem (h : c ∉ cs) :
    beforeFirst c (cs ++ ds) = cs ++ beforeFirst c ds := by
  apply List.takeWhile_append_of_pos
  intro x hx
  simpa using fun hxc : x = c => h (hxc ▸ hx)

/-- Without an occurrence all comes before the first one. -/
theorem beforeFirst_of_notMem (h : c ∉ cs) : beforeFirst c cs = cs := by
  have happend : beforeFirst c (cs ++ []) = cs ++ beforeFirst c [] := beforeFirst_append_of_notMem h
  simpa [beforeFirst] using happend

/-- What comes before the first occurrence. -/
theorem beforeFirst_append_cons (h : c ∉ cs) : beforeFirst c (cs ++ c :: ds) = cs := by
  rw [beforeFirst_append_of_notMem h, beforeFirst, List.takeWhile_cons_of_neg (by simp),
    List.append_nil]

/-! ### Behind the last occurrence -/

/-- Without an occurrence all comes after the last one. -/
theorem afterLast_of_notMem (h : c ∉ cs) : afterLast c cs = cs := by
  rw [afterLast, List.takeWhile_eq_self_iff.2, List.reverse_reverse]
  intro x hx
  simpa using fun hxc : x = c => h (hxc ▸ List.mem_reverse.1 hx)

/-- What comes after the last occurrence. -/
theorem afterLast_append {xs ys : List α} (h : c ∉ ys) :
    afterLast c (xs ++ c :: ys) = ys := by
  have hys : ∀ x ∈ ys.reverse, (x != c) = true := by
    intro x hx
    simpa using fun hxc : x = c => h (hxc ▸ List.mem_reverse.1 hx)
  rw [afterLast, List.reverse_append, List.reverse_cons, List.append_assoc,
    List.takeWhile_append_of_pos hys, List.singleton_append,
    List.takeWhile_cons_of_neg (by simp), List.append_nil, List.reverse_reverse]

omit [DecidableEq α] in
/-- A list with an element divides around the last occurrence of it. -/
theorem exists_append_cons_last (h : c ∈ cs) : ∃ xs ys, cs = xs ++ c :: ys ∧ c ∉ ys := by
  obtain ⟨as, bs, hcs, hnot⟩ := List.eq_append_cons_of_mem (List.mem_reverse.2 h)
  refine ⟨bs.reverse, as.reverse, ?_, by simpa using hnot⟩
  rw [← List.reverse_reverse cs, hcs]
  simp

/-- What comes after the last occurrence is an end of the text. -/
theorem afterLast_suffix (c : α) (cs : List α) : afterLast c cs <:+ cs := by
  rw [afterLast, ← List.reverse_prefix, List.reverse_reverse]
  exact List.takeWhile_prefix _

/-- After the last occurrence there is no other. -/
theorem not_mem_afterLast (c : α) (cs : List α) : c ∉ afterLast c cs := by
  intro h
  have hne := List.mem_takeWhile_imp (List.mem_reverse.1 h)
  simp at hne

/-- What stands behind an occurrence of a symbol is shorter than the text. -/
theorem length_afterLast_lt (h : c ∈ cs) : (afterLast c cs).length < cs.length := by
  have hsuffix := afterLast_suffix c cs
  apply Nat.lt_of_le_of_ne hsuffix.length_le
  intro hlen
  have hnot := not_mem_afterLast c cs
  rw [hsuffix.eq_of_length hlen] at hnot
  exact hnot h

end Parts

/-! ### Names -/

section Names

variable {α β : Type} [BEq β] [LawfulBEq β] {name : α → β} {all : List α} {x : α} {n : β}

/-- Where every thing is found by its own name, a name stands for the one that has it. -/
theorem find?_name_eq_some_iff (h : ∀ x, all.find? (fun y => name y == name x) = some x) :
    all.find? (fun y => name y == n) = some x ↔ name x = n := by
  constructor
  · intro hx
    simpa using List.find?_some hx
  · rintro rfl
    exact h x

/-- Nothing is found by a name that no thing has. -/
theorem find?_name_eq_none_iff (h : ∀ x, all.find? (fun y => name y == name x) = some x) :
    all.find? (fun y => name y == n) = none ↔ ∀ x, name x ≠ n := by
  rw [Option.eq_none_iff_forall_ne_some]
  exact forall_congr' fun _ => not_congr (find?_name_eq_some_iff h)

omit [LawfulBEq β] in
/-- No two things have the same name. -/
theorem name_injective_of_find? (h : ∀ x, all.find? (fun y => name y == name x) = some x) :
    Function.Injective name := by
  intro x y hxy
  rw [← Option.some_inj, ← h x, hxy, h y]

end Names

end Text

end RenderTree
