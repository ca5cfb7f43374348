import RenderTree.Text.LowerCase
import Mathlib.Data.List.Forall2

/-!
# Letter case

A text of small ASCII letters is the lower-case form of those texts that have the same letters, each
small or capital. Of all characters beyond ASCII only the sign for kelvin has an ASCII letter as its
lower-case form, so what is said of `k` would not hold.

* `IsPlain` — the ASCII characters that are no capitals, `k` apart.
* `SameLetter` — a symbol is another one, or the capital of it.
* `small` — a symbol made small by itself.
* `small_eq_iff`, `lower_eq_iff` — the lower-case forms that are plain.
* `suffix_lowerBehind_iff` — a plain end can be looked for symbol by symbol.
-/

namespace RenderTree.Text

/-- An ASCII character that is neither a capital nor `k`. -/
def IsPlain : Symbol → Prop
  | .char d => 0 < d.toNat ∧ d.toNat < 128 ∧ d.toLower = d ∧ d ≠ 'k'
  | .surrogate _ => False

instance : (d : Symbol) → Decidable (IsPlain d)
  | .char _ => inferInstanceAs (Decidable (_ ∧ _ ∧ _ ∧ _))
  | .surrogate _ => inferInstanceAs (Decidable False)

/-- The capital of a symbol. -/
def capital : Symbol → Symbol
  | .char c => .char c.toUpper
  | .surrogate u => .surrogate u

/-- A symbol is the other one, small or capital. -/
def SameLetter (s d : Symbol) : Prop :=
  s = d ∨ s = capital d

/-- The lower-case form of a symbol by itself. -/
def small : Symbol → Symbol
  | .char c => .char (lowerChar c)
  | .surrogate u => .surrogate u

variable {c d : Char} {x e : Symbol}

/-! ### Characters -/

/-- What holds of the first 128 characters can be checked one by one. -/
theorem forall_ascii {p : Char → Prop} (h : ∀ n < 128, p (Char.ofNat n)) (hc : c.toNat < 128) :
    p c := by
  have hp := h c.toNat hc
  rwa [Char.ofNat_toNat] at hp

/-- The capital of an ASCII character is one. -/
theorem toUpper_lt (hd : d.toNat < 128) : d.toUpper.toNat < 128 :=
  forall_ascii (p := fun d => d.toUpper.toNat < 128) (by decide +kernel) hd

/-- Two ASCII characters have one lower-case form: the small letter and its capital. -/
theorem toLower_eq_iff (hc : c.toNat < 128) (hd : d.toNat < 128) (hsmall : d.toLower = d) :
    c.toLower = d ↔ c = d ∨ c = d.toUpper := by
  have hback : c = c.toLower ∨ c = c.toLower.toUpper :=
    forall_ascii (p := fun c => c = c.toLower ∨ c = c.toLower.toUpper) (by decide +kernel) hc
  have hthere : d.toUpper.toLower = d.toLower :=
    forall_ascii (p := fun d => d.toUpper.toLower = d.toLower) (by decide +kernel) hd
  constructor
  · rintro rfl
    exact hback
  · rintro (rfl | rfl)
    · exact hsmall
    · exact hthere.trans hsmall

/-- No run of mappings leads to ASCII characters but for the one of the sign for kelvin. -/
theorem lowerRuns_target : ∀ r ∈ lowerRuns,
    128 ≤ (r.first : Int) + r.distance ∨ r.first = r.last ∧ (r.first : Int) + r.distance = 107 := by
  decide +kernel

/-- A number that is no code point is read as zero. -/
theorem toNat_ofNat_eq (n : Nat) : (Char.ofNat n).toNat = n ∨ (Char.ofNat n).toNat = 0 := by
  by_cases h : n.isValidChar
  · refine .inl ?_
    rw [Char.ofNat, dif_pos h]
    rfl
  · refine .inr ?_
    rw [Char.ofNat, dif_neg h]
    rfl

/-- The lower-case form of a character beyond ASCII is not plain. -/
theorem lowerChar_ne (hc : 128 ≤ c.toNat) (hd : IsPlain (.char d)) : lowerChar c ≠ d := by
  obtain ⟨hpos, hlt, -, hk⟩ := hd
  rw [lowerChar, if_neg (by omega)]
  split
  next r hr =>
    have hmem := List.mem_of_find?_eq_some hr
    have hrange := List.find?_some hr
    simp only [Bool.and_eq_true, decide_eq_true_eq] at hrange
    rintro rfl
    rcases toNat_ofNat_eq (Int.toNat (c.toNat + r.distance)) with htarget | htarget
    · rw [htarget] at hlt
      rcases lowerRuns_target r hmem with hfar | ⟨hone, hkelvin⟩
      · omega
      · -- The run of the sign for kelvin has no other character.
        apply hk
        have heq : (c.toNat : Int) + r.distance = 107 := by omega
        rw [heq]
        rfl
    · omega
  next =>
    rintro rfl
    omega

/-- A plain character is the lower-case form of itself and of its capital. -/
theorem lowerChar_eq_iff (hd : IsPlain (.char d)) : lowerChar c = d ↔ c = d ∨ c = d.toUpper := by
  by_cases hc : c.toNat < 128
  · rw [lowerChar, if_pos hc]
    exact toLower_eq_iff hc hd.2.1 hd.2.2.1
  · constructor
    · exact fun h => absurd h (lowerChar_ne (by omega) hd)
    · have hupper := toUpper_lt hd.2.1
      have hlt := hd.2.1
      rintro (rfl | rfl) <;> omega

/-- A plain symbol is an ASCII character. -/
theorem IsPlain.toNat_lt (h : IsPlain e) : e.toNat < 128 := by
  cases e with
  | char d => exact h.2.1
  | surrogate u => exact h.elim

/-- **One symbol.** A plain character is the lower-case form of itself and of its capital, and of
nothing else. -/
theorem small_eq_iff (he : IsPlain e) : small x = e ↔ SameLetter x e := by
  cases e with
  | surrogate u => exact he.elim
  | char d =>
    cases x with
    | surrogate u => simp [small, SameLetter, capital]
    | char c => simpa [small, SameLetter, capital] using lowerChar_eq_iff he

/-- What is the same letter as a plain symbol is an ASCII character. -/
theorem SameLetter.toNat_lt (h : SameLetter x e) (he : IsPlain e) : x.toNat < 128 := by
  rcases h with rfl | rfl
  · exact he.toNat_lt
  · cases e with
    | surrogate u => exact he.elim
    | char d => exact toUpper_lt he.2.1

/-- A symbol beyond ASCII is not plain, nor is its lower-case form. -/
theorem small_ne (hx : 128 ≤ x.toNat) (he : IsPlain e) : small x ≠ e := by
  rw [ne_eq, small_eq_iff he]
  intro hsame
  have := hsame.toNat_lt he
  omega

/-! ### Texts -/

/-- The form of a symbol in a text is the one that it has by itself, or ends in a symbol beyond
ASCII, as the symbol itself is. -/
theorem lowerBehind_cons (before t : Text) (x : Symbol) :
    lowerBehind before (x :: t) = small x :: lowerBehind (x :: before) t ∨
      128 ≤ x.toNat ∧ ∃ front e, 128 ≤ e.toNat ∧
        lowerBehind before (x :: t) = front ++ e :: lowerBehind (x :: before) t := by
  rw [lowerBehind]
  cases x with
  | surrogate u => exact .inl rfl
  | char c =>
    rw [lowerSymbol]
    split
    -- The dotted capital and the final sigma have forms that depend on their place.
    next hdotted =>
      rw [beq_iff_eq] at hdotted
      refine .inr ⟨?_, [.char 'i'], .char (Char.ofNat 0x307), by decide, rfl⟩
      show 128 ≤ c.toNat
      omega
    next =>
      split
      next hsigma =>
        rw [beq_iff_eq] at hsigma
        refine .inr ⟨?_, [], _, ?_, rfl⟩
        · show 128 ≤ c.toNat
          omega
        · split <;> decide
      next => exact .inl rfl

/-- In lower case a text is some plain symbols exactly if it is that but for capitals, whatever
comes before it. -/
theorem lowerBehind_eq_iff (t : Text) :
    ∀ before ds, (∀ d ∈ ds, IsPlain d) →
      (lowerBehind before t = ds ↔ List.Forall₂ SameLetter t ds) := by
  induction t with
  | nil =>
    intro before ds _
    rw [lowerBehind, List.forall₂_nil_left_iff, eq_comm]
  | cons x t ih =>
    intro before ds hds
    rcases lowerBehind_cons before t x with hform | ⟨hx, front, e, hfar, hform⟩
    · rw [hform]
      cases ds with
      | nil => simp
      | cons d ds =>
        rw [List.cons.injEq, List.forall₂_cons, small_eq_iff (hds d List.mem_cons_self),
          ih (x :: before) ds fun e he => hds e (List.mem_cons_of_mem d he)]
    · -- Neither a symbol beyond ASCII nor its form is plain.
      constructor
      · rintro rfl
        have := (hds e (by simp [hform])).toNat_lt
        omega
      · intro h
        obtain ⟨d, ds, hxd, -, rfl⟩ := List.forall₂_cons_left_iff.1 h
        have := hxd.toNat_lt (hds d List.mem_cons_self)
        omega

/-- **Letter case.** A text of plain characters is the lower-case form of the texts that have the
same letters. -/
theorem lower_eq_iff {s t : Text} (ht : ∀ d ∈ t, IsPlain d) :
    lower s = t ↔ List.Forall₂ SameLetter s t :=
  lowerBehind_eq_iff s [] t ht

/-! ### Ends of texts -/

/-- An end without a symbol lies behind every occurrence of it. -/
theorem suffix_append_cons_iff {α : Type} {ds xs ys : List α} {e : α} (he : e ∉ ds) :
    ds <:+ xs ++ e :: ys ↔ ds <:+ ys := by
  constructor
  · intro h
    rcases List.suffix_or_suffix_of_suffix h (List.suffix_append xs (e :: ys)) with hin | hout
    · rcases List.suffix_cons_iff.1 hin with rfl | hys
      · exact absurd List.mem_cons_self he
      · exact hys
    · exact absurd (hout.mem List.mem_cons_self) he
  · exact fun h => (h.trans (List.suffix_cons e ys)).trans (List.suffix_append xs _)

/-- So it is with the lower-case forms of the symbols by themselves. -/
theorem map_small_eq_iff (t : Text) :
    ∀ ds, (∀ d ∈ ds, IsPlain d) → (t.map small = ds ↔ List.Forall₂ SameLetter t ds) := by
  induction t with
  | nil =>
    intro ds _
    rw [List.map_nil, List.forall₂_nil_left_iff, eq_comm]
  | cons x t ih =>
    intro ds hds
    cases ds with
    | nil => simp
    | cons d ds =>
      rw [List.map_cons, List.cons.injEq, List.forall₂_cons, small_eq_iff (hds d List.mem_cons_self),
        ih ds fun e he => hds e (List.mem_cons_of_mem d he)]

/-- **Ends.** A text ends with plain characters in lower case exactly if it does so when each of its
symbols is taken by itself. -/
theorem suffix_lowerBehind_iff {ds : Text} (hds : ∀ d ∈ ds, IsPlain d) (before t : Text) :
    ds <:+ lowerBehind before t ↔ ds <:+ t.map small := by
  induction t generalizing before with
  | nil => rfl
  | cons x t ih =>
    rw [List.map_cons]
    rcases lowerBehind_cons before t x with hform | ⟨hx, front, e, hfar, hform⟩
    · have hall : lowerBehind before (x :: t) = ds ↔ small x :: t.map small = ds := by
        rw [lowerBehind_eq_iff (x :: t) before ds hds, ← map_small_eq_iff (x :: t) ds hds,
          List.map_cons]
      rw [hform] at hall ⊢
      rw [List.suffix_cons_iff, List.suffix_cons_iff, ih (x :: before), eq_comm, hall, eq_comm]
    · -- The end lies behind the symbol, in its own form and in the one that it has in the text.
      have he : e ∉ ds := fun h => by
        have := (hds e h).toNat_lt
        omega
      have hsmall : small x ∉ ds := fun h => small_ne hx (hds _ h) rfl
      have hbehind : ds <:+ [] ++ small x :: t.map small ↔ ds <:+ t.map small :=
        suffix_append_cons_iff hsmall
      rw [hform, suffix_append_cons_iff he, ih (x :: before), ← hbehind, List.nil_append]

end RenderTree.Text
