import RenderTree.Path.Written

/-!
# Short paths

There are finitely many texts up to a size. So a list of paths to which only paths with short texts
are added, and none that is in it already, cannot grow forever. This is what makes come to an end all
that goes from path to path.

* `Text.code` — a number for each text; `Text.code_injective`, `Text.code_lt`: different texts have
  different numbers, and short texts have small ones.
* `Path.spare` — how many numbers of short texts are left beside those of some paths.
* `Path.spare_cons_lt` — there are fewer of them with one more path.
-/

namespace RenderTree

/-! ### Numbers of texts -/

namespace Symbol

/-- Code points lie below the end of the Unicode range. -/
theorem toNat_lt (s : Symbol) : s.toNat < 0x110000 := by
  cases s with
  | char c =>
    have hvalid := c.valid
    simp only [toNat, Char.toNat, UInt32.isValidChar, Nat.isValidChar] at hvalid ⊢
    omega
  | surrogate u =>
    have hlt := u.isLt
    simp only [toNat, firstSurrogate]
    omega

/-- Every symbol takes at least one byte. -/
theorem size_pos (s : Symbol) : 0 < s.size := by
  cases s with
  | char c => exact c.utf8Size_pos
  | surrogate u => exact Nat.one_pos

end Symbol

namespace Text

/-- One more than the greatest digit in the number of a text. -/
def codeBase : Nat := 0x110001

/-- The number of a text. Its digits are those of the symbols, none of them zero. -/
def code : Text → Nat
  | [] => 0
  | s :: t => s.toNat + 1 + codeBase * code t

/-- The digit of a symbol lies below the base of the codes. -/
theorem digit_lt (s : Symbol) : s.toNat + 1 < codeBase :=
  Nat.add_lt_add_right s.toNat_lt 1

/-- The last digit of a code is that of the first symbol. -/
theorem code_cons_mod (s : Symbol) (t : Text) : code (s :: t) % codeBase = s.toNat + 1 := by
  rw [code, Nat.add_mul_mod_self_left, Nat.mod_eq_of_lt (digit_lt s)]

/-- Without its last digit a code is that of the other symbols. -/
theorem code_cons_div (s : Symbol) (t : Text) : code (s :: t) / codeBase = code t := by
  rw [code, Nat.add_mul_div_left _ _ (by decide), Nat.div_eq_of_lt (digit_lt s), Nat.zero_add]

/-- **Numbers of texts.** Different texts have different numbers. -/
theorem code_injective : ∀ {t u : Text}, code t = code u → t = u
  | [], [], _ => rfl
  | [], s :: u, h => by
    have hmod := code_cons_mod s u
    rw [← h, code, Nat.zero_mod] at hmod
    omega
  | s :: t, [], h => by
    have hmod := code_cons_mod s t
    rw [h, code, Nat.zero_mod] at hmod
    omega
  | s :: t, v :: u, h => by
    have hs : s.toNat + 1 = v.toNat + 1 := by rw [← code_cons_mod s t, h, code_cons_mod]
    have ht : code t = code u := by rw [← code_cons_div s t, h, code_cons_div]
    rw [Symbol.eq_of_toNat_eq (Nat.succ.inj hs), code_injective ht]

/-- How many numbers there are with so many digits. -/
def codeBound : Nat → Nat
  | 0 => 1
  | n + 1 => codeBase * codeBound n

/-- Longer texts may have greater codes. -/
theorem codeBound_mono {m n : Nat} (h : m ≤ n) : codeBound m ≤ codeBound n := by
  induction h with
  | refl => exact Nat.le_refl _
  | step _ ih => exact Nat.le_trans ih (Nat.le_mul_of_pos_left _ (Nat.succ_pos _))

/-- The code of a text lies below the bound for texts of its length. -/
theorem code_lt (t : Text) : code t < codeBound t.length := by
  induction t with
  | nil => exact Nat.one_pos
  | cons s t ih =>
    calc s.toNat + 1 + codeBase * code t
        < codeBase + codeBase * code t := Nat.add_lt_add_right (digit_lt s) _
      _ = codeBase * (code t + 1) := by rw [Nat.mul_add, Nat.mul_one, Nat.add_comm]
      _ ≤ codeBase * codeBound t.length := Nat.mul_le_mul_left _ ih

/-- A text has no more symbols than bytes. -/
theorem length_le_size (t : Text) : t.length ≤ t.size := by
  induction t with
  | nil => exact Nat.le_refl 0
  | cons s t ih =>
    have hs := s.size_pos
    rw [List.length_cons, size]
    omega

end Text

/-! ### Spare numbers -/

/-- A filter keeps fewer elements if it refuses one more that is there. -/
theorem length_filter_lt {α : Type} {p q : α → Bool} {xs : List α} {x : α} (hx : x ∈ xs)
    (hp : p x = true) (hq : q x = false) (h : ∀ y, q y = true → p y = true) :
    (xs.filter q).length < (xs.filter p).length := by
  induction xs with
  | nil => simp at hx
  | cons y ys ih =>
    have hle : (ys.filter q).length ≤ (ys.filter p).length := by
      simp only [← List.countP_eq_length_filter]
      exact List.countP_mono_left (fun z _ => h z)
    rcases List.mem_cons.1 hx with rfl | hx
    · simp [hp, hq]; omega
    · have := ih hx
      by_cases hy : q y
      · simp [hy, h y hy]; omega
      · by_cases hy' : p y <;> simp [hy, hy'] <;> omega

namespace Path

open RenderTree.Text

/-- How many of the numbers of texts up to a size are not those of the paths. -/
def spare (size : Nat) (ps : List Path) : Nat :=
  ((List.range (codeBound size)).filter fun n => n ∉ ps.map fun p => code p.text).length

/-- **Fewer are spare** with one more path that has a short text. -/
theorem spare_cons_lt {size : Nat} {p : Path} {ps : List Path} (hp : p.text.size ≤ size)
    (hnew : p ∉ ps) : spare size (p :: ps) < spare size ps := by
  have hlt : code p.text < codeBound size :=
    Nat.lt_of_lt_of_le (code_lt p.text) (codeBound_mono (Nat.le_trans (length_le_size _) hp))
  have hcode : code p.text ∉ ps.map fun p => code p.text := by
    intro hmem
    obtain ⟨q, hq, heq⟩ := List.mem_map.1 hmem
    exact hnew (text_injective (code_injective heq) ▸ hq)
  apply length_filter_lt (List.mem_range.2 hlt)
  · simpa using hcode
  · simp
  · simp

end Path

end RenderTree
