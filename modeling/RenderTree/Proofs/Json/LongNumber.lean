import RenderTree.Json.Reader
import Mathlib.Data.List.Infix
import Mathlib.Data.List.TakeWhile

/-!
# Numbers that are too long

Reading a JSON text goes from left to right: what is left behind a value is an end of the text. Where
a number is refused for its length, its digits therefore stand in the text, one after the other.

* `Json.HasRun` — a text has so many digits in a row.
* `Json.Within` — what reading comes to stays within the text that is read.
* `Json.within_all` — reading a value, items or members stays within their text.
* `Json.hasRun_of_parse` — a number that is too long is one of the text.
-/

namespace RenderTree.Json

variable {α β : Type} {cs ds rest : Text} {n : Nat}

/-- There are `n` digits in a row in a text, and those are too many for a whole number. -/
def HasRun (n : Nat) (cs : Text) : Prop :=
  maxDigits < n ∧ ∃ ds, ds <:+: cs ∧ ds.length = n ∧ ∀ c ∈ ds, isDigit c

/-- A run of digits at the end of a text is one in the text. -/
theorem HasRun.mono (h : HasRun n ds) (hs : ds <:+ cs) : HasRun n cs := by
  obtain ⟨hn, run, hrun, hlen, hdigits⟩ := h
  exact ⟨hn, run, hrun.trans hs.isInfix, hlen, hdigits⟩

/-- What reading a text comes to stays within the text: the rest is an end of it, and a number that
is too long stands in it. -/
def Within (cs : Text) : Except Stop (α × Text) → Prop
  | .ok r => r.2 <:+ cs
  | .error stop => ∀ n, stop.flaw = .longNumber n → HasRun n cs

/-- What stays within the end of a text stays within the text. -/
theorem Within.mono {r : Except Stop (α × Text)} (h : Within ds r) (hs : ds <:+ cs) :
    Within cs r := by
  cases r with
  | ok r => exact h.trans hs
  | error stop => exact fun n hn => (h n hn).mono hs

/-- Reading stays within the text if it goes on in what is left of it. -/
theorem Within.bind {r : Except Stop (α × Text)} {f : α × Text → Except Stop (β × Text)}
    (h : Within cs r) (hf : ∀ a rest, Within rest (f (a, rest))) :
    Within cs (r >>= f) := by
  cases r with
  | ok r => exact (hf r.1 r.2).mono h
  | error stop => exact h

/-- A flaw that is not the length of a number says nothing about digits. -/
theorem within_error {flaw : Flaw} {left : Nat} (h : ∀ n, flaw ≠ .longNumber n) :
    Within (α := α) cs (.error ⟨flaw, left⟩) :=
  fun n hn => absurd hn (h n)

/-- Blanks are skipped at the beginning. -/
theorem skip_suffix (cs : Text) : skip cs <:+ cs := by
  induction cs with
  | nil => exact List.suffix_rfl
  | cons c cs ih =>
    rw [skip]
    split
    · exact ih.trans (List.suffix_cons c cs)
    · exact List.suffix_rfl

/-- A string has no number in it, whatever its symbols are. -/
theorem within_stringRest (start : Nat) (done cs : Text) :
    Within cs (stringRest start done cs) := by
  fun_induction stringRest start done cs with
  | case2 done cs => exact List.suffix_cons _ _
  | case7 done a b c d e f g h x more u hu v hv hhigh hlow ih =>
    exact ih.mono (by simp [List.suffix_cons_iff])
  | case8 done a b c d e f g h x more u hu behind v hv hhigh hlow ih =>
    exact ih.mono (by simp [List.suffix_cons_iff])
  | case9 done a b c d e f g h x more u hu behind hhigh ih =>
    exact ih.mono (by simp [List.suffix_cons_iff])
  | case10 done a b c d y more u hpair hu ih => exact ih.mono (by simp [List.suffix_cons_iff])
  | case12 done c rest hfour hu x hx ih => exact ih.mono (by simp [List.suffix_cons_iff])
  | case16 done s cs hquote hslash hs ih => exact ih.mono (List.suffix_cons s cs)
  | _ => exact within_error (by simp)

/-! ### Numbers -/

/-- The digits of a whole part stand at the beginning of the text, and the rest behind them. -/
theorem wholePart?_eq_some (h : wholePart? cs = some (ds, rest)) :
    cs = ds ++ rest ∧ ∀ c ∈ ds, isDigit c := by
  unfold wholePart? at h
  split at h
  -- A leading zero stands alone; all other digits are read as one run.
  next cs =>
    rw [Option.some.injEq, Prod.mk.injEq] at h
    obtain ⟨rfl, rfl⟩ := h
    refine ⟨rfl, ?_⟩
    intro c hc
    rw [List.mem_singleton.1 hc]
    rfl
  next c cs _ =>
    split at h
    next hc =>
      rw [Option.some.injEq, Prod.mk.injEq] at h
      obtain ⟨rfl, rfl⟩ := h
      refine ⟨by rw [List.cons_append, List.takeWhile_append_dropWhile], ?_⟩
      intro x hx
      rcases List.mem_cons.1 hx with rfl | hx
      · exact hc
      · exact List.mem_takeWhile_imp hx
    next => cases h
  next => cases h

/-- A fraction is taken off the beginning. -/
theorem fraction_suffix (cs : Text) : (fraction cs).2 <:+ cs := by
  unfold fraction
  split
  next d cs =>
    split
    · exact (List.dropWhile_suffix _).trans (by simp [List.suffix_cons_iff])
    · exact List.suffix_rfl
  next => exact List.suffix_rfl

/-- An exponent is taken off the beginning. -/
theorem exponent?_suffix (cs : Text) : (exponent? cs).2 <:+ cs := by
  unfold exponent?
  split
  next e rest =>
    split
    · split
      next negative digits hsign =>
        -- A sign may stand between the letter and the digits.
        have hdigits : digits <:+ rest := by
          split at hsign <;> cases hsign
          · exact List.suffix_cons _ _
          · exact List.suffix_cons _ _
          · exact List.suffix_rfl
        split
        · exact List.suffix_rfl
        · exact (List.dropWhile_suffix _).trans (hdigits.trans (List.suffix_cons e rest))
    · exact List.suffix_rfl
  next => exact List.suffix_rfl

/-- What is read of a number without its sign stays within the text. -/
theorem within_magnitude (negative : Bool) (start : Nat) (cs : Text) :
    Within cs (magnitude negative start cs) := by
  unfold magnitude
  split
  next => exact within_error (by simp)
  next whole rest h =>
    obtain ⟨rfl, hdigits⟩ := wholePart?_eq_some h
    have hrest : (exponent? (fraction rest).2).2 <:+ whole ++ rest :=
      (exponent?_suffix _).trans ((fraction_suffix rest).trans (List.suffix_append whole rest))
    simp only
    split
    next =>
      split
      next hlong =>
        intro n hn
        obtain rfl : whole.length = n := by simpa using hn
        exact ⟨hlong, whole, (List.prefix_append whole rest).isInfix, rfl, hdigits⟩
      next => exact hrest
    next => exact hrest

/-- What is read of a number stays within the text. -/
theorem within_number (cs : Text) : Within cs (number cs) := by
  unfold number
  split
  next rest => exact (within_magnitude true _ rest).mono (List.suffix_cons _ _)
  next => exact within_magnitude false _ cs

/-! ### Values -/

/-- What is read of a word stays within the text. -/
theorem within_named {r : Json × Text} (h : named? cs = some r) : Within cs (.ok r) := by
  unfold named? at h
  obtain ⟨name, -, rfl⟩ := Option.map_eq_some_iff.1 h
  exact List.drop_suffix _ cs

/-- What follows a symbol and blanks is an end of the text. -/
theorem skip_suffix_cons (c : Symbol) (cs : Text) : skip cs <:+ c :: cs :=
  (skip_suffix cs).trans (List.suffix_cons c cs)

/-- What follows a symbol behind blanks is an end of the text. -/
theorem suffix_of_skip {c : Symbol} (h : skip cs = c :: rest) : rest <:+ cs := by
  have hskip := skip_suffix cs
  rw [h] at hskip
  exact (List.suffix_cons c rest).trans hskip

section Step

variable {fuel : Nat}

/-- A value is read within the text if what is in it is. -/
theorem within_value_succ (hitems : ∀ done cs, Within cs (items fuel done cs))
    (hmembers : ∀ done cs, Within cs (members fuel done cs)) (cs : Text) :
    Within cs (value (fuel + 1) cs) := by
  unfold value
  split
  next => exact within_error (by simp)
  -- A string, an array, an object, a name or a number: each reader leaves an end of its input.
  next rest =>
    refine ((within_stringRest _ [] rest).mono (List.suffix_cons _ rest)).bind fun s rest => ?_
    exact List.suffix_rfl
  next rest =>
    split
    next rest' h => exact (suffix_of_skip h).trans (List.suffix_cons _ rest)
    next => exact (hitems [] _).mono (skip_suffix_cons _ rest)
  next rest =>
    split
    next rest' h => exact (suffix_of_skip h).trans (List.suffix_cons _ rest)
    next => exact (hmembers [] _).mono (skip_suffix_cons _ rest)
  next =>
    split
    next r h => exact within_named h
    next => exact within_number cs

/-- Items are read within the text if values and further items are. -/
theorem within_items_succ (hvalue : ∀ cs, Within cs (value fuel cs))
    (hitems : ∀ done cs, Within cs (items fuel done cs)) (done : List Json) (cs : Text) :
    Within cs (items (fuel + 1) done cs) := by
  unfold items
  refine (hvalue cs).bind fun v rest => ?_
  simp only
  split
  next rest' h => exact (hitems _ _).mono ((skip_suffix rest').trans (suffix_of_skip h))
  next rest' h => exact suffix_of_skip h
  next => exact within_error (by simp)

/-- Members are read within the text if values and further members are. -/
theorem within_members_succ (hvalue : ∀ cs, Within cs (value fuel cs))
    (hmembers : ∀ done cs, Within cs (members fuel done cs)) (done : List (Text × Json))
    (cs : Text) : Within cs (members (fuel + 1) done cs) := by
  unfold members
  split
  next rest =>
    refine ((within_stringRest _ [] rest).mono (List.suffix_cons _ rest)).bind fun k rest => ?_
    simp only
    split
    next rest' h =>
      refine ((hvalue _).mono ((skip_suffix rest').trans (suffix_of_skip h))).bind fun v rest => ?_
      simp only
      split
      next rest' h => exact (hmembers _ _).mono ((skip_suffix rest').trans (suffix_of_skip h))
      next rest' h => exact suffix_of_skip h
      next => exact within_error (by simp)
    next => exact within_error (by simp)
  next => exact within_error (by simp)

end Step

/-- **Values.** Whatever is read in so many steps stays within its text, be it a value, the items of
an array or the members of an object. -/
theorem within_all (fuel : Nat) :
    (∀ cs, Within cs (value fuel cs)) ∧ (∀ done cs, Within cs (items fuel done cs)) ∧
      ∀ done cs, Within cs (members fuel done cs) := by
  induction fuel with
  | zero =>
    refine ⟨fun cs => ?_, fun done cs => ?_, fun done cs => ?_⟩
    · rw [value]
      exact within_error (by simp)
    · rw [items]
      exact within_error (by simp)
    · rw [members]
      exact within_error (by simp)
  | succ fuel ih =>
    obtain ⟨hvalue, hitems, hmembers⟩ := ih
    exact ⟨within_value_succ hitems hmembers, within_items_succ hvalue hitems,
      within_members_succ hvalue hmembers⟩

/-- A document in which a number is too long has a run of that many digits. -/
theorem hasRun_of_document {stop : Stop} (h : document cs = .error stop)
    (hn : stop.flaw = .longNumber n) : HasRun n cs := by
  unfold document at h
  split at h
  · cases h
    cases hn
  · have hvalue := ((within_all (2 * cs.length + 2)).1 (skip cs)).mono (skip_suffix cs)
    cases hr : value (2 * cs.length + 2) (skip cs) with
    | error stop' =>
      rw [hr] at h hvalue
      cases h
      exact hvalue n hn
    | ok r =>
      -- All that can still be wrong is what follows the value.
      simp only [hr, bind, Except.bind] at h
      split at h
      · cases h
      · cases h
        cases hn

/-- **Documents.** A document is refused for the length of a number only if there are too many digits
in a row in it. -/
theorem hasRun_of_parse {text : Text} {f : Fault} (h : parse text = .error f)
    (hn : f.flaw = .longNumber n) : HasRun n text := by
  unfold parse at h
  cases hd : document text with
  | ok v => simp [hd, Except.mapError] at h
  | error stop =>
    rw [hd] at h
    cases h
    exact hasRun_of_document hd hn

end RenderTree.Json
