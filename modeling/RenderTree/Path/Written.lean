import RenderTree.Path.Basic

/-!
# Paths as they are written

The text of a path denotes the path, so that paths with one text are equal. To write something
behind the text of a path is to go on with its last segment, and to write a slash and a segment
behind it is to look that segment up from it.

* `Text.pieces_append` — the pieces of a text are those on both sides of a separator.
* `Path.ofText_text`, `Path.text_injective` — the text of a path denotes the path.
* `Path.text_append` — more text behind the last segment.
* `Path.text_join` — a segment behind the last one.
* `Path.exists_pieces_text` — the pieces of a path's text.
-/

namespace RenderTree

open RenderTree.Text

/-! ### Pieces -/

section Pieces

variable {α : Type} [DecidableEq α]

/-- There is at least one piece. -/
theorem Text.pieces_ne_nil (c : α) (cs : List α) : pieces c cs ≠ [] := by
  cases cs with
  | nil => simp [pieces]
  | cons x xs =>
    rw [pieces]
    split
    · split <;> simp
    · simp

/-- In front of a separator at the beginning is an empty piece. -/
theorem Text.pieces_cons_self (c : α) (cs : List α) :
    pieces c (c :: cs) = [] :: pieces c cs := by
  have hne := pieces_ne_nil c cs
  cases h : pieces c cs with
  | nil => exact absurd h hne
  | cons p ps => simp [pieces, h]

/-- What the separator does not occur in is one piece. -/
theorem Text.pieces_of_notMem {c : α} {cs : List α} (h : c ∉ cs) : pieces c cs = [cs] := by
  induction cs with
  | nil => rfl
  | cons x xs ih =>
    rw [List.mem_cons, not_or] at h
    simp [pieces, ih h.2, Ne.symm h.1]

/-- **Pieces.** The pieces of a text are those in front of a separator and those behind it. -/
theorem Text.pieces_append (c : α) (xs ys : List α) :
    pieces c (xs ++ c :: ys) = pieces c xs ++ pieces c ys := by
  induction xs with
  | nil => exact pieces_cons_self c ys
  | cons x xs ih =>
    have hne := pieces_ne_nil c xs
    cases h : pieces c xs with
    | nil => exact absurd h hne
    | cons p ps =>
      rw [h] at ih
      rw [List.cons_append, pieces, ih, pieces, h]
      simp only [List.cons_append]
      split <;> rfl

end Pieces

/-- A last part stands behind one more separator. -/
theorem Text.intercalate_concat {α : Type} (sep : List α) {parts : List (List α)} (h : parts ≠ [])
    (last : List α) :
    sep.intercalate (parts ++ [last]) = sep.intercalate parts ++ sep ++ last := by
  induction parts with
  | nil => exact absurd rfl h
  | cons p ps ih =>
    by_cases hps : ps = []
    · subst hps
      simp
    · rw [List.cons_append, List.intercalate_cons_of_ne_nil (by simp), ih hps,
        List.intercalate_cons_of_ne_nil hps]
      simp

/-! ### Segments -/

namespace Path

variable {p q : Path} {front : List Text} {n e s : Text}

/-- A slash as a text. -/
theorem slash_eq : (ofString "/") = [Symbol.char '/'] := rfl

/-- The anchor of a written path is that of its text. -/
theorem anchor_ofText (t : Text) : (ofText t).anchor = anchorOf t := rfl

/-- The segments of a written path are those of its text. -/
theorem segments_ofText (t : Text) : (ofText t).segments = segmentsOf t := rfl

/-- The empty text has no segments. -/
theorem segmentsOf_nil : segmentsOf [] = [] := by decide

/-- The segments on both sides of a slash are those of the whole text. -/
theorem segmentsOf_append (xs ys : Text) :
    segmentsOf (xs ++ Symbol.char '/' :: ys) = segmentsOf xs ++ segmentsOf ys := by
  rw [segmentsOf, pieces_append, List.filter_append]
  rfl

/-- A segment is the only one of its own. -/
theorem segmentsOf_segment (hs : IsSegment s) : segmentsOf s = [s] := by
  rw [segmentsOf, pieces_of_notMem hs.2.2]
  simp [hs]

/-- Segments that are joined by slashes can be read back. -/
theorem segmentsOf_intercalate (ss : List Text) (h : ∀ s ∈ ss, IsSegment s) :
    segmentsOf (List.intercalate "/" ss) = ss := by
  induction ss with
  | nil => exact segmentsOf_nil
  | cons s ss ih =>
    have hs := segmentsOf_segment (h s List.mem_cons_self)
    cases ss with
    | nil => rw [List.intercalate_singleton, hs]
    | cons t ts =>
      have hrest := ih fun u hu => h u (List.mem_cons_of_mem s hu)
      rw [List.intercalate_cons_cons, List.append_assoc, slash_eq, List.singleton_append,
        segmentsOf_append, hs, ← slash_eq, hrest, List.singleton_append]

/-- A segment does not begin with a slash. -/
theorem head?_of_isSegment (hs : IsSegment s) : s.head? ≠ some (Symbol.char '/') :=
  fun h => hs.2.2 (List.mem_of_head? h)

/-- No text of segments begins with a slash. -/
theorem head?_intercalate (ss : List Text) (h : ∀ s ∈ ss, IsSegment s) :
    (List.intercalate (ofString "/") ss).head? ≠ some (Symbol.char '/') := by
  cases ss with
  | nil => simp
  | cons s ss =>
    have hs := h s List.mem_cons_self
    cases ss with
    | nil =>
      rw [List.intercalate_singleton]
      exact head?_of_isSegment hs
    | cons t ts =>
      have hhead : (s ++ (ofString "/" ++ List.intercalate (ofString "/") (t :: ts))).head? =
          s.head? := by
        rw [List.head?_append, List.head?_eq_some_head hs.1, Option.some_or]
      rw [List.intercalate_cons_cons, List.append_assoc, hhead]
      exact head?_of_isSegment hs

/-- An anchor is read off the text, whatever is written behind it. -/
theorem anchorOf_append (a : Anchor) {t : Text} (h : t.head? ≠ some (Symbol.char '/')) :
    anchorOf (a.text ++ t) = a := by
  have ht : t.takeWhile (· == Symbol.char '/') = [] := by
    cases t with
    | nil => rfl
    | cons x t =>
      rw [List.takeWhile_cons_of_neg]
      simpa using h
  cases a <;> simp [anchorOf, Anchor.text, ofString, ht]

/-- The slashes of an anchor are no segments. -/
theorem segmentsOf_anchor (a : Anchor) (t : Text) :
    segmentsOf (a.text ++ t) = segmentsOf t := by
  have hslash : ∀ xs, segmentsOf (Symbol.char '/' :: xs) = segmentsOf xs := by
    intro xs
    simpa [segmentsOf_nil] using segmentsOf_append [] xs
  cases a with
  | relative => rfl
  | root => exact hslash t
  | doubleRoot => exact (hslash _).trans (hslash t)

/-- Paths are the same if their anchors and segments are. -/
theorem ext (ha : p.anchor = q.anchor) (hs : p.segments = q.segments) : p = q := by
  obtain ⟨a, ss, hp⟩ := p
  obtain ⟨b, ts, hq⟩ := q
  cases ha
  cases hs
  rfl

/-- The text of a path but for the empty one is its anchor with the segments behind it. -/
theorem text_eq (h : ¬ (p.anchor = .relative ∧ p.segments = [])) :
    p.text = p.anchor.text ++ List.intercalate "/" p.segments :=
  if_neg h

/-- **Reading back.** The text of a path denotes the path. -/
theorem ofText_text (p : Path) : ofText p.text = p := by
  by_cases h : p.anchor = .relative ∧ p.segments = []
  · rw [text, if_pos h]
    apply ext
    · exact h.1.symm
    · exact h.2.symm
  · rw [text_eq h]
    apply ext
    · rw [anchor_ofText, anchorOf_append p.anchor (head?_intercalate p.segments p.proper)]
    · rw [segments_ofText, segmentsOf_anchor, segmentsOf_intercalate p.segments p.proper]

/-- Paths with the same text are the same. -/
theorem text_injective (h : p.text = q.text) : p = q := by
  rw [← ofText_text p, h, ofText_text]

/-- The pieces of a text of segments are the segments. -/
theorem pieces_intercalate {ss : List Text} (hne : ss ≠ []) (h : ∀ s ∈ ss, IsSegment s) :
    pieces (Symbol.char '/') (List.intercalate "/" ss) = ss := by
  induction ss with
  | nil => exact absurd rfl hne
  | cons s ss ih =>
    have hs := pieces_of_notMem (h s List.mem_cons_self).2.2
    cases ss with
    | nil => rw [List.intercalate_singleton, hs]
    | cons t ts =>
      have hrest := ih (by simp) fun u hu => h u (List.mem_cons_of_mem s hu)
      rw [List.intercalate_cons_cons, List.append_assoc, slash_eq, List.singleton_append,
        pieces_append, hs, ← slash_eq, hrest, List.singleton_append]

/-- **Pieces of a path.** The pieces of a path's text are its segments, behind pieces that are empty
or single dots. -/
theorem exists_pieces_text (p : Path) :
    ∃ front, pieces (Symbol.char '/') p.text = front ++ p.segments ∧
      ∀ s ∈ front, s = [] ∨ s = ofString "." := by
  by_cases hsegments : p.segments = []
  · refine ⟨pieces (Symbol.char '/') p.text, by rw [hsegments, List.append_nil], ?_⟩
    cases ha : p.anchor <;> rw [text, ha, hsegments] <;> decide
  · have hpieces := pieces_intercalate hsegments p.proper
    rw [text_eq fun hp => hsegments hp.2]
    cases p.anchor with
    | relative => exact ⟨[], hpieces, by simp⟩
    | root =>
      refine ⟨[[]], ?_, by simp⟩
      exact (pieces_cons_self _ _).trans (congrArg _ hpieces)
    | doubleRoot =>
      refine ⟨[[], []], ?_, by simp⟩
      refine (pieces_cons_self _ _).trans (congrArg _ ?_)
      exact (pieces_cons_self _ _).trans (congrArg _ hpieces)

/-- No path is written as the empty text. -/
theorem text_ne_nil (p : Path) : p.text ≠ [] := by
  intro h
  obtain ⟨front, hfront, -⟩ := p.exists_pieces_text
  have hp := ofText_text p
  rw [h] at hp
  have hdot : p.text = ofString "." := by
    rw [← hp]
    decide
  rw [h] at hdot
  exact absurd hdot (by decide)

/-! ### Writing more behind a path -/

/-- How a path with segments is written. -/
theorem text_concat (hp : p.segments = front ++ [n]) :
    p.text = p.anchor.text ++ List.intercalate "/" (front ++ [n]) := by
  rw [text_eq, hp]
  simp [hp]

/-- What is written behind a path is written behind its last segment. -/
theorem intercalate_concat_append (front : List Text) (n e : Text) :
    List.intercalate (ofString "/") (front ++ [n ++ e]) =
      List.intercalate (ofString "/") (front ++ [n]) ++ e := by
  by_cases hfront : front = []
  · simp [hfront]
  · simp only [intercalate_concat _ hfront, List.append_assoc]

/-- More text behind a path goes on with its last segment. -/
theorem text_append (hp : p.segments = front ++ [n]) (ha : q.anchor = p.anchor)
    (hq : q.segments = front ++ [n ++ e]) : q.text = p.text ++ e := by
  rw [text_concat hp, text_concat hq, ha, intercalate_concat_append, List.append_assoc]

/-- A segment alone is a relative path with that segment. -/
theorem ofText_segment (hs : IsSegment s) :
    (ofText s).anchor = .relative ∧ (ofText s).segments = [s] :=
  ⟨anchorOf_append .relative (head?_of_isSegment hs), segmentsOf_segment hs⟩

/-- What is looked up by one segment. -/
theorem join_segment (hs : IsSegment s) :
    (p.join s).anchor = p.anchor ∧ (p.join s).segments = p.segments ++ [s] := by
  obtain ⟨ha, hsegments⟩ := ofText_segment hs
  rw [join]
  simp [ha, hsegments]

/-- A slash and a segment behind a path stand for the segment, looked up from the path. -/
theorem text_join (hp : p.segments ≠ []) (hs : IsSegment s) :
    (p.join s).text = p.text ++ "/" ++ s := by
  obtain ⟨ha, hsegments⟩ := join_segment (p := p) hs
  have hne : ¬ (p.anchor = .relative ∧ p.segments = []) := fun h => hp h.2
  rw [text_concat hsegments, ha, text_eq hne, intercalate_concat _ hp, List.append_assoc,
    List.append_assoc, List.append_assoc]

/-- To join a segment is to go to the child of that name. -/
theorem join_eq_child (hs : IsSegment s) : p.join s = p.child s hs :=
  ext (join_segment hs).1 (join_segment hs).2

/-- Behind a path without segments there is no slash to write. -/
theorem text_join_of_nil (hp : p.segments = []) (hs : IsSegment s) :
    (p.join s).text = p.anchor.text ++ s := by
  obtain ⟨ha, hsegments⟩ := join_segment (p := p) hs
  rw [hp] at hsegments
  rw [text_concat hsegments, ha, List.nil_append, List.intercalate_singleton]

/-- **A longer path** is written by more text behind a path, unless that is the empty one. -/
theorem exists_text_child (hs : IsSegment s) : p = .here ∨ ∃ t, (p.child s hs).text = p.text ++ t := by
  by_cases hsegments : p.segments = []
  · by_cases ha : p.anchor = .relative
    · exact .inl (ext ha hsegments)
    · right
      refine ⟨s, ?_⟩
      rw [← join_eq_child hs, text_join_of_nil hsegments hs, text_eq fun hp => ha hp.1, hsegments]
      simp
  · right
    refine ⟨ofString "/" ++ s, ?_⟩
    rw [← join_eq_child hs, text_join hsegments hs, List.append_assoc]

end Path

end RenderTree
