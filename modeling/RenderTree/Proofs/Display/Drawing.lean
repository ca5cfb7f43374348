import RenderTree.Proofs.Display.Position
import RenderTree.Report

/-!
# Drawn trees, line by line

The lines of a drawn tree are made as the tree is gone through, from leads that grow on the way down.
Line by line they can be told from the positions of the labels alone.

* `Display.trail` — which of those on the way to a position are the last of their siblings.
* `Display.groups` — what is drawn in front of a label, from its trail.
* `Display.rows`, `lines_eq` — the lines are the labels, drawn by their trails.
* `rows_eq` — the trails are those of the positions.
* `Display.DrawnAt` — what the line of a position looks like.
* `Display.OneLine`, `linesOf_text` — a text with no other line ends has the lines that it is made of.
-/

namespace RenderTree.Display

/-! ### Trails -/

/-- For each of those on the way to a position, the root left aside, whether it is the last of its
siblings. -/
def trail (d : Display) : List Nat → List Bool
  | [] => []
  | i :: rest => d.children[i + 1]?.isNone :: d.children[i]?.elim [] (fun e => e.trail rest)

/-- The label at a position, or nothing if there is none. -/
def labelAt (d : Display) (pos : List Nat) : Text :=
  (d.at? pos).elim [] label

/-- What is drawn in front of a label: a connector from the nearest label above and, in front of
that, what goes on from the connectors further up. -/
def groups : List Bool → List Text
  | [] => []
  | last :: rest => (if rest.isEmpty then connector last else continuation last) :: groups rest

/-- What is drawn in front of the labels below those with a trail is continued from it. -/
theorem groups_append (trail : List Bool) {rest : List Bool} (h : rest ≠ []) :
    groups (trail ++ rest) = trail.map continuation ++ groups rest := by
  induction trail with
  | nil => rfl
  | cons last trail ih =>
    have hne : (trail ++ rest).isEmpty = false := by simp [h]
    rw [List.cons_append, groups, hne, ih]
    rfl

/-- A label with its trail. -/
structure Row where
  trail : List Bool
  label : Text

/-- The line of a label. -/
def Row.line (r : Row) : Text :=
  List.flatten (groups r.trail) ++ r.label

mutual
/-- The labels of a tree, each before those below it, with their trails; that of the root is
`trail`. -/
def rows (trail : List Bool) : Display → List Row
  | leaf l => [⟨trail, l⟩]
  | branch l ds => ⟨trail, l⟩ :: siblingRows trail ds

/-- The labels of siblings and of what is below them, with their trails; that of their parent is
`trail`. -/
def siblingRows (trail : List Bool) : List Display → List Row
  | [] => []
  | d :: ds => rows (trail ++ [ds.isEmpty]) d ++ siblingRows trail ds
end

/-- The first row of a tree is that of its root. -/
theorem rows_eq_cons (trail : List Bool) (d : Display) :
    d.rows trail = ⟨trail, d.label⟩ :: siblingRows trail d.children := by
  cases d <;> rfl

/-! ### The lines of a tree -/

mutual
/-- The lines below a label are the rows below it, drawn. -/
theorem linesBelow_eq (trail : List Bool) : (d : Display) →
    linesBelow (trail.map continuation).flatten d =
      (siblingRows trail d.children).map Row.line
  | leaf _ => rfl
  | branch _ ds => siblingLines_eq trail ds

/-- The lines of siblings are their rows, drawn. -/
theorem siblingLines_eq (trail : List Bool) : (ds : List Display) →
    siblingLines (trail.map continuation).flatten ds =
      (siblingRows trail ds).map Row.line
  | [] => rfl
  | d :: ds => by
    -- The label's own group is the connector; below it, its continuation takes that place.
    have hline : (trail.map continuation).flatten ++ connector ds.isEmpty ++ d.label =
        Row.line ⟨trail ++ [ds.isEmpty], d.label⟩ := by
      rw [Row.line, groups_append trail (by simp)]
      simp [groups]
    have hlead : (trail.map continuation).flatten ++ continuation ds.isEmpty =
        List.flatten ((trail ++ [ds.isEmpty]).map continuation) := by
      simp
    rw [siblingLines, siblingRows, rows_eq_cons, hline, hlead,
      linesBelow_eq (trail ++ [ds.isEmpty]) d, siblingLines_eq trail ds, List.map_append,
      List.map_cons]
end

/-- **Lines.** The lines of a tree are its labels, drawn by their trails. -/
theorem lines_eq (d : Display) : d.lines = (d.rows []).map Row.line := by
  have hbelow : linesBelow [] d = _ := linesBelow_eq [] d
  have hroot : d.label = Row.line ⟨[], d.label⟩ := by simp [Row.line, groups]
  rw [lines, rows_eq_cons, hbelow, List.map_cons, ← hroot]

/-! ### Rows and positions -/

/-- The row of a position, below a label with the trail `above`. -/
def rowAt (d : Display) (above : List Bool) (pos : List Nat) : Row :=
  ⟨above ++ d.trail pos, d.labelAt pos⟩

/-- The row of a position below a child is that of the child's position below its row. -/
theorem rowAt_cons {d e : Display} {i : Nat} (he : d.children[i]? = some e) (above : List Bool)
    (rest : List Nat) :
    d.rowAt above (i :: rest) = e.rowAt (above ++ [d.children[i + 1]?.isNone]) rest := by
  simp [rowAt, trail, labelAt, at?_cons, he]

mutual
/-- **Rows.** The rows of a tree are those of its positions. -/
theorem rows_eq (above : List Bool) : (d : Display) →
    d.rows above = d.positions.map (d.rowAt above)
  | leaf l => by simp [rows, positions, rowAt, trail, labelAt, label]
  | branch l ds => by
    have hroot : (⟨above, l⟩ : Row) = (branch l ds).rowAt above [] := by
      simp [rowAt, trail, labelAt, label]
    rw [rows, positions, List.map_cons, ← hroot]
    exact congrArg _ (siblingRows_eq above [] ds l)

/-- The rows of siblings are those of their positions; `pre` are the siblings in front of them. -/
theorem siblingRows_eq (above : List Bool) (pre : List Display) : (ds : List Display) →
    (l : Text) → siblingRows above ds =
      (positionsFrom pre.length ds).map ((branch l (pre ++ ds)).rowAt above)
  | [], _ => rfl
  | d :: ds, l => by
    -- Among its siblings `d` comes behind `pre`, and it is the last of them if nothing follows.
    have hchild : (branch l (pre ++ d :: ds)).children[pre.length]? = some d := by
      simp [children]
    have hlast : (branch l (pre ++ d :: ds)).children[pre.length + 1]?.isNone = ds.isEmpty := by
      cases ds <;> simp [children]
    have hothers := siblingRows_eq above (pre ++ [d]) ds l
    rw [List.length_append, List.length_singleton, List.append_assoc, List.singleton_append]
      at hothers
    rw [siblingRows, positionsFrom, List.map_append, hothers, rows_eq (above ++ [ds.isEmpty]) d,
      List.map_map]
    congr 1
    apply List.map_congr_left
    intro rest _
    rw [Function.comp_apply, rowAt_cons hchild, hlast]
end

/-! ### What a line looks like -/

/-- The trail of a position goes on from that of the label there. -/
theorem trail_append {d e : Display} {pos : List Nat} (he : d.at? pos = some e) (rest : List Nat) :
    d.trail (pos ++ rest) = d.trail pos ++ e.trail rest := by
  induction pos generalizing d with
  | nil =>
    rw [at?_nil, Option.some.injEq] at he
    rw [he]
    rfl
  | cons i pos ih =>
    rw [at?_cons] at he
    obtain ⟨f, hf, he⟩ := Option.bind_eq_some_iff.1 he
    simp [trail, hf, ih he]

/-- The trail to a position has an item for every step. -/
theorem length_trail {d e : Display} {pos : List Nat} (he : d.at? pos = some e) :
    (d.trail pos).length = pos.length := by
  induction pos generalizing d with
  | nil => rfl
  | cons i pos ih =>
    rw [at?_cons] at he
    obtain ⟨f, hf, he⟩ := Option.bind_eq_some_iff.1 he
    simp [trail, hf, ih he]

/-- A trail is drawn in as many groups as it has items. -/
theorem length_groups (trail : List Bool) : (groups trail).length = trail.length := by
  induction trail with
  | nil => rfl
  | cons last rest ih => rw [groups, List.length_cons, List.length_cons, ih]

/-- A group is a connector or what continues one. -/
theorem eq_of_mem_groups {trail : List Bool} {g : Text} (hg : g ∈ groups trail) :
    ∃ last, g = connector last ∨ g = continuation last := by
  induction trail with
  | nil => cases hg
  | cons last rest ih =>
    rw [groups, List.mem_cons] at hg
    rcases hg with rfl | hg
    · cases rest.isEmpty
      · exact ⟨last, .inr rfl⟩
      · exact ⟨last, .inl rfl⟩
    · exact ih hg

/-- Every group has four characters. -/
theorem length_of_mem_groups {trail : List Bool} {g : Text} (hg : g ∈ groups trail) :
    g.length = 4 := by
  obtain ⟨last, rfl | rfl⟩ := eq_of_mem_groups hg <;> cases last <;> decide

/-- The line of the position `pos` of a tree: as many groups as the position is long, each of four
characters, and the label. The group for the label at `above ++ [i]`, at `pos` or above it, tells
whether this has a later sibling, at `above ++ [i + 1]`: the last group by the connector, those in
front of it by a bar. -/
def DrawnAt (d : Display) (pos : List Nat) (line : Text) : Prop :=
  ∃ (groups : List Text) (e : Display), d.at? pos = some e ∧ line = List.flatten groups ++ e.label ∧
    groups.length = pos.length ∧ (∀ g ∈ groups, g.length = 4) ∧
    ∀ above i below, pos = above ++ i :: below →
      groups[above.length]? = some (
        if below = [] then if (d.at? (above ++ [i + 1])).isSome then "├── " else "└── "
        else if (d.at? (above ++ [i + 1])).isSome then "│   " else "    " : Text)

/-- The group in a line for a label at the position or above it. -/
theorem getElem?_groups {d e : Display} {above below : List Nat} {i : Nat}
    (he : d.at? (above ++ i :: below) = some e) :
    (groups (d.trail (above ++ i :: below)))[above.length]? = some (
      if below = [] then if (d.at? (above ++ [i + 1])).isSome then "├── " else "└── "
      else if (d.at? (above ++ [i + 1])).isSome then "│   " else "    " : Text) := by
  rw [at?_append] at he
  obtain ⟨p, hp, hbelow⟩ := Option.bind_eq_some_iff.1 he
  rw [at?_cons] at hbelow
  obtain ⟨c, hc, hbelow⟩ := Option.bind_eq_some_iff.1 hbelow
  -- The parent of the label is at `above`, and tells whether there is a later sibling.
  have hlater : (d.at? (above ++ [i + 1])).isSome = !p.children[i + 1]?.isNone := by
    rw [at?_append, hp, Option.bind_some, at?_cons]
    cases p.children[i + 1]? <;> rfl
  have htrail : d.trail (above ++ i :: below) =
      d.trail above ++ p.children[i + 1]?.isNone :: c.trail below := by
    rw [trail_append hp, trail, hc]
    rfl
  have hempty : (c.trail below).isEmpty = below.isEmpty := by
    rw [Bool.eq_iff_iff, List.isEmpty_iff_length_eq_zero, List.isEmpty_iff_length_eq_zero,
      length_trail hbelow]
  have habove : ((d.trail above).map continuation).length = above.length := by
    rw [List.length_map, length_trail hp]
  rw [htrail, groups_append _ (by simp), hlater, ← habove,
    List.getElem?_append_right (Nat.le_refl _), Nat.sub_self, groups, hempty]
  cases below with
  | nil => cases p.children[i + 1]?.isNone <;> simp [connector]
  | cons => cases p.children[i + 1]?.isNone <;> simp [continuation]

/-- **One line.** The row of a position, drawn, looks as it should. -/
theorem drawnAt_of_mem {d : Display} {pos : List Nat} (hpos : pos ∈ d.positions) :
    d.DrawnAt pos (d.rowAt [] pos).line := by
  obtain ⟨e, he⟩ := Option.isSome_iff_exists.1 ((mem_positions_iff d).1 hpos)
  -- The groups are those drawn from the trail of the position.
  refine ⟨groups (d.trail pos), e, he, ?_, ?_, fun g hg => length_of_mem_groups hg, ?_⟩
  · simp [Row.line, rowAt, labelAt, he]
  · rw [length_groups, length_trail he]
  · rintro above i below rfl
    exact getElem?_groups he

/-! ### The lines of a text -/

/-- The lines of a text: what stands between its line ends. -/
def linesOf (text : Text) : List Text :=
  text.splitOn (Symbol.char '\n')

/-- No label of the tree contains a line end. -/
def OneLine (d : Display) : Prop :=
  ∀ pos ∈ d.positions, Symbol.char '\n' ∉ (d.labelAt pos)

instance (d : Display) : Decidable d.OneLine :=
  inferInstanceAs (Decidable (∀ pos ∈ d.positions, Symbol.char '\n' ∉ (d.labelAt pos)))

/-- No group ends a line. -/
theorem not_mem_groups {trail : List Bool} {g : Text} (hg : g ∈ groups trail) :
    Symbol.char '\n' ∉ g := by
  obtain ⟨last, rfl | rfl⟩ := eq_of_mem_groups hg <;> cases last <;> decide

/-- The line of a label without a line end has none. -/
theorem Row.not_mem_line {r : Row} (hr : Symbol.char '\n' ∉ r.label) : Symbol.char '\n' ∉ r.line := by
  rw [line, List.mem_append, List.mem_flatten]
  rintro (⟨g, hg, hmem⟩ | hmem)
  · exact not_mem_groups hg hmem
  · exact hr hmem

/-- **Lines of the text.** If no label contains a line end, the lines of the text are those that it
was made of. -/
theorem linesOf_text {d : Display} (hd : d.OneLine) : linesOf d.text = d.lines := by
  have hne : d.lines ≠ [] := by simp [lines]
  have hends : ∀ l ∈ d.lines, Symbol.char '\n' ∉ l := by
    rw [lines_eq, rows_eq, List.map_map]
    intro l hl
    obtain ⟨pos, hpos, rfl⟩ := List.mem_map.1 hl
    exact Row.not_mem_line (hd pos hpos)
  exact List.splitOn_intercalate (Symbol.char '\n') hends hne

end RenderTree.Display
