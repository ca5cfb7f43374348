import RenderTree.Proofs.Display.Drawing

/-!
# Reading drawn trees

A drawn tree can be read back, whatever its labels are, as long as each stands on one line: what is
drawn in front of a label ends with the first connector, and how long it is tells how deep the label
lies. Only whether a label without children is a leaf cannot be told.

* `Display.leafless` — the tree with a place for children at every label.
* `readLine` — the depth and the label of a line, and `readLine_line`: those of its row.
* `assemble` — the trees made of labels with their depths, and `assemble_rows`.
* `ofText`, `ofText_text` — a text read as a tree.
* `text_lossless` — a text stands for one tree, and what it looks like.
-/

namespace RenderTree.Display

mutual
/-- The tree with branches that have no children in place of leaves. -/
def leafless : Display → Display
  | leaf l => branch l []
  | branch l ds => branch l (leaflessAll ds)

/-- Several trees with branches that have no children in place of leaves. -/
def leaflessAll : List Display → List Display
  | [] => []
  | d :: ds => leafless d :: leaflessAll ds
end

/-- A tree without lists for its leaves is so below its root. -/
theorem leafless_eq (d : Display) : d.leafless = branch d.label (leaflessAll d.children) := by
  cases d <;> rfl

mutual
/-- A tree and its leafless form have the same rows. -/
theorem rows_leafless (trail : List Bool) : (d : Display) → d.leafless.rows trail = d.rows trail
  | leaf _ => rfl
  | branch _ ds => by rw [leafless, rows, rows, siblingRows_leaflessAll trail ds]

/-- Siblings have the same rows in leafless form. -/
theorem siblingRows_leaflessAll (trail : List Bool) : (ds : List Display) →
    siblingRows trail (leaflessAll ds) = siblingRows trail ds
  | [] => rfl
  | d :: ds => by
    have hlast : (leaflessAll ds).isEmpty = ds.isEmpty := by cases ds <;> rfl
    rw [leaflessAll, siblingRows, siblingRows, hlast, rows_leafless (trail ++ [ds.isEmpty]) d,
      siblingRows_leaflessAll trail ds]
end

/-- A tree and its leafless form have the same text. -/
theorem text_leafless (d : Display) : d.leafless.text = d.text := by
  rw [text, text, lines_eq, lines_eq, rows_leafless]

/-! ### Reading a line -/

/-- The depth and the label of a line below the first: groups of four characters are taken off up to
the first that goes on from no connector further up. -/
def readLine (cs : Text) : Nat × Text :=
  if cs.take 4 = (continuation true) ∨ cs.take 4 = (continuation false) then
    let r := readLine (cs.drop 4)
    (r.1 + 1, r.2)
  else (1, cs.drop 4)
termination_by cs.length
decreasing_by
  rename_i h
  have hne : cs ≠ [] := by
    rintro rfl
    revert h
    decide
  have := List.length_pos_of_ne_nil hne
  simp
  omega

/-- The first group of a line decides whether more groups are to follow. -/
theorem readLine_append {g : Text} (hg : g.length = 4) (cs : Text) :
    readLine (g ++ cs) =
      if g = (continuation true) ∨ g = (continuation false) then
        ((readLine cs).1 + 1, (readLine cs).2)
      else (1, cs) := by
  have htake : (g ++ cs).take 4 = g := by rw [← hg, List.take_left]
  have hdrop : (g ++ cs).drop 4 = cs := by rw [← hg, List.drop_left]
  rw [readLine, htake, hdrop]

/-- What continues a connector is read as one group. -/
theorem readLine_continuation (last : Bool) (cs : Text) :
    readLine ((continuation last) ++ cs) = ((readLine cs).1 + 1, (readLine cs).2) := by
  rw [readLine_append (by cases last <;> decide), if_pos (by cases last <;> simp)]

/-- A connector is read as the last group in front of a label. -/
theorem readLine_connector (last : Bool) (cs : Text) :
    readLine ((connector last) ++ cs) = (1, cs) := by
  rw [readLine_append (by cases last <;> decide), if_neg (by cases last <;> decide)]

/-- **Reading a line.** The line of a label below the root tells its depth and the label. -/
theorem readLine_line {r : Row} (hr : r.trail ≠ []) :
    readLine r.line = (r.trail.length, r.label) := by
  obtain ⟨trail, l⟩ := r
  induction trail with
  | nil => exact absurd rfl hr
  | cons last rest ih =>
    have hline : Row.line ⟨last :: rest, l⟩ =
        (if rest.isEmpty then connector last else continuation last) ++ Row.line ⟨rest, l⟩ := by
      simp [Row.line, groups, List.append_assoc]
    rw [hline]
    cases rest with
    | nil =>
      rw [List.isEmpty_nil, if_pos rfl, readLine_connector]
      simp [Row.line, groups]
    | cons next rest =>
      -- What comes behind the first group is the line of a label one level further up.
      rw [List.isEmpty_cons, if_neg Bool.false_ne_true, readLine_continuation,
        ih (List.cons_ne_nil next rest)]
      rfl

/-! ### Trees from depths -/

/-- Puts a label, with its depth, in front of trees with theirs: those that follow and lie deeper
are below it. -/
def graft (row : Nat × Text) (trees : List (Nat × Display)) : List (Nat × Display) :=
  (row.1, branch row.2 ((trees.takeWhile (fun x => row.1 < x.1)).map Prod.snd)) ::
    trees.dropWhile (fun x => row.1 < x.1)

/-- The trees, with their depths, that labels with their depths make up. -/
def assemble (rows : List (Nat × Text)) : List (Nat × Display) :=
  rows.foldr graft []

/-- What a row says apart from which labels are the last of their siblings. -/
def Row.outline (r : Row) : Nat × Text :=
  (r.trail.length, r.label)

/-- A label takes the trees below it, if those that follow them lie no deeper than it. -/
theorem graft_append {n : Nat} {l : Text} (ds : List Display) {trees : List (Nat × Display)}
    (h : ∀ x ∈ trees.head?, x.1 ≤ n) :
    graft (n, l) (ds.map (fun d => (n + 1, d)) ++ trees) = (n, branch l ds) :: trees := by
  -- What is taken are all of `ds`, which lie one level deeper, and nothing of what follows.
  have hbelow : ∀ x ∈ ds.map (fun d => (n + 1, d)), decide (n < x.1) = true := by
    intro x hx
    obtain ⟨d, -, rfl⟩ := List.mem_map.1 hx
    simp
  have htrees : trees.takeWhile (fun x => decide (n < x.1)) = [] ∧
      trees.dropWhile (fun x => decide (n < x.1)) = trees := by
    cases trees with
    | nil => exact ⟨rfl, rfl⟩
    | cons x trees =>
      have hx : ¬ n < x.1 := Nat.not_lt.2 (h x rfl)
      simp [hx]
  rw [graft, List.takeWhile_append_of_pos hbelow, List.dropWhile_append_of_pos hbelow, htrees.1,
    htrees.2, List.append_nil, List.map_map]
  simp [Function.comp_def]

mutual
/-- The rows of a tree are assembled to it, if what follows lies no deeper. -/
theorem assemble_rows (trail : List Bool) (rest : List (Nat × Text)) : (d : Display) →
    (∀ x ∈ (assemble rest).head?, x.1 ≤ trail.length) →
    assemble ((d.rows trail).map Row.outline ++ rest) = (trail.length, d.leafless) :: assemble rest
  | leaf l, h => graft_append [] h
  | branch l ds, h => by
    have hbelow := assemble_siblingRows trail rest ds fun x hx => Nat.le_succ_of_le (h x hx)
    show graft (trail.length, l) (assemble ((siblingRows trail ds).map Row.outline ++ rest)) = _
    rw [hbelow, graft_append _ h]
    rfl

/-- The rows of siblings are assembled to them, if what follows lies no deeper. -/
theorem assemble_siblingRows (trail : List Bool) (rest : List (Nat × Text)) :
    (ds : List Display) → (∀ x ∈ (assemble rest).head?, x.1 ≤ trail.length + 1) →
    assemble ((siblingRows trail ds).map Row.outline ++ rest) =
      (leaflessAll ds).map (fun d => (trail.length + 1, d)) ++ assemble rest
  | [], _ => rfl
  | d :: ds, h => by
    have hothers := assemble_siblingRows trail rest ds h
    have hlen : (trail ++ [ds.isEmpty]).length = trail.length + 1 := by simp
    -- What follows the first sibling is another one, or what follows them all.
    have hnext : ∀ x ∈ (assemble ((siblingRows trail ds).map Row.outline ++ rest)).head?,
        x.1 ≤ (trail ++ [ds.isEmpty]).length := by
      rw [hothers, hlen]
      cases ds with
      | nil => exact h
      | cons e ds =>
        intro x hx
        cases hx
        exact Nat.le_refl _
    have hfirst := assemble_rows (trail ++ [ds.isEmpty])
      ((siblingRows trail ds).map Row.outline ++ rest) d hnext
    rw [siblingRows, List.map_append, List.append_assoc, hfirst, hothers, hlen]
    rfl
end

/-! ### Reading a text -/

/-- The tree that a text with a label on each line stands for. -/
def ofText (text : Text) : Option Display :=
  match linesOf text with
  | [] => none
  | root :: others =>
    some (branch root ((assemble (others.map fun l => readLine l)).map Prod.snd))

/-- The lines of siblings, and of what is below them, are read as their rows. -/
theorem map_readLine_siblingRows (trail : List Bool) (ds : List Display) :
    ((siblingRows trail ds).map Row.line).map (fun l => readLine l) =
      (siblingRows trail ds).map Row.outline := by
  rw [siblingRows_eq trail [] ds [], List.map_map, List.map_map, List.map_map]
  apply List.map_congr_left
  intro pos hpos
  -- Below the root the way to a position is not empty, so something is drawn in front of the label.
  obtain ⟨k, rest, rfl, -⟩ := (mem_positionsFrom_iff _ ds).1 hpos
  exact readLine_line (by simp [rowAt, Display.trail])

/-- **Reading back.** A drawn tree whose labels stand on one line each is read as that tree, with
branches in place of its leaves. -/
theorem ofText_text {d : Display} (hd : d.OneLine) : ofText d.text = some d.leafless := by
  -- The first line is the label of the root, and the others are the rows below it.
  have hlines : linesOf d.text = d.label :: (siblingRows [] d.children).map Row.line := by
    rw [linesOf_text hd, lines]
    exact congrArg _ (linesBelow_eq [] d)
  have hbelow := assemble_siblingRows [] [] d.children (by simp [assemble])
  rw [List.append_nil] at hbelow
  rw [ofText, hlines]
  simp only [map_readLine_siblingRows, hbelow]
  rw [leafless_eq]
  simp [assemble, Function.comp_def]

/-! ### The text of a tree -/

/-- **No loss.** If the labels of a tree stand on one line each, its text is that of no other such
tree, a leaf and a branch without children being the same. The text has as many lines as the tree
has labels; and its lines are, in order, those of the positions of the tree in lexicographic order,
in which each comes before those below it. -/
theorem text_lossless (d : Display) (hd : d.OneLine) :
    (∀ e : Display, e.OneLine → (d.text = e.text ↔ d.leafless = e.leafless)) ∧
    (linesOf d.text).length = d.count ∧
    (d.positions.Pairwise (· < ·) ∧ ∀ pos, pos ∈ d.positions ↔ (d.at? pos).isSome) ∧
    ∀ (i : Nat) (pos : List Nat), d.positions[i]? = some pos →
      ∃ line, (linesOf d.text)[i]? = some line ∧ d.DrawnAt pos line := by
  have hlines : linesOf d.text = d.positions.map (fun pos => (d.rowAt [] pos).line) := by
    rw [linesOf_text hd, lines_eq, rows_eq, List.map_map]
    rfl
  refine ⟨?_, ?_, ⟨positions_pairwise_lt d, fun _ => mem_positions_iff d⟩, ?_⟩
  · intro e he
    constructor
    · -- Equal texts are read back as one tree.
      intro htext
      have hread : some d.leafless = some e.leafless := by
        rw [← ofText_text hd, ← ofText_text he, htext]
      exact Option.some.inj hread
    · intro hsame
      rw [← text_leafless d, hsame, text_leafless e]
  · rw [hlines, List.length_map, length_positions]
  · intro i pos hpos
    rw [hlines, List.getElem?_map, hpos]
    exact ⟨_, rfl, drawnAt_of_mem (List.mem_of_getElem? hpos)⟩

/-- A tree with labels that look like what is drawn in front of others. -/
def connectors : Display :=
  branch "├── " [branch "└── " [leaf "    └── ", branch "│   " []], leaf ""]

/-- The labels of that tree are told from what is drawn in front of them. -/
theorem text_lossless_connectors :
    connectors.OneLine ∧
      (∀ e : Display, e.OneLine →
        (connectors.text = e.text ↔ connectors.leafless = e.leafless)) ∧
      (linesOf connectors.text).length = 5 ∧
      ∃ line, (linesOf connectors.text)[3]? = some line ∧ connectors.DrawnAt [0, 1] line := by
  have hd : connectors.OneLine := by decide +kernel
  obtain ⟨hread, hcount, -, hdrawn⟩ := text_lossless connectors hd
  exact ⟨hd, hread, hcount, hdrawn 3 [0, 1] (by decide +kernel)⟩

end RenderTree.Display
