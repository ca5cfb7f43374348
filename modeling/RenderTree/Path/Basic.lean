import RenderTree.Text.Basic

/-!
# Paths

Paths of a POSIX file system as text: an anchor and segments. Empty segments and single dots are
dropped when a path is read, double dots are kept, and exactly two slashes at the beginning stay two.

* `Path` — a path; its segments are proper by construction.
* `Path.ofText`, `Path.text` — the path of a text and the text of a path.
* `Path.parent`, `Path.name`, `Path.join` — its parts, and a text looked up from it.
* `Path.child`, `Path.up` — a path with one more segment, and what two dots behind it come to.
-/

namespace RenderTree

open RenderTree.Text

/-- Where a path begins. -/
inductive Anchor where
  | relative | root | doubleRoot
deriving DecidableEq, Repr, Inhabited

/-- How an anchor is written. -/
def Anchor.text : Anchor → Text
  | relative => []
  | root => "/"
  | doubleRoot => "//"

/-- Whether a text is a proper segment of a path. -/
def IsSegment (s : Text) : Prop :=
  s ≠ [] ∧ s ≠ "." ∧ Symbol.char '/' ∉ s

instance (s : Text) : Decidable (IsSegment s) :=
  inferInstanceAs (Decidable (_ ∧ _ ∧ _))

/-- A path: its anchor and its segments. -/
structure Path where
  anchor : Anchor
  segments : List Text
  proper : ∀ s ∈ segments, IsSegment s
deriving DecidableEq

namespace Path

instance : Inhabited Path := ⟨⟨.relative, [], by simp⟩⟩

/-- The anchor of a text. -/
def anchorOf (t : Text) : Anchor :=
  match (t.takeWhile (· == Symbol.char '/')).length with
  | 0 => .relative
  | 2 => .doubleRoot
  | _ => .root

/-- The segments of a text. -/
def segmentsOf (t : Text) : List Text :=
  (pieces (Symbol.char '/') t).filter (fun s => decide (IsSegment s))

/-- The segments of a text are segments: neither empty nor a dot, and without slashes. -/
theorem proper_segmentsOf (t : Text) : ∀ s ∈ segmentsOf t, IsSegment s := by
  intro s hs
  simpa [segmentsOf] using (List.mem_filter.1 hs).2

/-- The path that a text denotes. -/
def ofText (t : Text) : Path :=
  ⟨anchorOf t, segmentsOf t, proper_segmentsOf t⟩

/-- The text of a path; a single dot for the empty one. -/
def text (p : Path) : Text :=
  if p.anchor = .relative ∧ p.segments = [] then "."
  else p.anchor.text ++ List.intercalate "/" p.segments

/-- The last segment, empty where there is none. -/
def name (p : Path) : Text :=
  p.segments.getLast?.getD []

/-- The path without its last segment. -/
def parent (p : Path) : Path :=
  ⟨p.anchor, p.segments.dropLast, fun s hs => p.proper s ((List.dropLast_sublist _).subset hs)⟩

/-- The path that a text denotes when it is looked up from `p`; an absolute one stands for itself. -/
def join (p : Path) (t : Text) : Path :=
  let q := ofText t
  if q.anchor = .relative then
    ⟨p.anchor, p.segments ++ q.segments, by
      intro s hs
      rcases List.mem_append.1 hs with h | h
      · exact p.proper s h
      · exact q.proper s h⟩
  else q

/-- The root. -/
def root : Path := ⟨.root, [], by simp⟩

/-- The directory that paths are looked up from. -/
def here : Path := ⟨.relative, [], by simp⟩

/-- A path with one more segment. -/
def child (p : Path) (s : Text) (h : IsSegment s) : Path :=
  ⟨p.anchor, p.segments ++ [s], by
    intro t ht
    rcases List.mem_append.1 ht with ht | ht
    · exact p.proper t ht
    · rw [List.mem_singleton.1 ht]; exact h⟩

/-- What two dots behind a path come to where it has no links: the last segment is taken back. The
dots stay where there is none, or only more dots; the root is not left. -/
def up (p : Path) : Path :=
  if p.anchor = .relative ∧ p.segments.getLast?.all (· = ofString "..") then
    p.child ".." (by decide)
  else p.parent

end Path

end RenderTree
