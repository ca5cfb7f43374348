import RenderTree.Disk.Lookup
import RenderTree.Path.Short

/-!
# Real paths

The real path of a path has no links in it. Unlike a look-up, it is made from the text: segment by
segment a longer path is asked for whether it is that of a link, and if so, the link is replaced. What
does not exist has no links, and two dots behind it take back the segment before them. Neither has
what cannot be looked up, and that a path grows too long on the way is not noticed: its links stay.
So do those that lead to themselves, with all that follows them.

* `Disk.linkAt?` — the target of the link at a path.
* `Disk.follow` — the path that segments lead to, links replaced.
* `Disk.realOf` — the real path of a text.
* `Disk.realPath` — the real path, unless it runs into a link that leads to itself.
-/

namespace RenderTree

open RenderTree.Text

namespace Disk

/-- The location that segments lead to without looking at entries. -/
def lexical (here : Location) : List Text → Location
  | [] => here
  | s :: rest =>
    if h : IsName s then lexical (here.child s h) rest
    else lexical (if s = ".." then here.parent else here) rest

/-- The target of the link that the name `s` has in the directory at a path. There is none if the path
of the link cannot be looked up. -/
def linkAt? (d : Disk) (cwd : Location) (dir : Path) (s : Text) (h : IsName s) : Option Text :=
  if (refused? (dir.child s h.isSegment).text).isSome ∨ maxNameSize < s.size then none
  else
    match d.find cwd dir.text with
    | .ok (l, some .directory) =>
      match d.entry? (l.child s h) with
      | some (.link target) => some target
      | _ => none
    | _ => none

/-- A link is found only at a path that is short enough to be looked up. -/
theorem fits_of_linkAt? {d : Disk} {cwd : Location} {dir : Path} {s target : Text} {h : IsName s}
    (hlink : d.linkAt? cwd dir s h = some target) :
    (dir.child s h.isSegment).text.size ≤ maxPathSize := by
  rw [linkAt?] at hlink
  split at hlink
  · cases hlink
  next hfits =>
    rw [not_or, Option.not_isSome_iff_eq_none] at hfits
    exact fits_of_refused? hfits.1

/-- What segments lead to with links replaced: a path, whether all links have been replaced, and the
paths that were asked for links on the way. -/
structure Followed where
  path : Path
  ends : Bool
  asked : List Path

/-- Where the target of a link begins: at the root if it begins with a slash, else at `here`. -/
def startAt (here : Path) (text : Text) : Path :=
  if text.head? = some (Symbol.char '/') then .root else here

/-- The path that segments lead to from `here`, links replaced. The links in `inside` are being
replaced; if one of them comes up again, the path is that of the link with all segments behind it. -/
def follow (d : Disk) (cwd : Location) (inside : List Path) (here : Path) : List Text → Followed
  | [] => ⟨here, true, []⟩
  | s :: rest =>
    if h : IsName s then
      let next := here.child s h.isSegment
      match _e : d.linkAt? cwd here s h with
      | none =>
        let further := follow d cwd inside next rest
        { further with asked := next :: further.asked }
      | some target =>
        if _m : next ∈ inside then ⟨next.join (List.intercalate "/" rest), false, [next]⟩
        else
          let inner := follow d cwd (next :: inside) (startAt here target) (stepsOf target)
          if inner.ends then
            let further := follow d cwd inside inner.path rest
            { further with asked := next :: inner.asked ++ further.asked }
          else ⟨inner.path.join (List.intercalate "/" rest), false, next :: inner.asked⟩
    else follow d cwd inside (if s = ".." then here.up else here) rest
termination_by steps => (Path.spare maxPathSize inside, steps.length)
decreasing_by
  · exact Prod.Lex.right _ (by simp)
  · exact Prod.Lex.left _ _ (Path.spare_cons_lt (fits_of_linkAt? _e) _m)
  · exact Prod.Lex.right _ (by simp)
  · exact Prod.Lex.right _ (by simp)

end Disk

/-- The absolute path that a path stands for without looking at entries. -/
def Path.absolute (cwd : Location) (p : Path) : Path :=
  let l := Disk.lexical (if p.anchor = .relative then cwd else .root) p.segments
  { l.toPath with anchor := if p.anchor = .doubleRoot then .doubleRoot else .root }

namespace Disk

/-- Where a text leads to with links replaced. -/
def followed (d : Disk) (cwd : Location) (text : Text) : Followed :=
  d.follow cwd [] (startAt .here text) (stepsOf text)

/-- The real path of a text in the directory `cwd`. -/
def realOf (d : Disk) (cwd : Location) (text : Text) : Path :=
  (d.followed cwd text).path.absolute cwd

/-- Why a path has no real path: it cannot be used at all, or it runs into a link that leads to
itself. -/
inductive Unreal where
  | trouble (t : Trouble)
  | loop (at_ : Path)
deriving DecidableEq

/-- The message that tells why a path has no real path. -/
def Unreal.message : Unreal → String
  | trouble t => t.message []
  | loop p => "Symlink loop from " ++ quoted p.text

/-- The trouble that ends what asks for paths: that with the first text that can be no path. -/
def askedTrouble? (ps : List Path) : Option Trouble :=
  ps.findSome? fun p => unnamable? p.text

/-- The real path of a text, which is looked up once it is made. -/
def realPath (d : Disk) (cwd : Location) (text : Text) : Except Unreal Path :=
  let real := d.realOf cwd text
  match askedTrouble? ((d.followed cwd text).asked ++ [real]) with
  | some t => .error (.trouble t)
  | none =>
    match d.find cwd real.text with
    | .error .tooManyLinks => .error (.loop real)
    | _ => .ok real

end Disk

end RenderTree
