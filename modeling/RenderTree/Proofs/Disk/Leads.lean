import RenderTree.Resolve
import RenderTree.Proofs.Disk.Segment

/-!
# Where segments lead

A look-up follows links as it meets them, with all segments that are left behind each. So where
segments lead can be told link by link, and with the number of links that are followed on the way.

* `Disk.IsReal` — a location that no link leads through, and that is none itself.
* `Disk.Leads` — the segments lead from one location to another, through a number of links.
* `Leads.append`, `Leads.split`, `Leads.unique` — one run of segments behind another.
* `leads_of_place` — a look-up that arrives somewhere was led there.
* `Leads.along_append` — where no link is followed, a look-up goes where the segments lead.
* `Leads.isReal` — what is led to from a real location is real.
-/

namespace RenderTree

/-! ### Around a location -/

namespace Location

/-- The parent of a child is where the child is. -/
theorem parent_child (l : Location) (s : Text) (h : IsName s) : (l.child s h).parent = l := by
  simp [child, parent]

/-- A location lies within another if the names of that come first in its own. -/
theorem isWithin_iff {l top : Location} : l.isWithin top = true ↔ top.names <+: l.names :=
  List.isPrefixOf_iff_prefix

/-- Every location lies within itself. -/
theorem isWithin_self (l : Location) : l.isWithin l = true :=
  isWithin_iff.2 (List.prefix_refl _)

/-- Every location lies within its parent. -/
theorem isWithin_parent (l : Location) : l.isWithin l.parent = true :=
  isWithin_iff.2 (List.dropLast_prefix _)

/-- What lies within a location lies within all that this lies within. -/
theorem isWithin_trans {l m n : Location} (h : l.isWithin m = true) (h' : m.isWithin n = true) :
    l.isWithin n = true :=
  isWithin_iff.2 ((isWithin_iff.1 h').trans (isWithin_iff.1 h))

/-- What an entry of a directory is within is the entry itself, or around the directory. -/
theorem isWithin_child {l top : Location} {s : Text} {hs : IsName s}
    (h : (l.child s hs).isWithin top = true) : top = l.child s hs ∨ l.isWithin top = true := by
  rcases List.prefix_concat_iff.1 (isWithin_iff.1 h) with h | h
  · left
    obtain ⟨names, proper⟩ := top
    subst h
    rfl
  · exact .inr (isWithin_iff.2 h)

end Location

namespace Disk

/-- Neither the location nor any that it is within is that of a link, and all of the latter but the
location itself are directories. -/
structure IsReal (d : Disk) (l : Location) : Prop where
  plain : ∀ target, d.entry? l ≠ some (.link target)
  below : ∀ top, l.isWithin top = true → top ≠ l → d.entry? top = some .directory

/-- The location and all that it is within are directories. -/
def IsRealDirectory (d : Disk) (l : Location) : Prop :=
  ∀ top, l.isWithin top = true → d.entry? top = some .directory

variable {d : Disk} {here l m : Location} {s : Text} {rest steps : List Text} {n k : Nat}

/-- The root is a directory. -/
theorem entry?_root (d : Disk) : d.entry? .root = some .directory :=
  if_pos rfl

/-- A real directory is real. -/
theorem IsRealDirectory.isReal (h : d.IsRealDirectory l) : d.IsReal l where
  plain := by
    intro target
    rw [h l l.isWithin_self]
    simp
  below := fun top htop _ => h top htop

/-- A directory that is real is a real directory. -/
theorem IsReal.directory (h : d.IsReal l) (hd : d.entry? l = some .directory) :
    d.IsRealDirectory l := by
  intro top htop
  by_cases heq : top = l
  · rw [heq, hd]
  · exact h.below top htop heq

/-- The root is a real directory. -/
theorem isRealDirectory_root (d : Disk) : d.IsRealDirectory .root := by
  intro top htop
  have hnames : top.names = [] := List.prefix_nil.1 (Location.isWithin_iff.1 htop)
  have hroot : top = .root := by
    obtain ⟨names, proper⟩ := top
    subst hnames
    rfl
  rw [hroot, d.entry?_root]

/-- A real directory is in a real directory. -/
theorem IsRealDirectory.parent (h : d.IsRealDirectory l) : d.IsRealDirectory l.parent :=
  fun top htop => h top (Location.isWithin_trans l.isWithin_parent htop)

/-- What is in a real directory is real unless it is a link. -/
theorem IsRealDirectory.child (h : d.IsRealDirectory here) (hs : IsName s)
    (hplain : ∀ target, d.entry? (here.child s hs) ≠ some (.link target)) :
    d.IsReal (here.child s hs) where
  plain := hplain
  below := by
    intro top htop hne
    rcases Location.isWithin_child htop with heq | htop
    · exact absurd heq hne
    · exact h top htop

/-- No link is on the way to a real location. -/
theorem IsReal.entry?_ne_link (h : d.IsReal l) {top : Location} (htop : l.isWithin top = true)
    (target : Text) : d.entry? top ≠ some (.link target) := by
  by_cases heq : top = l
  · rw [heq]
    exact h.plain target
  · rw [h.below top htop heq]
    simp

/-! ### Where segments lead -/

/-- The segments lead from `here` to a location, and `n` links are followed on the way. Behind a
link they go on from where it leads. -/
inductive Leads (d : Disk) : Location → List Text → Location → Nat → Prop where
  | arrive (here : Location) : Leads d here [] here 0
  /-- The next segment is the name of an entry that is no link. -/
  | enter {here l : Location} {s : Text} {rest : List Text} {n : Nat}
      (directory : d.entry? here = some .directory) (name : IsName s)
      (size : ¬ maxNameSize < s.size)
      (plain : ∀ target, d.entry? (here.child s name) ≠ some (.link target))
      (next : Leads d (here.child s name) rest l n) : Leads d here (s :: rest) l n
  /-- The next segment is empty, or consists of dots. -/
  | dots {here l : Location} {s : Text} {rest : List Text} {n : Nat}
      (directory : d.entry? here = some .directory) (dots : ¬ IsName s)
      (next : Leads d (if s = ".." then here.parent else here) rest l n) :
      Leads d here (s :: rest) l n
  /-- The next segment is the name of a link. -/
  | link {here l m : Location} {s target : Text} {rest : List Text} {k n : Nat}
      (directory : d.entry? here = some .directory) (name : IsName s)
      (size : ¬ maxNameSize < s.size)
      (link : d.entry? (here.child s name) = some (.link target))
      (inner : Leads d (startOf here target) (stepsOf target) m k) (next : Leads d m rest l n) :
      Leads d here (s :: rest) l (k + n + 1)

/-- What leads through two runs of segments leads through one of them and then through the other. -/
theorem Leads.split {xs ys : List Text} (h : d.Leads here (xs ++ ys) l n) :
    ∃ m j k, d.Leads here xs m j ∧ d.Leads m ys l k ∧ n = j + k := by
  induction xs generalizing here n with
  | nil => exact ⟨here, 0, n, .arrive here, h, (Nat.zero_add n).symm⟩
  | cons x xs ih =>
    cases h with
    | enter directory name size plain next =>
      obtain ⟨m, j, k, hj, hk, rfl⟩ := ih next
      exact ⟨m, j, k, .enter directory name size plain hj, hk, rfl⟩
    | dots directory dots next =>
      obtain ⟨m, j, k, hj, hk, rfl⟩ := ih next
      exact ⟨m, j, k, .dots directory dots hj, hk, rfl⟩
    | @link _ _ _ _ _ _ i _ directory name size link inner next =>
      obtain ⟨m, j, k, hj, hk, rfl⟩ := ih next
      exact ⟨m, i + j + 1, k, .link directory name size link inner hj, hk, by omega⟩

/-- What leads to where other segments begin leads on with these. -/
theorem Leads.append {xs ys : List Text} (h : d.Leads here xs m n) (h' : d.Leads m ys l k) :
    d.Leads here (xs ++ ys) l (n + k) := by
  induction h with
  | arrive here =>
    rw [Nat.zero_add]
    exact h'
  | enter directory name size plain next ih => exact .enter directory name size plain (ih h')
  | dots directory dots next ih => exact .dots directory dots (ih h')
  | @link here l m s target rest i j directory name size link inner next ihInner ihNext =>
    have hway := Leads.link directory name size link inner (ihNext h')
    have hcount : i + j + 1 + k = i + (j + k) + 1 := by omega
    rw [hcount]
    exact hway

/-- What leads to a directory begins in one. -/
theorem Leads.directory (h : d.Leads here steps l n) (hl : d.entry? l = some .directory) :
    d.entry? here = some .directory := by
  cases h with
  | arrive here => exact hl
  | enter directory name size plain next => exact directory
  | dots directory dots next => exact directory
  | link directory name size link inner next => exact directory

/-- **Segments lead to one place**, through one number of links. -/
theorem Leads.unique (h : d.Leads here steps l n) :
    ∀ {l' : Location} {n' : Nat}, d.Leads here steps l' n' → l' = l ∧ n' = n := by
  induction h with
  | arrive here =>
    intro l' n' h'
    cases h'
    exact ⟨rfl, rfl⟩
  -- What is at a segment decides how it is dealt with.
  | enter directory name size plain next ih =>
    intro l' n' h'
    cases h' with
    | enter _ _ _ _ next' => exact ih next'
    | dots _ dots' _ => exact absurd name dots'
    | link _ _ _ link' _ _ => exact absurd link' (plain _)
  | dots directory dots next ih =>
    intro l' n' h'
    cases h' with
    | enter _ name' _ _ _ => exact absurd name' dots
    | dots _ _ next' => exact ih next'
    | link _ name' _ _ _ _ => exact absurd name' dots
  | link directory name size link inner next ihInner ihNext =>
    intro l' n' h'
    cases h' with
    | enter _ _ _ plain' _ => exact absurd link (plain' _)
    | dots _ dots' _ => exact absurd name dots'
    | link _ _ _ link' inner' next' =>
      rw [link, Option.some.injEq, Entry.link.injEq] at link'
      subst link'
      obtain ⟨rfl, rfl⟩ := ihInner inner'
      obtain ⟨rfl, rfl⟩ := ihNext next'
      exact ⟨rfl, rfl⟩

/-- **No link on the way.** From a real location segments lead to real locations only. -/
theorem Leads.isReal (h : d.Leads here steps l n) (hreal : d.IsReal here) : d.IsReal l := by
  induction h with
  | arrive here => exact hreal
  | enter directory name size plain next ih =>
    exact ih ((hreal.directory directory).child name plain)
  | @dots here l s rest n directory dots next ih =>
    apply ih
    split
    · exact (hreal.directory directory).parent.isReal
    · exact hreal
  | @link here l m s target rest k n directory name size link inner next ihInner ihNext =>
    -- A link leads on from the root or from the directory that it is in.
    apply ihNext
    apply ihInner
    rw [startOf]
    split
    · exact d.isRealDirectory_root.isReal
    · exact hreal

/-! ### Look-ups -/

/-- A look-up that arrives at an entry was led there, if this is so behind every link. -/
theorem leads_of_along {jump : Location → List Text → Except Trouble (Location × Option Entry)}
    (hjump : ∀ here steps l e, jump here steps = .ok (l, some e) →
      d.entry? l = some e ∧ ∃ n, d.Leads here steps l n) :
    ∀ steps here l e, d.along jump here steps = .ok (l, some e) →
      d.entry? l = some e ∧ ∃ n, d.Leads here steps l n := by
  intro steps
  induction steps with
  | nil =>
    intro here l e h
    rw [along, Except.ok.injEq, Prod.mk.injEq] at h
    obtain ⟨rfl, he⟩ := h
    exact ⟨he, 0, .arrive here⟩
  | cons s rest ih =>
    intro here l e h
    have hsegment := d.segment_along jump here s rest
    generalize d.along jump here (s :: rest) = r at hsegment h
    cases hsegment with
    | blocked => cases h
    | tooLong => cases h
    | lost => cases h
    | free => cases h
    | link directory name size link =>
      -- The look-up goes on with the link's segments in front of those that are left.
      obtain ⟨he, n, hn⟩ := hjump _ _ _ _ h
      obtain ⟨m, j, k, hj, hk, -⟩ := hn.split
      exact ⟨he, _, .link directory name size link hj hk⟩
    | enter directory name size entry plain =>
      obtain ⟨he, n, hn⟩ := ih _ _ _ h
      refine ⟨he, n, .enter directory name size ?_ hn⟩
      intro target htarget
      rw [entry, Option.some.injEq] at htarget
      exact plain target htarget
    | dots directory dots =>
      obtain ⟨he, n, hn⟩ := ih _ _ _ h
      exact ⟨he, n, .dots directory dots hn⟩

/-- **Look-ups are led.** A look-up that arrives at an entry was led there. -/
theorem leads_of_place : ∀ links here steps l e, d.place links here steps = .ok (l, some e) →
    d.entry? l = some e ∧ ∃ n, d.Leads here steps l n := by
  -- By induction on the number of links that may still be followed.
  intro links
  induction links with
  | zero =>
    intro here steps l e h
    refine leads_of_along ?_ steps here l e h
    intro here steps l e h
    cases h
  | succ links ih => exact fun here steps l e h => leads_of_along ih steps here l e h

/-- What a text denotes is at the location that its segments lead to. -/
theorem leads_of_find {cwd : Location} {text : Text} {e : Entry}
    (h : d.find cwd text = .ok (l, some e)) :
    d.entry? l = some e ∧ ∃ n, d.Leads (startOf cwd text) (stepsOf text) l n :=
  leads_of_place _ _ _ _ _ (place_of_find h)

/-- A text denotes a regular file if it denotes an entry with bytes. -/
theorem file?_eq_some_iff {cwd : Location} {text : Text} :
    d.file? cwd text = some l ↔ d.locate cwd text = .ok l ∧ (d.bytes? l).isSome := by
  rw [file?]
  cases h : d.locate cwd text with
  | error t => simp
  | ok m =>
    simp only [Option.ite_none_right_eq_some, Option.some.injEq, Except.ok.injEq]
    constructor
    · rintro ⟨hm, rfl⟩
      exact ⟨rfl, hm⟩
    · rintro ⟨rfl, hm⟩
      exact ⟨hm, rfl⟩

/-- A text that denotes a regular file is looked up without trouble. -/
theorem file?_eq_some_iff_find {cwd : Location} {text : Text} :
    d.file? cwd text = some l ↔ ∃ bytes, d.find cwd text = .ok (l, some (.file bytes)) := by
  rw [file?_eq_some_iff, locate]
  cases hfind : d.find cwd text with
  | error t => simp
  | ok r =>
    obtain ⟨m, _ | e⟩ := r
    · simp
    · have hentry := (leads_of_find hfind).1
      simp only [Except.ok.injEq, Prod.mk.injEq, Option.some.injEq]
      constructor
      · rintro ⟨rfl, hbytes⟩
        rw [bytes?, hentry] at hbytes
        cases e with
        | file bytes => exact ⟨bytes, rfl, rfl⟩
        | directory => cases hbytes
        | link target => cases hbytes
      · rintro ⟨bytes, rfl, rfl⟩
        exact ⟨rfl, by rw [bytes?, hentry]; rfl⟩

/-- **Without links.** Where segments lead to a directory and no link is followed, a look-up goes on
from there with all that is left. -/
theorem Leads.along_append (h : d.Leads here steps l n) (hn : n = 0)
    (hl : d.entry? l = some .directory)
    (jump : Location → List Text → Except Trouble (Location × Option Entry)) (rest : List Text) :
    d.along jump here (steps ++ rest) = d.along jump l rest := by
  induction h with
  | arrive here => rfl
  | @enter here l s left n directory name size plain next ih =>
    have hentry := next.directory hl
    have hsegment : Segment d jump here s (left ++ rest) _ :=
      .enter directory name size hentry (by simp)
    rw [List.cons_append, hsegment.along_eq]
    exact ih hn hl
  | @dots here l s left n directory dots next ih =>
    have hsegment : Segment d jump here s (left ++ rest) _ := .dots directory dots
    rw [List.cons_append, hsegment.along_eq]
    exact ih hn hl
  | link directory name size link inner next ihInner ihNext => omega

end Disk

end RenderTree
