import RenderTree.Walk
import Mathlib.Data.List.Basic

/-!
# How a component is handled

Five things can become of a component that a file renders. Everything that holds of a walk, node by
node, is read off these five exits; no other module opens the recursion of the walk.

* `Walker.fresh`, `Walker.lookUp` — a component before it is looked up, and its file.
* `Walker.Exit` — the five exits, each with the condition under which it is taken.
* `exit_component`, `Exit.component_eq` — a component leaves by exactly one of them.
* `components_eq` — the components of a file are handled independently of each other.
* `way_induction` — induction over the files that are not yet on the way.
* `walk_eq_ok_iff` — when a walk finds a tree, and which.
* `Walked.Alike` — two walks that end in the same way.
-/

namespace RenderTree

namespace Walker

variable {w : Walker} {importer l : Path} {above : List Path} {depth : Nat} {b : Binding}

/-! ### The exits -/

/-- What is known of a component before it is looked up. -/
def fresh (depth : Nat) (b : Binding) : Facts :=
  { name := b.localName, specifier := some b.specifier, depth := depth }

/-- The file of a component that `importer` renders. -/
def lookUp (w : Walker) (importer : Path) (b : Binding) : Option Path :=
  w.resolve b.specifier (some importer)

/-- Without a bound on the depth, files are read at every depth. -/
theorem reads_of_unbounded (hw : w.options.scanDepth = none) (depth : Nat) :
    w.options.reads depth = true := by
  rw [WalkOptions.reads, hw]

/-- **The exits.** What becomes of a component that `importer` renders, where the files `above` are
on the way to `importer`: its tree, and the files below that could not be read. -/
inductive Exit (w : Walker) (importer : Path) (above : List Path) (depth : Nat)
    (b : Binding) : Component → List ScanError → Prop where
  /-- It has no file. -/
  | missing (found : w.lookUp importer b = none) :
      Exit w importer above depth b (w.unresolved (fresh depth b)) []
  /-- Its file is on the way to it. -/
  | cycle {l : Path} (found : w.lookUp importer b = some l) (onWay : l ∈ importer :: above) :
      Exit w importer above depth b
        (.node { fresh depth b with path := some l, status := .cycle } []) []
  /-- It lies too deep. -/
  | beyond {l : Path} (found : w.lookUp importer b = some l) (new : l ∉ importer :: above)
      (deep : w.options.reads depth = false) :
      Exit w importer above depth b
        (.node { fresh depth b with path := some l, status := .resolved } []) []
  /-- Its file cannot be read. -/
  | faulty {l : Path} {fault : ScanFault} (found : w.lookUp importer b = some l)
      (new : l ∉ importer :: above) (near : w.options.reads depth = true)
      (scanned : w.scan l = .error fault) :
      Exit w importer above depth b (w.unresolved (fresh depth b)) [⟨l, fault⟩]
  /-- Its file is opened, and what that renders is handled in turn. -/
  | opened {l : Path} {used : List Binding} (found : w.lookUp importer b = some l)
      (new : l ∉ importer :: above) (near : w.options.reads depth = true)
      (scanned : w.scan l = .ok used) :
      Exit w importer above depth b
        (.node { fresh depth b with path := some l, status := .scanned }
          (w.components l (importer :: above) (depth + 1) used).1)
        (w.components l (importer :: above) (depth + 1) used).2

/-- A component leaves by one of the exits. -/
theorem exit_component (w : Walker) (importer : Path) (above : List Path) (depth : Nat)
    (b : Binding) :
    w.Exit importer above depth b (w.component importer above depth b).1
      (w.component importer above depth b).2 := by
  rw [component]
  split
  next h => exact .missing h
  next l h =>
    split
    next hm => exact .cycle h hm
    next hm =>
      split
      next hr =>
        split
        next fault hs => exact .faulty h hm hr hs
        next used hs => exact .opened h hm hr hs
      next hr => exact .beyond h hm (by simpa using hr)

/-- What an exit says of a component is all there is to say: no component leaves by two exits. -/
theorem Exit.component_eq {c : Component} {errors : List ScanError}
    (h : w.Exit importer above depth b c errors) :
    w.component importer above depth b = (c, errors) := by
  -- Both exits are taken, and their conditions exclude each other unless they are the same.
  have hx := w.exit_component importer above depth b
  generalize w.component importer above depth b = r at hx
  obtain ⟨c', errors'⟩ := r
  cases h <;> cases hx <;> grind [unresolved]

/-! ### Siblings -/

/-- **Siblings are independent.** The components that a file renders are handled each for itself,
and the files that could not be read are listed in their order. -/
theorem components_eq (w : Walker) (importer : Path) (above : List Path) (depth : Nat)
    (bs : List Binding) :
    w.components importer above depth bs =
      (bs.map (fun b => (w.component importer above depth b).1),
        bs.flatMap (fun b => (w.component importer above depth b).2)) := by
  induction bs with
  | nil => rw [components]; rfl
  | cons b bs ih => rw [components, ih]; rfl

/-- A child of what is found below a file comes from one of the file's bindings. -/
theorem getElem?_components (w : Walker) (l : Path) (above : List Path) (depth : Nat)
    (used : List Binding) (i : Nat) :
    (w.components l above depth used).1[i]? =
      used[i]?.map (fun b => (w.component l above depth b).1) := by
  rw [components_eq, List.getElem?_map]

/-- Where the components that a file renders are found changed in one way, and with the same errors,
so is the list of them. -/
theorem components_map {v w : Walker} {l l' : Path} {above above' : List Path}
    {depth depth' : Nat} {g : Component → Component} (bs : List Binding)
    (h : ∀ b ∈ bs, v.component l' above' depth' b =
      (g (w.component l above depth b).1, (w.component l above depth b).2)) :
    v.components l' above' depth' bs =
      ((w.components l above depth bs).1.map g, (w.components l above depth bs).2) := by
  rw [components_eq, components_eq, List.map_map]
  apply Prod.ext
  · exact List.map_congr_left fun b hb => congrArg Prod.fst (h b hb)
  · exact List.flatMap_congr fun b hb => by rw [h b hb]

/-! ### Induction over the way -/

/-- **Induction over the way.** What holds of a file with those on the way to it, if it holds of
every further file with this one on its way, holds of all: only finitely many files are left. -/
theorem way_induction (w : Walker) {P : Path → List Path → Prop}
    (step : ∀ l above, (∀ next, (∃ used, w.scan next = .ok used) → next ∉ l :: above →
      P next (l :: above)) → P l above)
    (l : Path) (above : List Path) : P l above := by
  -- The measure is the number of short texts that are not those of paths on the way.
  induction hn : Path.spare Disk.maxPathSize (l :: above) using Nat.strongRecOn
    generalizing l above with
  | ind n ih =>
    subst hn
    apply step
    rintro next ⟨used, hscan⟩ hnew
    exact ih _ (Path.spare_cons_lt (fits_of_scan hscan) hnew) next (l :: above) rfl

end Walker

/-! ### Whole walks -/

/-- Two walks end alike: both find nothing, for the same reason, or what both find is related. -/
inductive Walked.Alike (R : Walked → Walked → Prop) :
    Except WalkError Walked → Except WalkError Walked → Prop where
  | error (e : WalkError) : Alike R (.error e) (.error e)
  | ok {t u : Walked} (h : R t u) : Alike R (.ok t) (.ok u)

/-- What is found can be related more loosely. -/
theorem Walked.Alike.imp {R S : Walked → Walked → Prop} {x y : Except WalkError Walked}
    (h : Walked.Alike R x y) (hRS : ∀ t u, R t u → S t u) : Walked.Alike S x y := by
  cases h with
  | error e => exact .error e
  | ok h => exact .ok (hRS _ _ h)

/-- What is known of the root component, whose file is at `l`. -/
def Walker.rootFacts (root : Path) (l : Path) : Facts :=
  { name := root.componentName, path := some l, status := .scanned }

/-- What a walk finds if the file `l` of the root renders `used`. -/
def Walker.found (w : Walker) (root : Path) (l : Path) (used : List Binding) : Walked :=
  ⟨.node (Walker.rootFacts root l) (w.components l [] 1 used).1, (w.components l [] 1 used).2⟩

/-- A walk finds a tree if the root has a file and the file can be read; the tree is that of the
components which the file renders. -/
theorem walk_eq_ok_iff {w : Walker} {root : Path} {t : Walked} :
    w.walk root = .ok t ↔
      ∃ l used, w.resolve root.text none = some l ∧
        w.scan l = .ok used ∧
        t = Walker.found w root l used := by
  rw [Walker.walk]
  cases hl : w.resolve root.text none with
  | none => simp
  | some l =>
    cases hs : w.scan l with
    | error fault => simp [hs]
    | ok used => simp [hs, Walker.found, Walker.rootFacts, eq_comm]

/-- Two walks end alike if they look up and read the same root, and what its file renders is found
alike. -/
theorem walk_alike {v w : Walker} {root : Path} {R : Walked → Walked → Prop}
    (hl : v.resolve root.text none = w.resolve root.text none)
    (hs : ∀ l, w.resolve root.text none = some l → v.scan l = w.scan l)
    (h : ∀ l used, w.resolve root.text none = some l → w.scan l = .ok used →
      R (w.found root l used) (v.found root l used)) :
    Walked.Alike R (w.walk root) (v.walk root) := by
  rw [Walker.walk, Walker.walk, hl]
  cases hr : w.resolve root.text none with
  | none => exact .error _
  | some l =>
    simp only [hs l hr]
    cases hu : w.scan l with
    | error fault => exact .error _
    | ok used => exact .ok (h l used hr hu)

end RenderTree
