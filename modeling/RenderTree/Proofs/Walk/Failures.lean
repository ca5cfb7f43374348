import RenderTree.Proofs.Tree.Lineage
import RenderTree.Proofs.Walk.Errors
import RenderTree.Proofs.Walk.WellFormed

/-!
# Failures and what is told of them

A component whose file is at fault loses its path, and looks like one that has no file. That there
was a file is told by the list of errors alone, which has to name each such component once and in
its place. Only a fault in the file of the root, or no such file, ends a walk.

* `Walker.Faulty` — a file that cannot be read, is no text, or whose text is no module.
* `Walker.Fails` — a component whose file is to be read and is faulty.
* `Walker.failure?` — its fault, and `failure?_eq_some_iff`: there is one exactly if it fails.
* `walk_eq_error_iff` — when a walk finds nothing, and why.
* `Walked.ErrorsFit` — the errors are those of the components that fail, in their order.
* `walk_reports_failures` — both of this for every walk.
* `walk_tooDeep` — a root whose file there is nothing wrong with, and which cannot be read.
-/

namespace RenderTree

open RenderTree.Text

/-! ### Faulty files -/

/-- The file at a path cannot be read, or cannot be decoded, or the text in it cannot be parsed. -/
inductive Walker.Faulty (w : Walker) (p : Path) : ScanFault → Prop where
  | unreadable {t : Trouble} (fault : w.read p.text = .error t) : Faulty w p (.trouble t)
  | undecodable {bytes : List UInt8} {f : ByteFault} (there : w.read p.text = .ok bytes)
      (fault : decode bytes = .error f) : Faulty w p (.undecodable f)
  | unparsable {bytes : List UInt8} {text : String} {e : Source.ReadError}
      (there : w.read p.text = .ok bytes) (decoded : decode bytes = .ok text)
      (fault : w.parse (unixLines text) = .error e) : Faulty w p (.unparsable e)

/-- What a file renders is not known exactly if the file is faulty. -/
theorem scan_eq_error_iff {w : Walker} {p : Path} {fault : ScanFault} :
    w.scan p = .error fault ↔ w.Faulty p fault := by
  rw [Walker.scan]
  constructor
  · intro h
    -- A file is read, decoded and parsed, and each of these can fail.
    cases hr : w.read p.text with
    | error t =>
      simp only [hr, Except.error.injEq] at h
      exact h ▸ .unreadable hr
    | ok bytes =>
      cases ht : decode bytes with
      | error f =>
        simp only [hr, ht, Except.error.injEq] at h
        exact h ▸ .undecodable hr ht
      | ok text =>
        cases hm : w.parse (unixLines text) with
        | error e =>
          simp only [hr, ht, hm, Except.error.injEq] at h
          exact h ▸ .unparsable hr ht hm
        | ok m => simp [hr, ht, hm] at h
  · intro h
    cases h with
    | unreadable fault => simp only [fault]
    | undecodable there fault => simp only [there, fault]
    | unparsable there decoded fault => simp only [there, decoded, fault]

/-! ### Components that fail -/

namespace Walker

variable {w : Walker} {l : Path} {above : List Path} {b : Binding} {c p : Component}
  {errors : List ScanError} {ancestors : List Component} {x : Component × List Component}
  {e : ScanError}

/-- The file that a component stands for, looked up from the nearest of its proper ancestors. -/
def sought (w : Walker) (x : Component × List Component) : Option Path :=
  x.2.head?.bind fun p => w.target p x.1

/-- Whether a component below others stands for no file. -/
def isMissing (w : Walker) (x : Component × List Component) : Bool :=
  x.2 ≠ [] && (w.sought x).isNone

/-- A component with its proper ancestors fails with an error: its file is none of theirs, it does
not lie too deep, and the file is faulty. -/
structure Fails (w : Walker) (x : Component × List Component) (e : ScanError) : Prop where
  file : w.sought x = some e.file
  new : ∀ a ∈ x.2, a.facts.path ≠ some e.file
  near : ∀ k, w.options.scanDepth = some k → x.1.facts.depth ≤ k.val
  faulty : w.Faulty e.file e.fault

/-- The error that a component with its proper ancestors fails with. -/
def failure? (w : Walker) (x : Component × List Component) : Option ScanError :=
  (w.sought x).bind fun l =>
    if x.2.any (fun a => a.facts.path = some l) then none
    else if w.options.reads x.1.facts.depth then
      match w.scan l with
      | .error fault => some ⟨l, fault⟩
      | .ok _ => none
    else none

/-- **Failures.** A component has an error exactly if it fails with it. -/
theorem failure?_eq_some_iff : w.failure? x = some e ↔ w.Fails x e := by
  obtain ⟨file, fault⟩ := e
  rw [failure?, Option.bind_eq_some_iff]
  constructor
  · rintro ⟨l, hl, h⟩
    split at h
    · cases h
    next hnew =>
      split at h
      next hnear =>
        split at h
        next fault' hscan =>
          rw [Option.some.injEq, ScanError.mk.injEq] at h
          obtain ⟨rfl, rfl⟩ := h
          refine ⟨hl, ?_, reads_iff.1 hnear, scan_eq_error_iff.1 hscan⟩
          simpa using hnew
        next => cases h
      next => cases h
  · rintro ⟨hl, hnew, hnear, hfaulty⟩
    refine ⟨file, hl, ?_⟩
    -- The three checks are those of the definition.
    have hscan : w.scan file = .error fault := scan_eq_error_iff.2 hfaulty
    have hany : ¬ x.2.any (fun a => a.facts.path = some file) = true := by simpa using hnew
    rw [if_neg hany, if_pos (reads_iff.2 hnear), hscan]

instance (w : Walker) (x : Component × List Component) : Decidable (∃ e, w.Fails x e) :=
  decidable_of_iff (w.failure? x).isSome (by
    rw [Option.isSome_iff_exists]
    simp only [failure?_eq_some_iff])

/-! ### Components of a walk -/

/-- Where a component was handled, its failure is the fault for which it remained unresolved. -/
theorem Exit.failure?_eq (hp : w.OnWay l above p ancestors)
    (h : w.Exit l above (ancestors.length + 1) b c errors) :
    w.failure? (c, p :: ancestors) = w.fault? (p, c) := by
  have htarget : w.sought (c, p :: ancestors) = w.lookUp l b := h.target_eq hp.path
  have hdepth : c.facts.depth = ancestors.length + 1 := h.depth_eq
  have hmem : ∀ x : Path,
      (p :: ancestors).any (fun a => a.facts.path = some x) = true ↔ x ∈ l :: above := by
    intro x
    rw [hp.mem_iff]
    simp
  rw [failure?, htarget, hdepth]
  -- Only the status of a component tells which exit it took, so both sides are worked out for each.
  cases h with
  | missing found => rw [found, fault?_of_target rfl, w.target_eq_lookUp hp.path rfl, found]; rfl
  | cycle found onWay =>
    rw [found, Option.bind_some, if_pos ((hmem _).2 onWay), fault?_of_status (by simp)]
  | beyond found new deep =>
    rw [found, Option.bind_some, if_neg (mt (hmem _).1 new), deep, fault?_of_status (by simp)]
    rfl
  | faulty found new near scanned =>
    rw [found, Option.bind_some, if_neg (mt (hmem _).1 new), if_pos near, scanned,
      fault?_of_target rfl, w.target_eq_lookUp hp.path rfl, found, Option.bind_some, scanned]
  | opened found new near scanned =>
    rw [found, Option.bind_some, if_neg (mt (hmem _).1 new), if_pos near, scanned,
      fault?_of_status (by simp)]

/-- A component that was handled remained unresolved exactly if it fails or has no file. -/
theorem Exit.unresolved_iff (hp : w.OnWay l above p ancestors)
    (h : w.Exit l above (ancestors.length + 1) b c errors) :
    c.facts.status = .unresolved ↔
      (w.failure? (c, p :: ancestors)).isSome ∨ w.isMissing (c, p :: ancestors) := by
  have htarget : w.sought (c, p :: ancestors) = w.lookUp l b := h.target_eq hp.path
  rw [h.failure?_eq hp, isMissing, htarget]
  cases h with
  | missing found => simp [found, unresolved]
  | cycle found | beyond found | opened found =>
    rw [fault?_of_status (by simp), found]
    simp
  | faulty found new near scanned =>
    rw [fault?_of_target rfl, w.target_eq_lookUp hp.path rfl, found, Option.bind_some, scanned]
    simp [unresolved]

end Walker

/-! ### Whole walks -/

/-- The errors of a walk tell of all that fails. -/
structure Walked.ErrorsFit (t : Walked) (w : Walker) : Prop where
  /-- There is one message for each component that fails, in the order of the components. -/
  listed : List.Forall₂
    (fun e x => w.Fails x e ∧
      e.message = "Error scanning " ++ e.file.text ++ ": " ++ e.fault.message e.file)
    t.errors (t.root.lineages.filter (fun x => ∃ e, w.Fails x e))
  /-- All other unresolved components are those that have no file. -/
  count : t.root.count .unresolved = t.errors.length + t.root.lineages.countP w.isMissing

/-- If the elements with one property are those with either of two others, which exclude each other,
they are as many as both of these together. -/
theorem countP_eq_add {α : Type} {p q r : α → Bool} {xs : List α}
    (h : ∀ x ∈ xs, p x = true ↔ q x = true ∨ r x = true)
    (hne : ∀ x ∈ xs, q x = true → r x = false) : xs.countP p = xs.countP q + xs.countP r := by
  induction xs with
  | nil => rfl
  | cons x xs ih =>
    have hx := h x List.mem_cons_self
    have hnex := hne x List.mem_cons_self
    have hxs := ih (fun y hy => h y (List.mem_cons_of_mem _ hy))
      (fun y hy => hne y (List.mem_cons_of_mem _ hy))
    rw [List.countP_cons, List.countP_cons, List.countP_cons, hxs]
    cases hq : q x <;> cases hr : r x <;> simp_all <;> omega

/-- Elements that a function picks are related to what it makes of them. -/
theorem forall₂_filterMap {α β : Type} {f : α → Option β} {p : α → Bool} {R : β → α → Prop}
    {xs : List α} (hp : ∀ x, p x = (f x).isSome) (h : ∀ x y, f x = some y → R y x) :
    List.Forall₂ R (xs.filterMap f) (xs.filter p) := by
  induction xs with
  | nil => exact .nil
  | cons x xs ih =>
    cases hx : f x with
    | none =>
      have hpx : p x = false := by rw [hp, hx]; rfl
      rw [List.filterMap_cons_none hx, List.filter_cons_of_neg (by simp [hpx])]
      exact ih
    | some y =>
      have hpx : p x = true := by rw [hp, hx]; rfl
      rw [List.filterMap_cons_some hx, List.filter_cons_of_pos hpx]
      exact .cons (h x y hx) ih

section Walk

variable {w : Walker} {root : Path} {t : Walked} {e : WalkError}
  {c p : Component} {above : List Component}

/-- **When a walk fails.** A walk finds nothing exactly if the root has no file, or a faulty one, and
this is what it says then. -/
theorem walk_eq_error_iff :
    w.walk root = .error e ↔
      (w.resolve root.text none = none ∧ e = .rootNotFound root) ∨
        ∃ l fault, w.resolve root.text none = some l ∧ w.Faulty l fault ∧
          e = .rootUnreadable l fault := by
  rw [Walker.walk]
  -- The root is resolved, and then its file is read.
  cases hl : w.resolve root.text none with
  | none => simp [eq_comm]
  | some l =>
    cases hs : w.scan l with
    | error fault =>
      have hfaulty := scan_eq_error_iff.1 hs
      simp only [hs, Except.error.injEq, Option.some.injEq, reduceCtorEq, false_and, false_or]
      constructor
      · rintro rfl
        exact ⟨l, fault, rfl, hfaulty, rfl⟩
      · rintro ⟨l', fault', rfl, hfaulty', rfl⟩
        rw [scan_eq_error_iff.2 hfaulty', Except.error.injEq] at hs
        rw [hs]
    | ok used =>
      simp only [hs, reduceCtorEq, Option.some.injEq, false_and, false_or, false_iff]
      rintro ⟨l', fault', rfl, hfaulty', -⟩
      rw [scan_eq_error_iff.2 hfaulty'] at hs
      cases hs

/-- The root of a walk was scanned. -/
theorem branch_nil (h : w.walk root = .ok t) (hb : t.root.Branch c []) :
    c.facts.status = .scanned := by
  obtain ⟨l, -, -, hl⟩ := walk_onWay_root h
  cases hb
  exact hl.status

/-- The failure of a component of a walk is its fault, if it is not the root. -/
theorem failure?_eq_bind_edge? (h : w.walk root = .ok t)
    {x : Component × List Component} (hx : x ∈ t.root.lineages) :
    w.failure? x =
      (Component.edge? x).bind w.fault? := by
  obtain ⟨c, above⟩ := x
  cases above with
  | nil =>
    -- The root stands below nothing, so neither side has anything to look up.
    rfl
  | cons p above =>
    obtain ⟨l, ls, b, used, errors, hl, -, -, hexit⟩ :=
      branch_exit h (Component.branch_of_mem_lineages hx)
    exact hexit.failure?_eq hl

/-- The errors of a walk are the failures of its components, in their order. -/
theorem walk_errors_eq_failures (h : w.walk root = .ok t) :
    t.errors = t.root.lineages.filterMap w.failure? := by
  rw [walk_errors h, Component.edges_eq_filterMap_lineages, List.filterMap_filterMap]
  exact List.filterMap_congr fun x hx => (failure?_eq_bind_edge? h hx).symm

/-- A component of a walk is unresolved exactly if it fails or has no file. -/
theorem unresolved_iff_of_mem_lineages (h : w.walk root = .ok t)
    {x : Component × List Component} (hx : x ∈ t.root.lineages) :
    x.1.facts.status = .unresolved ↔
      (w.failure? x).isSome ∨ w.isMissing x := by
  obtain ⟨c, above⟩ := x
  have hb := Component.branch_of_mem_lineages hx
  cases above with
  | nil =>
    show c.facts.status = .unresolved ↔ false = true ∨ false = true
    rw [branch_nil h hb]
    simp
  | cons p above =>
    obtain ⟨l, ls, b, used, errors, hl, -, -, hexit⟩ := branch_exit h hb
    exact hexit.unresolved_iff hl

/-- A walk has as many unresolved components as there are errors and components without a file. -/
theorem walk_count_unresolved (h : w.walk root = .ok t) :
    t.root.count .unresolved =
      t.errors.length + t.root.lineages.countP w.isMissing := by
  rw [walk_errors_eq_failures h, List.length_filterMap_eq_countP, Component.count,
    ← Component.map_fst_lineages, List.countP_map]
  apply countP_eq_add
  · intro x hx
    rw [Function.comp_apply, beq_iff_eq]
    exact unresolved_iff_of_mem_lineages h hx
  · intro x _ hfail
    -- What fails has a file.
    obtain ⟨e, he⟩ := Option.isSome_iff_exists.1 hfail
    have hfile := (Walker.failure?_eq_some_iff.1 he).file
    simp [Walker.isMissing, hfile]

/-- **Failures.** In the end of a walk all errors fit. -/
theorem walk_errorsFit (h : w.walk root = .ok t) : t.ErrorsFit w where
  listed := by
    rw [walk_errors_eq_failures h]
    apply forall₂_filterMap
    · intro x
      rw [Bool.eq_iff_iff, decide_eq_true_eq, Option.isSome_iff_exists]
      simp only [Walker.failure?_eq_some_iff]
    · intro x e he
      exact ⟨Walker.failure?_eq_some_iff.1 he, rfl⟩
  count := walk_count_unresolved h

/-- **Failures are reported.** A walk finds nothing exactly if its root has no file, or one that
cannot be read, decoded or parsed. Otherwise its errors tell of each component, in the order of the
tree, whose file is none of its ancestors', does not lie too deep and cannot be read, decoded or
parsed, and of nothing else; and the unresolved components are these and those that have no file. -/
theorem walk_reports_failures (w : Walker) (root : Path) :
    (∀ e, w.walk root = .error e ↔
      (w.resolve root.text none = none ∧ e = .rootNotFound root) ∨
        ∃ l fault, w.resolve root.text none = some l ∧ w.Faulty l fault ∧
          e = .rootUnreadable l fault) ∧
      ∀ t, w.walk root = .ok t → t.ErrorsFit w :=
  ⟨fun _ => walk_eq_error_iff, fun _ => walk_errorsFit⟩

/-- The project with a file at fault has its errors in place. -/
theorem cyclicProject_reports_failures :
    ∃ t, cyclicProject.walk (Path.ofText "App") = .ok t ∧ t.ErrorsFit cyclicProject := by
  obtain ⟨t, ht⟩ := cyclicProject_walk
  exact ⟨t, ht, (walk_reports_failures cyclicProject (Path.ofText "App")).2 t ht⟩

end Walk

/-! ### A file that is too deep to be read -/

/-- A name that takes as many bytes as a name can, or almost. -/
def longName : Text := List.replicate 63 (.char '📁')

/-- The directory that is so many of these names deep. -/
def deepDirectory (n : Nat) : Location :=
  ⟨List.replicate n longName, by
    intro s hs
    rw [List.eq_of_mem_replicate hs]
    decide⟩

/-- A file in such a directory. -/
def deepFile : Location :=
  (deepDirectory 17).child "Deep.js" (by decide)

/-- A root in a directory so deep that the path of it is too long to be read. -/
def deepProject : Walker where
  disk := ⟨(deepFile, .file []) ::
    (List.range 17).map fun k => (deepDirectory (k + 1), .directory)⟩
  cwd := deepDirectory 17

/-- The path of that root. -/
def deepPath : Path := deepFile.toPath

/-- The root of the project has its file. -/
theorem deepProject_resolve :
    deepProject.resolve (Path.ofText "Deep").text none = some deepPath := by
  have hlinkless : deepProject.disk.Linkless := by
    intro x hx target
    rcases List.mem_cons.1 hx with rfl | hx
    · simp
    · obtain ⟨k, -, rfl⟩ := List.mem_map.1 hx
      simp
  rw [Walker.resolve, hlinkless.resolve_eq]
  decide +kernel

/-- What can be found from the directory cannot be read by its whole path. -/
theorem deepProject_faulty : deepProject.Faulty deepPath (.trouble .nameTooLong) := by
  have hrefused : Disk.refused? deepPath.text = some .nameTooLong := by decide +kernel
  apply Walker.Faulty.unreadable
  rw [Host.read, Disk.read, Disk.find, hrefused]

/-- There is nothing in the file that could not be parsed. -/
theorem deepProject_parse : ∃ m, deepProject.parse (unixLines "") = .ok m := by
  have hsome : (deepProject.parse (unixLines "")).toOption.isSome = true := by decide +kernel
  cases hm : deepProject.parse (unixLines "") with
  | error e =>
    rw [hm] at hsome
    cases hsome
  | ok m => exact ⟨m, rfl⟩

/-- **Too deep.** The root resolves to a regular file, and what is in that can be decoded and parsed,
but its real path is longer than a path may be, and so the walk finds nothing. -/
theorem walk_tooDeep :
    deepProject.resolve (Path.ofText "Deep").text none = some deepPath ∧
      deepProject.disk.bytes? deepFile = some [] ∧
      decode [] = .ok "" ∧ (∃ m, deepProject.parse (unixLines "") = .ok m) ∧
      deepProject.walk (Path.ofText "Deep") =
        .error (.rootUnreadable deepPath (.trouble .nameTooLong)) := by
  have hbytes : deepProject.disk.bytes? deepFile =
      some [] := by
    decide +kernel
  refine ⟨deepProject_resolve, hbytes, rfl, deepProject_parse, ?_⟩
  rw [walk_eq_error_iff]
  exact .inr ⟨_, _, deepProject_resolve, deepProject_faulty, rfl⟩

end RenderTree
