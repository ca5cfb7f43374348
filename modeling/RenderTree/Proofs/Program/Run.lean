import RenderTree.Program
import RenderTree.Proofs.Report.Writing
import RenderTree.Proofs.Walk.Way

/-!
# How a run ends

A run passes five stages: its options are made, the walk, the look at what it found, the presentation
and the report. It can end at all of them but the fourth. Whatever is printed to the standard output
or written to the disk belongs to the last one, and only if nothing is in its way, or nothing but
surrogates in the report: then the file that the output denotes is left empty.

* `Run.Ends` — the ends of a run, each with the conditions under which it comes to it.
* `Run.ends_run` — a run comes to one of them.
* `Outcome.Fits` — the number a run ends with, and what it leaves, by what it was asked for.
* `run_fits` — the outcome of every run fits.
* `run_garbledProject` — a run that empties a file, and ends with an error.
-/

namespace RenderTree

open RenderTree.Text

variable {d : Disk} {cwd : Location} {host : Host} {root : Text} {c : Configuration}
  {output : Option Text}
  {t t' : Walked}

/-- Some child has a file. -/
theorem Component.hasResolvedChildren_iff {component : Component} :
    component.hasResolvedChildren = true ↔
      ∃ child ∈ component.children, child.facts.path.isSome := by
  rw [Component.hasResolvedChildren, List.any_eq_true]

/-- No child has a file. -/
theorem Component.hasResolvedChildren_eq_false_iff {component : Component} :
    component.hasResolvedChildren = false ↔
      ∀ child ∈ component.children, child.facts.path = none := by
  simp [Component.hasResolvedChildren]

/-- An output names none if it is not given, or empty. -/
theorem outputOf_eq_none_iff : outputOf output = none ↔ output = none ∨ output = some [] := by
  cases output with
  | none => simp [outputOf]
  | some o =>
    by_cases ho : o = [] <;> simp [outputOf, ho]

/-- A report has an output if one is named that is not empty. -/
theorem outputOf_eq_some_iff {p : Path} :
    outputOf output = some p ↔ ∃ o, output = some o ∧ o ≠ [] ∧ Path.ofText o = p := by
  cases output with
  | none => simp [outputOf]
  | some o =>
    by_cases ho : o = [] <;> simp [outputOf, ho]

/-! ### Stages -/

/-- An output that is named can be written to. -/
def Disk.IsUsable (d : Disk) (cwd : Location) (output : Option Text) : Prop :=
  ∀ o, output = some o → o ≠ [] → ∃ l, d.IsTarget cwd (Path.ofText o).text l

/-- An output can be used if it is none or a target. -/
theorem isUsable_iff :
    d.IsUsable cwd output ↔ ∀ p, outputOf output = some p → ∃ l, d.IsTarget cwd p.text l := by
  simp only [outputOf_eq_some_iff]
  constructor
  · rintro h p ⟨o, rfl, ho, rfl⟩
    exact h o rfl ho
  · rintro h o rfl ho
    exact h _ ⟨o, rfl, ho, rfl⟩

namespace Configuration

/-- The options of the configuration can be made, and the walk by them finds a tree. -/
def Finds (c : Configuration) (host : Host) (root : Text) (t : Walked) : Prop :=
  ∃ o, c.walkOptions host.disk host.cwd = .ok o ∧
    Walker.walk { host with options := o } (Path.ofText root) = .ok t

/-- The options of the configuration can be made, but the walk by them finds nothing. -/
def Misses (c : Configuration) (host : Host) (root : Text) : Prop :=
  ∃ o e, c.walkOptions host.disk host.cwd = .ok o ∧
    Walker.walk { host with options := o } (Path.ofText root) = .error e

/-- What comes of reporting a tree by the configuration. -/
def write (c : Configuration) (host : Host) (output : Option Text) (t : Walked) :
    Except ReportError Report.Written :=
  Report.write host.disk host.cwd (t.root.present c.presentation) (outputOf output) c.format.name

/-- The text of a report by the configuration. -/
def content (c : Configuration) (t : Walked) : Text :=
  Report.content (t.root.present c.presentation) c.format

/-- What is found is determined. -/
theorem Finds.unique (h : c.Finds host root t) (h' : c.Finds host root t') : t' = t := by
  obtain ⟨o, ho, hw⟩ := h
  obtain ⟨o', ho', hw'⟩ := h'
  obtain rfl : o = o' := by simpa [ho] using ho'
  simpa [hw] using hw'.symm

/-- What finds a tree does not miss it. -/
theorem Finds.not_misses (h : c.Finds host root t) : ¬ c.Misses host root := by
  obtain ⟨o, ho, hw⟩ := h
  rintro ⟨o', e, ho', hw'⟩
  obtain rfl : o = o' := by simpa [ho] using ho'
  simp [hw] at hw'

/-- Without options there is no walk. -/
theorem Finds.options_ne (h : c.Finds host root t) (e : Disk.Unreal) :
    c.walkOptions host.disk host.cwd ≠ .error e := by
  obtain ⟨o, ho, -⟩ := h
  simp [ho]

/-- A walk that finds nothing had its options. -/
theorem Misses.options_ne (h : c.Misses host root) (e : Disk.Unreal) :
    c.walkOptions host.disk host.cwd ≠ .error e := by
  obtain ⟨o, -, ho, -⟩ := h
  simp [ho]

/-- A report by a configuration is written exactly if it is a string and its output can be written
to. -/
theorem exists_write_iff (c : Configuration) (host : Host) (output : Option Text)
    (t : Walked) :
    (∃ w, c.write host output t = .ok w) ↔
      (∃ s, toString? (c.content t) = .ok s) ∧ host.disk.IsUsable host.cwd output := by
  rw [isUsable_iff]
  exact Report.exists_write_iff

/-- The errors that are not reported are those of an output that is no path, and of surrogates. -/
theorem write_unreported_iff (c : Configuration) (host : Host) (output : Option Text)
    (t : Walked) :
    (∃ e, c.write host output t = .error e ∧ e.isReported = false) ↔
      (∃ o u, output = some o ∧ o ≠ [] ∧ Disk.unnamable? (Path.ofText o).text = some u) ∨
        (∃ f, toString? (c.content t) = .error f) ∧ host.disk.IsUsable host.cwd output := by
  rw [isUsable_iff]
  refine Report.write_unreported_iff.trans (or_congr ?_ Iff.rfl)
  simp only [outputOf_eq_some_iff]
  constructor
  · rintro ⟨p, u, ⟨o, rfl, ho, rfl⟩, hu⟩
    exact ⟨o, u, rfl, ho, hu⟩
  · rintro ⟨o, u, rfl, ho, hu⟩
    exact ⟨_, u, ⟨o, rfl, ho, rfl⟩, hu⟩

/-- A report by a configuration that is written is delivered. -/
theorem delivered_of_write {w : Report.Written} (h : c.write host output t = .ok w) :
    ∃ s, toString? (c.content t) = .ok s ∧
      Report.Delivered host.disk host.cwd s (outputOf output) w.stdout w.disk :=
  Report.delivered_of_write h

end Configuration

/-! ### Ends -/

/-- The number that a run ends with if its report cannot be written. -/
def ReportError.exit (e : ReportError) : Nat :=
  if e.isReported then Outcome.failure else Outcome.misuse

/-- An error that is reported ends a run as a failure. -/
theorem ReportError.exit_eq_failure_iff {e : ReportError} :
    e.exit = Outcome.failure ↔ e.isReported = true := by
  rw [exit]
  cases e.isReported <;> decide

/-- Any other error ends a run as a misuse. -/
theorem ReportError.exit_eq_misuse_iff {e : ReportError} :
    e.exit = Outcome.misuse ↔ e.isReported = false := by
  rw [exit]
  cases e.isReported <;> decide

/-- **The ends.** The number that a run ends with, what it prints to the standard output and the disk
that it leaves, by the stage it ends at. -/
inductive Run.Ends (host : Host) (root : Text) (c : Configuration)
    (output : Option Text) : Nat → String → Disk → Prop where
  /-- Its options cannot be made. -/
  | unset {e : Disk.Unreal} (options : c.walkOptions host.disk host.cwd = .error e) :
      Ends host root c output Outcome.misuse "" host.disk
  /-- The walk finds nothing. -/
  | missed (misses : c.Misses host root) : Ends host root c output Outcome.failure "" host.disk
  /-- The walk finds no component that has a file. -/
  | empty {t : Walked} (finds : c.Finds host root t)
      (none : ∀ child ∈ t.root.children, child.facts.path = none) :
      Ends host root c output Outcome.failure "" host.disk
  /-- The report cannot be written. -/
  | unwritten {t : Walked} {e : ReportError} (finds : c.Finds host root t)
      (some : ∃ child ∈ t.root.children, child.facts.path.isSome)
      (write : c.write host output t = .error e) :
      Ends host root c output e.exit "" (Report.left host.disk host.cwd (outputOf output) e)
  /-- The report is written. -/
  | written {t : Walked} {w : Report.Written} (finds : c.Finds host root t)
      (some : ∃ child ∈ t.root.children, child.facts.path.isSome)
      (write : c.write host output t = .ok w) :
      Ends host root c output Outcome.success w.stdout w.disk

namespace Run

variable {n n' : Nat} {s s' : String} {k k' : Disk}

/-- A run comes to one of the ends. -/
theorem ends_run (host : Host) (root : Text) (c : Configuration)
    (output : Option Text) (verbose : Bool) :
    Ends host root c output (run host root c output verbose).exit
      (run host root c output verbose).stdout (run host root c output verbose).disk := by
  -- The run takes its steps in turn: options, walk, children, report.
  unfold run
  split
  next e ho => exact .unset ho
  next o ho =>
    split
    next e hw => exact .missed ⟨o, e, ho, hw⟩
    next t hw =>
      have hfinds : c.Finds host root t := ⟨o, ho, hw⟩
      unfold report
      by_cases hchild : t.root.hasResolvedChildren = true
      · have hsome := Component.hasResolvedChildren_iff.1 hchild
        simp only [hchild, if_true]
        split
        next w hr => exact .written hfinds hsome (Report.write_eq_ok_iff_attempt.2 hr)
        next e w hr =>
          have hend := Ends.unwritten hfinds hsome (Report.write_eq_error_iff_attempt.2 ⟨_, hr⟩)
          obtain rfl := Report.eq_of_attempt_error hr
          exact hend
      · have hnone : t.root.hasResolvedChildren = false := by simpa using hchild
        rw [if_neg hchild]
        exact .empty hfinds (Component.hasResolvedChildren_eq_false_iff.1 hnone)

/-- A run comes to one end only: whatever was decided at an earlier stage is decided. -/
theorem Ends.unique (h : Ends host root c output n s k) (h' : Ends host root c output n' s' k') :
    n' = n ∧ s' = s ∧ k' = k := by
  -- Two different ends need two answers of one stage.
  cases h <;> cases h' <;>
    grind [Configuration.Finds.unique, Configuration.Finds.not_misses,
      Configuration.Finds.options_ne, Configuration.Misses.options_ne]

/-- A run succeeds if a tree with a resolved child is found and its report is written. -/
theorem Ends.success_iff (h : Ends host root c output n s k) :
    n = Outcome.success ↔
      ∃ t, c.Finds host root t ∧ (∃ child ∈ t.root.children, child.facts.path.isSome) ∧
        ∃ w, c.write host output t = .ok w := by
  constructor
  · rintro rfl
    generalize hn : Outcome.success = n at h
    cases h with
    | unset => cases hn
    | missed => cases hn
    | empty => cases hn
    | @unwritten t e => cases e <;> cases hn
    | written finds some write => exact ⟨_, finds, some, _, write⟩
  · rintro ⟨t, hfinds, hsome, w, hwrite⟩
    exact (h.unique (.written hfinds hsome hwrite)).1.symm

/-- A run fails if no tree is found, or one without a resolved child, or its report cannot be
written for a reason that is reported. -/
theorem Ends.failure_iff (h : Ends host root c output n s k) :
    n = Outcome.failure ↔
      c.Misses host root ∨
        ∃ t, c.Finds host root t ∧ ((∀ child ∈ t.root.children, child.facts.path = none) ∨
          (∃ child ∈ t.root.children, child.facts.path.isSome) ∧
            ∃ e, c.write host output t = .error e ∧ e.isReported = true) := by
  constructor
  · rintro rfl
    -- The number of an exit tells a failure from other ends.
    generalize hn : Outcome.failure = n at h
    cases h with
    | unset => cases hn
    | missed misses => exact .inl misses
    | empty finds none => exact .inr ⟨_, finds, .inl none⟩
    | @unwritten t e finds some write =>
      have he : e.isReported = true := ReportError.exit_eq_failure_iff.1 hn.symm
      exact .inr ⟨t, finds, .inr ⟨some, e, write, he⟩⟩
    | written => cases hn
  · -- An end is the only one, so that its number is known.
    rintro (hmisses | ⟨t, hfinds, hnone | ⟨hsome, e, hwrite, he⟩⟩)
    · exact (h.unique (.missed hmisses)).1.symm
    · exact (h.unique (.empty hfinds hnone)).1.symm
    · rw [← ReportError.exit_eq_failure_iff.2 he]
      exact (h.unique (.unwritten hfinds hsome hwrite)).1.symm

/-- A run ends as a misuse if there are no options, or the report fails for another reason. -/
theorem Ends.misuse_iff (h : Ends host root c output n s k) :
    n = Outcome.misuse ↔
      (∃ e, c.walkOptions host.disk host.cwd = .error e) ∨
        ∃ t, c.Finds host root t ∧ (∃ child ∈ t.root.children, child.facts.path.isSome) ∧
          ∃ e, c.write host output t = .error e ∧ e.isReported = false := by
  constructor
  · rintro rfl
    generalize hn : Outcome.misuse = n at h
    cases h with
    | unset options => exact .inl ⟨_, options⟩
    | missed => cases hn
    | empty => cases hn
    | @unwritten t e finds some write =>
      have he : e.isReported = false := ReportError.exit_eq_misuse_iff.1 hn.symm
      exact .inr ⟨t, finds, some, e, write, he⟩
    | written => cases hn
  · rintro (⟨e, ho⟩ | ⟨t, hfinds, hsome, e, hwrite, he⟩)
    · exact (h.unique (.unset ho)).1.symm
    · rw [← ReportError.exit_eq_misuse_iff.2 he]
      exact (h.unique (.unwritten hfinds hsome hwrite)).1.symm

/-- There are no other ends. -/
theorem Ends.exit_cases (h : Ends host root c output n s k) :
    n = Outcome.success ∨ n = Outcome.failure ∨ n = Outcome.misuse := by
  cases h with
  | unset => exact .inr (.inr rfl)
  | missed => exact .inr (.inl rfl)
  | empty => exact .inr (.inl rfl)
  | @unwritten t e =>
    cases he : e.isReported with
    | true => exact .inr (.inl (ReportError.exit_eq_failure_iff.2 he))
    | false => exact .inr (.inr (ReportError.exit_eq_misuse_iff.2 he))
  | written => exact .inl rfl

/-- There is a component with a file for the report, whose text has surrogates, and nothing else is in
its way. -/
def Garbles (c : Configuration) (host : Host) (root : Text) (output : Option Text)
    (t : Walked) (f : SymbolFault) : Prop :=
  c.Finds host root t ∧ (∃ child ∈ t.root.children, child.facts.path.isSome) ∧
    toString? (c.content t) = .error f ∧ host.disk.IsUsable host.cwd output

/-- A run that does not come to a report prints nothing to the standard output, and writes nothing,
unless its report is garbled. -/
theorem Ends.bare (h : Ends host root c output n s k) (hn : n ≠ Outcome.success) :
    s = "" ∧ (k = host.disk ∨ ∃ t f, Garbles c host root output t f) := by
  cases h with
  | written => exact absurd rfl hn
  | @unwritten t e finds some write =>
    refine ⟨rfl, ?_⟩
    -- Only an unencodable text is found after the output has been opened.
    cases e with
    | unencodable f =>
      right
      have hunreported := (c.write_unreported_iff host output t).1 ⟨_, write, rfl⟩
      rcases hunreported with ⟨o, u, hout, ho, hu⟩ | ⟨⟨g, hg⟩, husable⟩
      · -- An output that is no path has an error of its own.
        have hp : outputOf output = Option.some (Path.ofText o) := by
          rw [outputOf_eq_some_iff]
          exact ⟨o, hout, ho, rfl⟩
        rw [Configuration.write, hp, Report.write_eq_noPath hu] at write
        cases write
      · exact ⟨t, g, finds, some, hg, husable⟩
    | unsupportedFormat name => exact .inl rfl
    | notWritten p u => exact .inl rfl
    | noPath u => exact .inl rfl
  | _ => exact ⟨rfl, .inl rfl⟩

/-- A garbled report ends a run with an error, and the file that the output denotes is empty. -/
theorem Ends.garbled (h : Ends host root c output n s k) {f : SymbolFault}
    (hgarbles : Garbles c host root output t f) :
    n = Outcome.misuse ∧ s = "" ∧ k = Report.emptied host.disk host.cwd (outputOf output) := by
  obtain ⟨hfinds, hsome, hf, husable⟩ := hgarbles
  have hwrite : c.write host output t = .error (.unencodable f) :=
    Report.write_eq_unencodable hf (isUsable_iff.1 husable)
  exact h.unique (.unwritten hfinds hsome hwrite) |>.imp Eq.symm (And.imp Eq.symm Eq.symm)

/-- What a run with a report leaves. -/
theorem Ends.delivered (h : Ends host root c output Outcome.success s k) :
    ∃ t text, c.Finds host root t ∧ toString? (c.content t) = .ok text ∧
      Report.Delivered host.disk host.cwd text (outputOf output) s k := by
  obtain ⟨t, hfinds, hsome, w, hwrite⟩ := h.success_iff.1 rfl
  obtain ⟨-, rfl, rfl⟩ := h.unique (.written hfinds hsome hwrite)
  obtain ⟨text, htext, hdelivered⟩ := c.delivered_of_write hwrite
  exact ⟨t, text, hfinds, htext, hdelivered⟩

/-- A report without an output is printed. -/
theorem Ends.printed (h : Ends host root c output Outcome.success s k)
    (hout : output = none ∨ output = some []) :
    ∃ t, c.Finds host root t ∧ toString? (c.content t) = .ok s ∧ k = host.disk := by
  obtain ⟨t, text, hfinds, htext, hdelivered⟩ := h.delivered
  rw [outputOf_eq_none_iff.2 hout] at hdelivered
  cases hdelivered
  exact ⟨t, hfinds, htext, rfl⟩

/-- A report with an output is in the file that the output denotes. -/
theorem Ends.filed {o : Text} (h : Ends host root c (some o) Outcome.success s k) (ho : o ≠ []) :
    s = "" ∧ ∃ t text l, c.Finds host root t ∧ toString? (c.content t) = .ok text ∧
      host.disk.IsTarget host.cwd (Path.ofText o).text l ∧ Disk.WrittenAt l (encode text) host.disk k ∧
        k.read host.cwd (Path.ofText o).text = .ok (encode text) := by
  obtain ⟨t, text, hfinds, htext, hdelivered⟩ := h.delivered
  rw [outputOf_eq_some_iff.2 ⟨o, rfl, ho, rfl⟩] at hdelivered
  cases hdelivered with
  | filed target written reads =>
    exact ⟨rfl, t, text, _, hfinds, htext, target, written, reads⟩

end Run

/-! ### Outcomes -/

/-- An outcome fits what the run was asked for. Its number is that of the first stage at which
something was in the way, or zero. Without a report it leaves nothing, but for a file that is emptied;
with one it leaves that, where the output says and nowhere else. -/
structure Outcome.Fits (r : Outcome) (host : Host) (root : Text) (c : Configuration)
    (output : Option Text) : Prop where
  /-- The tree of the root component is found, one of its children has a file, and the report is
  written. -/
  success : r.exit = 0 ↔
    ∃ t, c.Finds host root t ∧ (∃ child ∈ t.root.children, child.facts.path.isSome) ∧
      ∃ w, c.write host output t = .ok w
  /-- The walk finds no tree, or none with a child that has a file, or the report is refused. -/
  failure : r.exit = 1 ↔
    c.Misses host root ∨
      ∃ t, c.Finds host root t ∧ ((∀ child ∈ t.root.children, child.facts.path = none) ∨
        (∃ child ∈ t.root.children, child.facts.path.isSome) ∧
          ∃ e, c.write host output t = .error e ∧ e.isReported = true)
  /-- The options cannot be made, or the report ends in an error that is not reported. -/
  misuse : r.exit = 2 ↔
    (∃ e, c.walkOptions host.disk host.cwd = .error e) ∨
      ∃ t, c.Finds host root t ∧ (∃ child ∈ t.root.children, child.facts.path.isSome) ∧
        ∃ e, c.write host output t = .error e ∧ e.isReported = false
  exit_cases : r.exit = 0 ∨ r.exit = 1 ∨ r.exit = 2
  /-- A report is written if it is a string and there is no output, or one that can be written to. -/
  writable : ∀ t, (∃ w, c.write host output t = .ok w) ↔
    (∃ s, toString? (c.content t) = .ok s) ∧ host.disk.IsUsable host.cwd output
  /-- The errors that are not reported are those of an output that is no path, and of surrogates. -/
  unreported : ∀ t, (∃ e, c.write host output t = .error e ∧ e.isReported = false) ↔
    (∃ o u, output = some o ∧ o ≠ [] ∧ Disk.unnamable? (Path.ofText o).text = some u) ∨
      (∃ f, toString? (c.content t) = .error f) ∧ host.disk.IsUsable host.cwd output
  /-- Nothing is printed without a report, and nothing changed, unless the report is garbled. -/
  bare : r.exit ≠ 0 → r.stdout = "" ∧
    (r.disk = host.disk ∨ ∃ t f, Run.Garbles c host root output t f)
  /-- A garbled report leaves an empty file. -/
  garbled : ∀ t f, Run.Garbles c host root output t f →
    r.exit = 2 ∧ r.stdout = "" ∧ r.disk = Report.emptied host.disk host.cwd (outputOf output)
  /-- Without an output the report is printed. -/
  printed : r.exit = 0 → output = none ∨ output = some [] →
    ∃ t, c.Finds host root t ∧ toString? (c.content t) = .ok r.stdout ∧ r.disk = host.disk
  /-- With an output the report is in the file that the output denotes, and read from it. -/
  filed : ∀ o, r.exit = 0 → output = some o → o ≠ [] →
    r.stdout = "" ∧ ∃ t text l, c.Finds host root t ∧ toString? (c.content t) = .ok text ∧
      host.disk.IsTarget host.cwd (Path.ofText o).text l ∧
      Disk.WrittenAt l (encode text) host.disk r.disk ∧
      r.disk.read host.cwd (Path.ofText o).text = .ok (encode text)

/-- **Runs.** The outcome of a run fits what the run was asked for, whatever it tells about it. -/
theorem run_fits (host : Host) (root : Text) (c : Configuration)
    (output : Option Text) (verbose : Bool) :
    (run host root c output verbose).Fits host root c output := by
  have hends := Run.ends_run host root c output verbose
  generalize run host root c output verbose = r at hends
  exact {
    success := hends.success_iff
    failure := hends.failure_iff
    misuse := hends.misuse_iff
    exit_cases := hends.exit_cases
    writable := c.exists_write_iff host output
    unreported := c.write_unreported_iff host output
    bare := hends.bare
    garbled := fun _ _ hgarbles => hends.garbled hgarbles
    printed := by
      intro hr hout
      rw [show r.exit = Outcome.success from hr] at hends
      exact hends.printed hout
    filed := by
      rintro o hr rfl ho
      rw [show r.exit = Outcome.success from hr] at hends
      exact hends.filed ho }

/-! ### A run that empties a file -/

/-- What stands for the byte 255, which is no text. -/
def strayByte : Symbol :=
  .surrogate ⟨0x4FF, by decide⟩

/-- The name of a link with a stray byte in it. -/
def garbledName : Text :=
  strayByte :: ofString ".js"

/-- The file that a run is asked to write its report to. -/
def outputFile : Location := ⟨["out.txt"], by decide⟩

/-- A project whose root component is looked up by a link with a garbled name. -/
def garbledProject : Host where
  disk := ⟨[(Location.root.child garbledName (by decide), .link "App.js"),
    (appFile, .file (encode "import React from 'r';import App from './App';<App/>")),
    (outputFile, .file (encode "an older report\n"))]⟩
  cwd := .root

/-- A walker of the project. -/
def garbledWalker : Walker :=
  { garbledProject with options := {} }

/-- What is found in the project: the component that renders itself. -/
def garbledFound : Walked :=
  ⟨.node { name := [strayByte], path := some appFile.toPath, status := .scanned }
    [.node { Walker.fresh 1 ⟨"App", "./App"⟩ with path := some appFile.toPath, status := .cycle } []],
    []⟩

/-- The link with the garbled name is replaced by the file that it leads to. -/
theorem garbledProject_followed :
    (garbledProject.disk.followed .root (Path.ofText garbledName).text).path = .ofText "App.js" := by
  have hlink : garbledProject.disk.linkAt? .root .here garbledName (by decide) = some "App.js" := by
    decide +kernel
  have happ : garbledProject.disk.linkAt? .root .here "App.js" (by decide) = none := by
    decide +kernel
  have hinner : garbledProject.disk.follow .root [Path.here.child garbledName (by decide)]
      (Disk.startAt .here "App.js") (Disk.stepsOf "App.js") =
        ⟨Path.here.child "App.js" (by decide), true, [Path.here.child "App.js" (by decide)]⟩ := by
    have hstart : Disk.startAt .here "App.js" = .here := by decide
    show garbledProject.disk.follow .root _ _ [("App.js" : Text)] = _
    rw [hstart, Disk.follow_plain happ, Disk.follow_nil]
  rw [Disk.followed_text]
  show (garbledProject.disk.follow .root [] .here [garbledName]).path = _
  rw [Disk.follow_link hlink (by simp), hinner]
  dsimp only
  rw [if_pos rfl, Disk.follow_nil]
  decide

/-- The garbled name leads to the file. -/
theorem garbledProject_resolve :
    garbledWalker.resolve (Path.ofText garbledName).text none = some appFile.toPath := by
  have hchosen : garbledProject.disk.chosen? (fun _ => true) .root (Path.ofText garbledName).text
      none none = some (.ofText garbledName) := by
    decide +kernel
  rw [Walker.resolve, Disk.resolve]
  show (garbledProject.disk.chosen? (fun _ => true) .root (Path.ofText garbledName).text
    none none).map _ = _
  rw [hchosen, Option.map_some]
  show some (Path.absolute .root (garbledProject.disk.followed .root _).path) = _
  rw [garbledProject_followed]
  decide

/-- What the file renders is the file itself. -/
theorem garbledProject_lookUp :
    garbledWalker.lookUp appFile.toPath ⟨"App", "./App"⟩ = some appFile.toPath := by
  have hchosen : garbledProject.disk.chosen? (fun _ => true) .root "./App" (some appFile.toPath)
      none = some appFile.toPath := by
    decide +kernel
  have happ : garbledProject.disk.linkAt? .root .root "App.js" (by decide) = none := by
    decide +kernel
  have hpath : (garbledProject.disk.followed .root appFile.toPath.text).path = appFile.toPath := by
    rw [Disk.followed_text]
    show (garbledProject.disk.follow .root [] .root [("App.js" : Text)]).path = _
    rw [Disk.follow_plain happ, Disk.follow_nil]
    decide
  rw [Walker.lookUp, Walker.resolve, Disk.resolve]
  show (garbledProject.disk.chosen? (fun _ => true) .root "./App" (some appFile.toPath)
    none).map _ = _
  rw [hchosen, Option.map_some]
  show some (Path.absolute .root (garbledProject.disk.followed .root _).path) = _
  rw [hpath]
  decide

/-- The walk of the project finds a tree whose root has the garbled name. -/
theorem garbledProject_finds :
    ({} : Configuration).Finds garbledProject garbledName garbledFound := by
  have hscan : garbledWalker.scan appFile.toPath = .ok [⟨"App", "./App"⟩] :=
    scan_eq_ok_of_toOption (by decide +kernel)
  have hname : (Path.ofText garbledName).componentName = [strayByte] := by decide +kernel
  refine ⟨{}, rfl, walk_eq_ok_iff.2 ⟨_, _, garbledProject_resolve, hscan, ?_⟩⟩
  show garbledFound = garbledWalker.found (Path.ofText garbledName) appFile.toPath [⟨"App", "./App"⟩]
  rw [Walker.found, Walker.components_eq, Walker.rootFacts, hname]
  simp only [List.map_cons, List.map_nil, List.flatMap_cons, List.flatMap_nil]
  rw [(Walker.Exit.cycle garbledProject_lookUp List.mem_cons_self).component_eq]
  rfl

/-- The file is emptied, though the run ends with an error. -/
theorem run_garbledProject :
    let r := run garbledProject garbledName {} (some "out.txt")
    r.exit = 2 ∧ r.stdout = "" ∧ r.disk ≠ garbledProject.disk ∧
      garbledProject.disk.read .root "out.txt" = .ok (encode "an older report\n") ∧
        r.disk.read .root "out.txt" = .ok [] := by
  intro r
  -- The output can be written to, but the label of the root is no string.
  have htarget : garbledProject.disk.IsTarget .root (Path.ofText "out.txt").text outputFile :=
    ⟨by decide +kernel, .inr ⟨encode "an older report\n", by decide +kernel⟩⟩
  have husable : garbledProject.disk.IsUsable .root (some (ofString "out.txt")) := by
    intro o ho _
    obtain rfl := Option.some.inj ho
    exact ⟨outputFile, htarget⟩
  obtain ⟨f, hf⟩ : ∃ f, toString? (({} : Configuration).content garbledFound) = .error f :=
    ⟨⟨0, 1, ⟨0x4FF, by decide⟩⟩, by decide +kernel⟩
  have hgarbles : Run.Garbles {} garbledProject garbledName (some (ofString "out.txt"))
      garbledFound f :=
    ⟨garbledProject_finds, ⟨_, List.mem_cons_self, rfl⟩, hf, husable⟩
  obtain ⟨hexit, hstdout, hdisk⟩ :=
    (Run.ends_run garbledProject garbledName {} (some "out.txt") false).garbled hgarbles
  have hleft : Report.emptied garbledProject.disk .root (outputOf (some (ofString "out.txt"))) =
      garbledProject.disk.set outputFile (.file []) := Report.emptied_target htarget
  rw [show garbledProject.cwd = .root from rfl, hleft] at hdisk
  -- The older report is gone.
  have hold : garbledProject.disk.read .root "out.txt" = .ok (encode "an older report\n") := by
    decide +kernel
  have hnew : r.disk.read .root "out.txt" = .ok [] := by
    rw [show r.disk = _ from hdisk]
    exact htarget.read_written (Disk.writtenAt_set (by decide) [])
  refine ⟨hexit, hstdout, fun heq => ?_, hold, hnew⟩
  rw [heq, hold] at hnew
  exact absurd hnew (by decide +kernel)

end RenderTree
