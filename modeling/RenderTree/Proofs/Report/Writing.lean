import RenderTree.Proofs.Disk.Written
import RenderTree.Proofs.Text.Basic
import RenderTree.Report

/-!
# Written reports

A report goes to the file that an output names, or is printed if there is none. It is made before its
output is opened. What can still go wrong then is that its text is no string: a label with surrogates
in it is refused only when the file has been emptied.

* `Report.content` — a tree in a format, with the end of its last line.
* `Report.run_bind`, `Report.openOutput_run` — what one step of writing a report comes to.
* `Report.Ends`, `Report.ends_attempt` — what an attempt to write a report can come to.
* `Report.emptied`, `Report.eq_of_attempt_error` — what is left of an attempt that fails.
* `Report.Delivered` — what is left where a report was printed, and where it was written to a file.
* `Report.write_eq_ok_iff` — when a report is written, and what is left then.
* `Report.exists_write_iff`, `Report.write_unreported_iff` — which reports are written, and which of
  the others end in an error that is not reported.
* `Report.delivered_of_write` — a report that is written is delivered.
-/

namespace RenderTree

open RenderTree.Text

/-- A format is found by its name. -/
theorem Format.ofName?_name (f : Format) : Format.ofName? f.name = some f := by
  cases f <;> decide

/-- The names of formats are distinct as texts. -/
theorem Format.ofString_name_injective : Function.Injective fun f : Format => ofString f.name :=
  name_injective_of_find? ofName?_name

/-- What is found by a name has that name. -/
theorem Format.name_of_ofName? {name : Text} {f : Format} (h : Format.ofName? name = some f) :
    ofString f.name = name :=
  (find?_name_eq_some_iff ofName?_name).1 h

namespace Report

open Display (MemberOrder)

variable {disk disk' : Disk} {cwd l : Location} {tree : Display} {output : Option Path} {p : Path}
  {format : Format} {name : Text} {order : MemberOrder} {w w' : Written} {e : ReportError}
  {s : String} {f : SymbolFault}

/-- What a report consists of: a tree in a format, with the end of its last line. -/
def content (tree : Display) (format : Format) (order : MemberOrder := .labelFirst) : Text :=
  render tree format order ++ "\n"

/-- What is told when a report has been written to a file. -/
def writtenLine (p : Path) : String :=
  ("Component tree written: " ++ p.text ++ "\n" : Text).shown

/-- A report is a string exactly if the rendered tree is one. -/
theorem toString?_content (tree : Display) (format : Format) (order : MemberOrder) :
    toString? (content tree format order) =
      (toString? (render tree format order)).map (· ++ "\n") :=
  toString?_append_ofString _ _

/-- By the name of a format a tree is rendered in that format. -/
theorem renderNamed_name (tree : Display) (format : Format) (order : MemberOrder) :
    renderNamed tree format.name order = .ok (render tree format order) := by
  rw [renderNamed, Format.ofName?_name]

/-! ### Steps -/

/-- Of two steps the second one is made where the first one has led to, unless that has failed. -/
theorem run_bind {α β : Type} (x : Step α) (f : α → Step β) (w : Written) :
    (x >>= f).run.run w =
      match x.run.run w with
      | (.ok a, w') => (f a).run.run w'
      | (.error e, w') => (.error e, w') := by
  rw [ExceptT.run_bind, StateT.run_bind]
  rcases x.run.run w with ⟨_ | a, w'⟩ <;> rfl

/-- Nothing is changed by the look whether a text is a string. -/
theorem encodable_run (text : Text) (w : Written) :
    (encodable text).run.run w =
      match toString? text with
      | .ok s => (.ok s, w)
      | .error f => (.error (.unencodable f), w) := by
  rw [encodable]
  cases toString? text <;> rfl

/-- A text that is no string is not printed, not even its beginning. -/
theorem print_run (text : Text) (w : Written) :
    (print text).run.run w =
      match toString? text with
      | .ok s => (.ok (), { w with stdout := w.stdout ++ s })
      | .error f => (.error (.unencodable f), w) := by
  rw [print, run_bind, encodable_run]
  cases toString? text <;> rfl

/-- What is left when a text is to be appended. -/
theorem append_run (l : Location) (text : Text) (w : Written) :
    (append l text).run.run w =
      match toString? text with
      | .ok s => (.ok (), { w with disk := w.disk.append l (encode s) })
      | .error f => (.error (.unencodable f), w) := by
  rw [append, run_bind, encodable_run]
  cases toString? text <;> rfl

/-- If an output cannot be opened, nothing is changed. -/
theorem openOutput_run (w : Written) (cwd : Location) (p : Path) :
    (openOutput cwd p).run.run w =
      match w.disk.openEmpty cwd p.text with
      | .ok (l, disk) => (.ok l, { w with disk := disk })
      | .error t => (.error (if t.title?.isSome then .notWritten p t else .noPath t), w) := by
  rw [openOutput, run_bind]
  change (match w.disk.openEmpty cwd p.text with
    | .ok (l, disk) => _
    | .error t => _ : Step Location).run.run w = _
  split <;> rfl

/-! ### Attempts -/

/-- A format of another name is refused before anything is changed. -/
theorem attempt_unsupported (h : Format.ofName? name = none) (w : Written) (cwd : Location)
    (tree : Display) (output : Option Path) (order : MemberOrder) :
    attempt w cwd tree output name order = (.error (.unsupportedFormat name), w) := by
  rw [attempt, send, renderNamed, h]
  rfl

/-- A report is printed if no output is given. -/
theorem attempt_none (w : Written) (cwd : Location) (tree : Display) (format : Format)
    (order : MemberOrder) :
    attempt w cwd tree none format.name order =
      match toString? (content tree format order) with
      | .ok s => (.ok (), { w with stdout := w.stdout ++ s })
      | .error f => (.error (.unencodable f), w) := by
  rw [attempt, send, renderNamed_name]
  exact print_run _ w

/-- An output that cannot be opened ends an attempt with nothing changed. -/
theorem attempt_closed {t : Trouble} (h : w.disk.openEmpty cwd p.text = .error t) (tree : Display)
    (format : Format) (order : MemberOrder) :
    attempt w cwd tree (some p) format.name order =
      (.error (if t.title?.isSome then .notWritten p t else .noPath t), w) := by
  rw [attempt, send, renderNamed_name]
  change (openOutput cwd p >>= _).run.run w = _
  rw [run_bind, openOutput_run, h]

/-- A report is written to an output that is a target. If it is no string, the file is left empty. -/
theorem attempt_target (h : w.disk.IsTarget cwd p.text l) (tree : Display) (format : Format)
    (order : MemberOrder) :
    attempt w cwd tree (some p) format.name order =
      match toString? (content tree format order) with
      | .ok s => (.ok (), { w with
          disk := w.disk.set l (.file (encode s))
          stderr := w.stderr ++ writtenLine p })
      | .error f => (.error (.unencodable f), { w with disk := w.disk.set l (.file []) }) := by
  have hl := h.free.ne_root
  have hend : toString? (ofString "\n") = .ok "\n" := toString?_ofString _
  rw [attempt, send, renderNamed_name]
  change (openOutput cwd p >>= fun l => append l (render tree format order) >>= fun _ =>
    append l "\n" >>= fun _ => _).run.run w = _
  rw [run_bind, openOutput_run, Disk.openEmpty_eq_ok_iff.2 ⟨h, rfl⟩]
  dsimp only
  rw [run_bind, append_run, toString?_content]
  cases toString? (render tree format order) with
  | error f => rfl
  | ok s =>
    dsimp only [Except.map]
    rw [run_bind, append_run, hend]
    dsimp only
    -- What is written in two steps is there as one.
    rw [Disk.append_set_file hl, Disk.append_set_file hl, List.nil_append]
    have hencode : encode (s ++ "\n") = encode s ++ encode "\n" := by simp [encode]
    rw [hencode]
    rfl

/-- **The ends.** What an attempt to write a report comes to, by what is in its way. -/
inductive Ends (w : Written) (cwd : Location) (tree : Display) (name : Text) (order : MemberOrder) :
    Option Path → Except ReportError Unit × Written → Prop where
  /-- There is no format of the name. -/
  | unsupported {output : Option Path} (unknown : ∀ format : Format, ofString format.name ≠ name) :
      Ends w cwd tree name order output (.error (.unsupportedFormat name), w)
  /-- The output is no path at all. -/
  | unusable {format : Format} {p : Path} {t : Trouble} (known : ofString format.name = name)
      (nameless : Disk.unnamable? p.text = some t) :
      Ends w cwd tree name order (some p) (.error (.noPath t), w)
  /-- The output cannot be opened for writing. -/
  | closed {format : Format} {p : Path} {t : Trouble} (known : ofString format.name = name)
      (named : Disk.unnamable? p.text = none) (closed : ∀ l, ¬ w.disk.IsTarget cwd p.text l) :
      Ends w cwd tree name order (some p) (.error (.notWritten p t), w)
  /-- The report is no string, and is not printed. -/
  | unprinted {format : Format} {f : SymbolFault} (known : ofString format.name = name)
      (fault : toString? (content tree format order) = .error f) :
      Ends w cwd tree name order none (.error (.unencodable f), w)
  /-- The report is no string, and the file that the output denotes is left empty. -/
  | emptied {format : Format} {p : Path} {l : Location} {f : SymbolFault}
      (known : ofString format.name = name) (target : w.disk.IsTarget cwd p.text l)
      (fault : toString? (content tree format order) = .error f) :
      Ends w cwd tree name order (some p)
        (.error (.unencodable f), { w with disk := w.disk.set l (.file []) })
  /-- The report is printed. -/
  | printed {format : Format} {s : String} (known : ofString format.name = name)
      (string : toString? (content tree format order) = .ok s) :
      Ends w cwd tree name order none (.ok (), { w with stdout := w.stdout ++ s })
  /-- The report is written to the file that the output denotes. -/
  | filed {format : Format} {p : Path} {l : Location} {s : String}
      (known : ofString format.name = name) (target : w.disk.IsTarget cwd p.text l)
      (string : toString? (content tree format order) = .ok s) :
      Ends w cwd tree name order (some p)
        (.ok (), { w with
          disk := w.disk.set l (.file (encode s))
          stderr := w.stderr ++ writtenLine p })

/-- An attempt comes to one of these ends. -/
theorem ends_attempt (w : Written) (cwd : Location) (tree : Display) (output : Option Path)
    (name : Text) (order : MemberOrder) :
    Ends w cwd tree name order output (attempt w cwd tree output name order) := by
  -- The steps are taken in turn: the format, the output, the opened file, and its text.
  cases hf : Format.ofName? name with
  | none =>
    rw [attempt_unsupported hf]
    refine .unsupported fun format hname => ?_
    rw [← hname, format.ofName?_name] at hf
    cases hf
  | some format =>
    obtain rfl := Format.name_of_ofName? hf
    cases output with
    | none =>
      rw [attempt_none]
      cases hstring : toString? (content tree format order) with
      | ok s => exact .printed rfl hstring
      | error f => exact .unprinted rfl hstring
    | some p =>
      cases ho : w.disk.openEmpty cwd p.text with
      | ok x =>
        have target : w.disk.IsTarget cwd p.text x.1 := (Disk.openEmpty_eq_ok_iff.1 ho).1
        rw [attempt_target target]
        cases hstring : toString? (content tree format order) with
        | ok s => exact .filed rfl target hstring
        | error f => exact .emptied rfl target hstring
      | error t =>
        rw [attempt_closed ho]
        cases ht : t.title? with
        | none =>
          exact .unusable rfl ((Disk.openEmpty_eq_error_iff ht w.disk cwd p.text).1 ho)
        | some title =>
          apply Ends.closed rfl
          · -- A text that can be no path has a trouble without a number.
            show Disk.unnamable? p.text = none
            by_contra hne
            obtain ⟨u, hu⟩ := Option.ne_none_iff_exists'.1 hne
            have hu' := (Disk.openEmpty_eq_error_iff (Disk.title?_of_unnamable? hu) w.disk cwd _).2 hu
            rw [ho] at hu'
            cases hu'
            rw [Disk.title?_of_unnamable? hu] at ht
            cases ht
          · intro l target
            rw [Disk.openEmpty_eq_ok_iff.2 ⟨target, rfl⟩] at ho
            cases ho

/-! ### What is left -/

/-- The disk that is left if nothing comes behind the opening of an output: the file that it denotes is
empty. -/
def emptied (disk : Disk) (cwd : Location) : Option Path → Disk
  | none => disk
  | some p =>
    match disk.openEmpty cwd p.text with
    | .ok (_, disk') => disk'
    | .error _ => disk

/-- The disk that is left of an attempt that fails. -/
def left (disk : Disk) (cwd : Location) (output : Option Path) : ReportError → Disk
  | .unencodable _ => emptied disk cwd output
  | _ => disk

/-- What is emptied is the file that the output denotes. -/
theorem emptied_target (h : disk.IsTarget cwd p.text l) :
    emptied disk cwd (some p) = disk.set l (.file []) := by
  rw [emptied, Disk.openEmpty_eq_ok_iff.2 ⟨h, rfl⟩]

/-- **What is left.** An attempt that fails leaves everything as it was, unless the report is no string:
then the output has been opened, and nothing is in it. -/
theorem eq_of_attempt_error (h : attempt w cwd tree output name order = (.error e, w')) :
    w' = { w with disk := left w.disk cwd output e } := by
  have hend := ends_attempt w cwd tree output name order
  rw [h] at hend
  cases hend with
  | emptied _ target => rw [left, emptied_target target]
  | _ => rfl

/-- **Reported errors.** An attempt that fails with an error of the report leaves everything as it
was. -/
theorem eq_of_attempt_reported (h : attempt w cwd tree output name order = (.error e, w'))
    (he : e.isReported = true) : w' = w := by
  rw [eq_of_attempt_error h]
  cases e with
  | unencodable f => cases he
  | _ => rfl

/-! ### Written reports -/

/-- A report of some content has gone to where an output says: it was printed, and the disk is as it
was, or it is in the file that the output denotes, nothing else on the disk is changed, and nothing
was printed. -/
inductive Delivered (disk : Disk) (cwd : Location) (content : String) :
    Option Path → String → Disk → Prop where
  | printed : Delivered disk cwd content none content disk
  | filed {p : Path} {l : Location} {disk' : Disk} (target : disk.IsTarget cwd p.text l)
      (written : Disk.WrittenAt l (encode content) disk disk')
      (reads : disk'.read cwd p.text = .ok (encode content)) :
      Delivered disk cwd content (some p) "" disk'

/-- A report is written if the attempt comes to its end. -/
theorem write_eq_ok_iff_attempt : write disk cwd tree output name order = .ok w ↔
    attempt { disk := disk } cwd tree output name order = (.ok (), w) := by
  rw [write]
  rcases attempt { disk := disk } cwd tree output name order with ⟨_ | _, w'⟩ <;> simp

/-- A report fails with the error of the attempt. -/
theorem write_eq_error_iff_attempt : write disk cwd tree output name order = .error e ↔
    ∃ w, attempt { disk := disk } cwd tree output name order = (.error e, w) := by
  rw [write]
  rcases attempt { disk := disk } cwd tree output name order with ⟨_ | _, w'⟩ <;> simp

/-- **Reports.** A report is written if it is a string and its output is a target, or there is none,
and what is left then is known. -/
theorem write_eq_ok_iff :
    write disk cwd tree output format.name = .ok w ↔
      ∃ s, toString? (content tree format) = .ok s ∧
        ((output = none ∧ w = { disk := disk, stdout := s }) ∨
          ∃ p l, output = some p ∧ disk.IsTarget cwd p.text l ∧
            w = { disk := disk.set l (.file (encode s)), stderr := writtenLine p }) := by
  rw [write_eq_ok_iff_attempt]
  constructor
  · intro h
    have hend := ends_attempt { disk := disk } cwd tree output format.name .labelFirst
    rw [h] at hend
    -- Only two ends of an attempt are none by an error.
    cases hend with
    | printed known string =>
      obtain rfl := Format.ofString_name_injective known
      exact ⟨_, string, .inl ⟨rfl, by simp⟩⟩
    | @filed _ p l _ known target string =>
      obtain rfl := Format.ofString_name_injective known
      exact ⟨_, string, .inr ⟨p, l, rfl, target, by simp⟩⟩
  · rintro ⟨s, hs, ⟨rfl, rfl⟩ | ⟨p, l, rfl, target, rfl⟩⟩
    · rw [attempt_none, hs]
      simp
    · rw [attempt_target target, hs]
      simp

/-- Whatever the format is, a report is written exactly if it is a string and its output can be
written to, or there is none. -/
theorem exists_write_iff :
    (∃ w, write disk cwd tree output format.name = .ok w) ↔
      (∃ s, toString? (content tree format) = .ok s) ∧
        ∀ p, output = some p → ∃ l, disk.IsTarget cwd p.text l := by
  simp only [write_eq_ok_iff]
  constructor
  · rintro ⟨w, s, hs, ⟨rfl, -⟩ | ⟨p, l, rfl, hl, -⟩⟩
    · exact ⟨⟨s, hs⟩, fun q hq => by cases hq⟩
    · refine ⟨⟨s, hs⟩, fun q hq => ?_⟩
      cases hq
      exact ⟨l, hl⟩
  · rintro ⟨⟨s, hs⟩, h⟩
    cases output with
    | none => exact ⟨_, s, hs, .inl ⟨rfl, rfl⟩⟩
    | some p =>
      obtain ⟨l, hl⟩ := h p rfl
      exact ⟨_, s, hs, .inr ⟨p, l, rfl, hl, rfl⟩⟩

/-- An output that is no path is refused as such. -/
theorem write_eq_noPath {t : Trouble} (h : Disk.unnamable? p.text = some t) :
    write disk cwd tree (some p) format.name = .error (.noPath t) := by
  have ht := Disk.title?_of_unnamable? h
  refine write_eq_error_iff_attempt.2 ⟨{ disk := disk }, ?_⟩
  rw [attempt_closed ((Disk.openEmpty_eq_error_iff ht disk cwd p.text).2 h), ht]
  rfl

/-- A report that is no string is refused as such, if nothing else is in its way. -/
theorem write_eq_unencodable (hf : toString? (content tree format) = .error f)
    (h : ∀ p, output = some p → ∃ l, disk.IsTarget cwd p.text l) :
    write disk cwd tree output format.name = .error (.unencodable f) := by
  rw [write_eq_error_iff_attempt]
  cases output with
  | none =>
    refine ⟨{ disk := disk }, ?_⟩
    rw [attempt_none, hf]
  | some p =>
    obtain ⟨l, hl⟩ := h p rfl
    refine ⟨{ disk := disk.set l (.file []) }, ?_⟩
    rw [attempt_target hl, hf]

/-- An attempt ends in an error that is not reported exactly if its output is no path at all, or if
the report is no string and there is nothing else in its way. -/
theorem write_unreported_iff :
    (∃ e, write disk cwd tree output format.name = .error e ∧ e.isReported = false) ↔
      (∃ p t, output = some p ∧ Disk.unnamable? p.text = some t) ∨
        (∃ f, toString? (content tree format) = .error f) ∧
          ∀ p, output = some p → ∃ l, disk.IsTarget cwd p.text l := by
  constructor
  · rintro ⟨e, h, he⟩
    obtain ⟨w, h⟩ := write_eq_error_iff_attempt.1 h
    have hend := ends_attempt { disk := disk } cwd tree output format.name .labelFirst
    rw [h] at hend
    -- Errors of the other ends are reported.
    cases hend with
    | unsupported => cases he
    | closed => cases he
    | @unusable _ p t known nameless => exact .inl ⟨p, t, rfl, nameless⟩
    | unprinted known fault =>
      obtain rfl := Format.ofString_name_injective known
      exact .inr ⟨⟨_, fault⟩, fun q hq => by cases hq⟩
    | @emptied _ p l _ known target fault =>
      obtain rfl := Format.ofString_name_injective known
      refine .inr ⟨⟨_, fault⟩, fun q hq => ?_⟩
      cases hq
      exact ⟨l, target⟩
  · rintro (⟨p, t, rfl, nameless⟩ | ⟨⟨f, hf⟩, h⟩)
    · exact ⟨_, write_eq_noPath nameless, rfl⟩
    · exact ⟨_, write_eq_unencodable hf h, rfl⟩

/-- A report that was written has gone to where its output says. -/
theorem delivered_of_write (h : write disk cwd tree output format.name = .ok w) :
    ∃ s, toString? (content tree format) = .ok s ∧
      Delivered disk cwd s output w.stdout w.disk := by
  obtain ⟨s, hs, ⟨rfl, rfl⟩ | ⟨p, l, rfl, hl, rfl⟩⟩ := write_eq_ok_iff.1 h
  · exact ⟨s, hs, .printed⟩
  · have hwritten : Disk.WrittenAt l (encode s) disk _ := Disk.writtenAt_set hl.free.ne_root _
    exact ⟨s, hs, .filed hl hwritten (hl.read_written hwritten)⟩

end Report

end RenderTree
