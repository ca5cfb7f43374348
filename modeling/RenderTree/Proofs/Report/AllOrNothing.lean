import RenderTree.Proofs.Report.Writing

/-!
# Reports, all or nothing

Opening a file for writing empties it. A report is therefore made before its output is opened, and an
attempt to write it that fails with an error of the report has changed nothing: neither a file that was
there nor what is printed. One that does not fail leaves the same text, whether it is printed or goes to
a file. But a text with surrogates is refused only when the file has been emptied, and with an error
that is not one of the report.

* `Report.AllOrNothing` — what is expected of an attempt to write a report.
* `Report.Garbled` — a report is a text with surrogates, and nothing else is in its way.
* `Report.attempt_allOrNothing` — exactly the attempts to write a garbled report, or to a path that is
  none, are not of this kind, and what they leave.
* `Report.attempt_garbledReport` — a file that is emptied.
-/

namespace RenderTree.Report

open Display (MemberOrder)
open RenderTree.Text

variable {w : Written} {cwd : Location} {tree : Display} {output : Option Path} {name : Text}
  {order : MemberOrder}

/-- A name is that of no format if it is neither of the two. -/
theorem forall_format_name_ne_iff :
    (∀ format : Format, ofString format.name ≠ name) ↔ name ≠ "text" ∧ name ≠ "json" := by
  constructor
  · exact fun h => ⟨(h .text).symm, (h .json).symm⟩
  · intro ⟨htext, hjson⟩ format
    cases format with
    | text => exact htext.symm
    | json => exact hjson.symm

/-- The name of a format is one of the two. -/
theorem eq_or_eq_of_name {format : Format} (known : ofString format.name = name) :
    name = "text" ∨ name = "json" := by
  by_contra hname
  exact forall_format_name_ne_iff.2 (not_or.1 hname) format known

/-- A tree has no report in a format that is not known. -/
theorem renderNamed_eq_ok_iff {text : Text} :
    renderNamed tree name order = .ok text ↔
      ∃ format : Format, ofString format.name = name ∧ render tree format order = text := by
  rw [renderNamed]
  constructor
  · intro h
    split at h
    next format hformat => exact ⟨format, Format.name_of_ofName? hformat, Except.ok.inj h⟩
    next => cases h
  · rintro ⟨format, rfl, rfl⟩
    rw [format.ofName?_name]

/-- An attempt to write a tree to an output, in the format of a name, that began with `w` and came to
`r`, is all or nothing. -/
structure AllOrNothing (w : Written) (cwd : Location) (tree : Display) (output : Option Path)
    (name : Text) (order : MemberOrder) (r : Except ReportError Unit × Written) : Prop where
  /-- It fails if there is no such format, or the output cannot be opened for writing: it does not
  lead to a file, nor to where one can be made. -/
  fails_iff : (∃ e, r.1 = .error e) ↔
    (name ≠ "text" ∧ name ≠ "json") ∨
      ∃ p, output = some p ∧ ∀ l, ¬ w.disk.IsTarget cwd p.text l
  /-- If it fails, the error says which of both it was. -/
  reported : ∀ e, r.1 = .error e →
    e = .unsupportedFormat name ∨ ∃ p t, output = some p ∧ e = .notWritten p t
  /-- If it fails, the disk and all that is printed are as they were. -/
  nothing : ∀ e, r.1 = .error e → r.2 = w
  /-- If it does not fail, the tree in that format, with the end of its last line, is printed, or is
  what the file holds that the output denotes. Only one of both is changed, and nothing else is. -/
  all : r.1 = .ok () → ∃ text s printed, renderNamed tree name order = .ok text ∧
    toString? (text ++ "\n") = .ok s ∧ r.2.stdout = w.stdout ++ printed ∧
      Delivered w.disk cwd s output printed r.2.disk

/-- An attempt that fails for one of both reasons, and changes nothing, is all or nothing. -/
theorem AllOrNothing.of_error {e : ReportError}
    (why : (name ≠ "text" ∧ name ≠ "json") ∨
      ∃ p, output = some p ∧ ∀ l, ¬ w.disk.IsTarget cwd p.text l)
    (reported : e = .unsupportedFormat name ∨ ∃ p t, output = some p ∧ e = .notWritten p t) :
    AllOrNothing w cwd tree output name order (.error e, w) where
  fails_iff := iff_of_true ⟨e, rfl⟩ why
  reported := by
    intro e' he'
    cases he'
    exact reported
  nothing _ _ := rfl
  all h := by cases h

/-- An attempt that delivers the tree in a known format is all or nothing. -/
theorem AllOrNothing.of_delivered {format : Format} {s printed : String} {w' : Written}
    (known : ofString format.name = name)
    (usable : ∀ p, output = some p → ∃ l, w.disk.IsTarget cwd p.text l)
    (string : toString? (content tree format order) = .ok s)
    (stdout : w'.stdout = w.stdout ++ printed)
    (delivered : Delivered w.disk cwd s output printed w'.disk) :
    AllOrNothing w cwd tree output name order (.ok (), w') where
  fails_iff := by
    refine iff_of_false ?_ ?_
    · rintro ⟨e, he⟩
      cases he
    · -- What was delivered had a known format and an output that can be used.
      rintro (hname | ⟨p, hp, hclosed⟩)
      · exact forall_format_name_ne_iff.2 hname format known
      · obtain ⟨l, hl⟩ := usable p hp
        exact hclosed l hl
  reported e he := by cases he
  nothing e he := by cases he
  all _ := by
    subst known
    exact ⟨_, s, printed, renderNamed_name tree format order, string, stdout, delivered⟩

/-- There is a report of the tree, and its output can be written to, or there is none; but there are
surrogates in its text. -/
structure Garbled (w : Written) (cwd : Location) (tree : Display) (output : Option Path) (name : Text)
    (order : MemberOrder) (f : SymbolFault) : Prop where
  fault : ∃ text, renderNamed tree name order = .ok text ∧ toString? text = .error f
  usable : ∀ p, output = some p → ∃ l, w.disk.IsTarget cwd p.text l

/-- The output is no path, though the format is known. -/
def NoPath (output : Option Path) (name : Text) (t : Trouble) : Prop :=
  (name = "text" ∨ name = "json") ∧ ∃ p, output = some p ∧ Disk.unnamable? p.text = some t

/-- A report that is no string is rendered all the same. -/
theorem renderNamed_fault {format : Format} {f : SymbolFault}
    (fault : toString? (content tree format order) = .error f) :
    ∃ text, renderNamed tree format.name order = .ok text ∧ toString? text = .error f := by
  refine ⟨_, renderNamed_name tree format order, ?_⟩
  rw [toString?_content] at fault
  cases h : toString? (render tree format order) with
  | ok s =>
    rw [h] at fault
    cases fault
  | error g =>
    rw [h] at fault
    cases fault
    rfl

/-- What an attempt to write a garbled report leaves: nothing is printed, but the file that its output
denotes is empty. -/
theorem attempt_of_garbled {f : SymbolFault} (h : Garbled w cwd tree output name order f) :
    attempt w cwd tree output name order =
      (.error (.unencodable f), { w with disk := emptied w.disk cwd output }) := by
  obtain ⟨⟨text, htext, hf⟩, husable⟩ := h
  obtain ⟨format, rfl, rfl⟩ := renderNamed_eq_ok_iff.1 htext
  have hcontent : toString? (content tree format order) = .error f := by
    rw [toString?_content, hf]
    rfl
  cases output with
  | none =>
    rw [attempt_none, hcontent]
    rfl
  | some p =>
    obtain ⟨l, hl⟩ := husable p rfl
    rw [attempt_target hl, hcontent, emptied_target hl]

/-- An output that is no path is refused when it is opened, before anything is written. -/
theorem attempt_of_noPath {t : Trouble} (h : NoPath output name t) :
    attempt w cwd tree output name order = (.error (.noPath t), w) := by
  obtain ⟨hname, p, rfl, ht⟩ := h
  have htitle := Disk.title?_of_unnamable? ht
  have hopen := (Disk.openEmpty_eq_error_iff htitle w.disk cwd p.text).2 ht
  obtain ⟨format, rfl⟩ : ∃ format : Format, ofString format.name = name := by
    rcases hname with rfl | rfl
    · exact ⟨.text, rfl⟩
    · exact ⟨.json, rfl⟩
  rw [attempt_closed hopen, htitle]
  rfl

/-- **All or nothing.** An attempt to write a report fails with an error of the report exactly on an
unknown format and on an output that cannot be opened, and has changed nothing then; else the report is
where the output says, and its text does not depend on where that is. This is so exactly if the output
is a path and the report is not garbled. A garbled report leaves an empty file. -/
theorem attempt_allOrNothing (w : Written) (cwd : Location) (tree : Display) (output : Option Path)
    (name : Text) (order : MemberOrder) :
    (AllOrNothing w cwd tree output name order (attempt w cwd tree output name order) ↔
      (∀ t, ¬ NoPath output name t) ∧ ∀ f, ¬ Garbled w cwd tree output name order f) ∧
    (∀ e w', attempt w cwd tree output name order = (.error e, w') → e.isReported = true → w' = w) ∧
    (∀ t, NoPath output name t →
      attempt w cwd tree output name order = (.error (.noPath t), w)) ∧
    ∀ f, Garbled w cwd tree output name order f →
      attempt w cwd tree output name order =
        (.error (.unencodable f), { w with disk := emptied w.disk cwd output }) := by
  refine ⟨⟨fun h => ?_, fun ⟨hpath, hclean⟩ => ?_⟩,
    fun e w' h he => eq_of_attempt_reported h he, fun t ht => attempt_of_noPath ht,
    fun f hf => attempt_of_garbled hf⟩
  · -- The errors of both kinds are none of the two that are reported.
    constructor
    · intro t ht
      have hreported := h.reported (.noPath t) (by rw [attempt_of_noPath ht])
      simp at hreported
    · intro f hf
      have hreported := h.reported (.unencodable f) (by rw [attempt_of_garbled hf])
      simp at hreported
  · -- Of the ends of an attempt the two that are excluded are the unreported ones.
    have hend := ends_attempt w cwd tree output name order
    generalize attempt w cwd tree output name order = r at hend ⊢
    cases hend with
    | unsupported unknown =>
      exact .of_error (.inl (forall_format_name_ne_iff.1 unknown)) (.inl rfl)
    | @unusable format p t known nameless =>
      exact absurd ⟨eq_or_eq_of_name known, p, rfl, nameless⟩ (hpath t)
    | @closed _ p t _ _ closed => exact .of_error (.inr ⟨p, rfl, closed⟩) (.inr ⟨p, t, rfl, rfl⟩)
    | unprinted known fault =>
      subst known
      exact absurd ⟨renderNamed_fault fault, fun q hq => by cases hq⟩ (hclean _)
    | @emptied _ p l _ known target fault =>
      subst known
      refine absurd ⟨renderNamed_fault fault, fun q hq => ?_⟩ (hclean _)
      cases hq
      exact ⟨l, target⟩
    | printed known string => exact .of_delivered known (by simp) string rfl .printed
    | @filed format p l s known target string =>
      have hwritten : Disk.WrittenAt l (encode s) w.disk _ :=
        Disk.writtenAt_set target.free.ne_root _
      refine .of_delivered known (fun q hq => ?_) string (String.append_empty).symm
        (.filed target hwritten (target.read_written hwritten))
      cases hq
      exact ⟨l, target⟩

/-! ### A file that is emptied -/

/-- The file that a report is kept in. -/
def keptReport : Location := ⟨["kept"], by decide⟩

/-- A disk with an older report. -/
def reportDisk : Disk :=
  ⟨[(keptReport, .file (encode "an older report\n"))]⟩

/-- A label that is a single surrogate. -/
def garbledLabel : Text := [.surrogate 0]

/-- A report with a surrogate in it takes the place of an older one: nothing is left of that, and the
error is not one of the report. -/
theorem attempt_garbledReport :
    let r := attempt { disk := reportDisk } .root (.leaf garbledLabel) (some (Path.ofText "kept"))
      "text" .labelFirst
    (∃ e, r.1 = .error e ∧ e.isReported = false) ∧
      r.2.disk.entry? keptReport = some (.file []) ∧
        ¬ AllOrNothing { disk := reportDisk } .root (.leaf garbledLabel) (some (Path.ofText "kept"))
          "text" .labelFirst r := by
  intro r
  have herror : r.1 = .error (.unencodable ⟨0, 1, 0⟩) := by decide +kernel
  refine ⟨⟨_, herror, rfl⟩, by decide +kernel, fun h => ?_⟩
  have hreported := h.reported _ herror
  simp at hreported

end RenderTree.Report
