import RenderTree.Program
import RenderTree.Proofs.Disk.RealPath
import RenderTree.Proofs.Json.LongNumber
import RenderTree.Proofs.Text.Utf8

/-!
# What becomes of a configuration file

A configuration file is read in three layers: its bytes are decoded, its text is read as JSON, and the
members of that are checked. Each can fail, and the first two have failures that are not reported:
bytes that are no text, and whole numbers with too many digits, end the program without an outcome. So
does the version control if its answer is of no use where it is asked for the default file.

* `Settings.Defeats` — bytes whose errors are not reported.
* `Settings.Strays` — an answer of the version control that is of no use.
* `Settings.Loads` — what loading comes to, and what the program makes of it.
* `Settings.load_loads` — loading comes to that, whatever the host, the answer and the path are.
-/

namespace RenderTree

open RenderTree.Text
open RenderTree.Settings (WorkTreeAnswer)

variable {h : Host} {answer : WorkTreeAnswer} {path : Option Text} {file : Text}
  {text : String} {bytes : List UInt8} {ms : List (Text × Json)} {s : Settings} {e : ConfigError}

/-- A file that is read is there. -/
theorem Host.exists?_of_read (hread : h.read file = .ok bytes) :
    h.disk.exists? h.cwd file = true := by
  rw [Host.read, Disk.read] at hread
  rw [Disk.exists?, Disk.locate]
  cases hfind : h.disk.find h.cwd file with
  | error t => simp [hfind] at hread
  | ok r =>
    obtain ⟨l, _ | e⟩ := r
    · simp [hfind] at hread
    · rfl

/-- A flaw is not one of the text's form if it is the length of a number. -/
theorem Json.Flaw.isFormal_eq_false_iff {flaw : Json.Flaw} :
    flaw.isFormal = false ↔ ∃ n, flaw = .longNumber n := by
  cases flaw <;> simp [Json.Flaw.isFormal]

namespace Settings

/-! ### Bytes -/

/-- The bytes are those of a JSON object with the members `ms`. -/
def Holds (bytes : List UInt8) (ms : List (Text × Json)) : Prop :=
  ∃ text, encode text = bytes ∧ Json.parse (unixLines text) = .ok (.object ms)

/-- The bytes are those of a text in which a number is too long. -/
def IsLong (bytes : List UInt8) : Prop :=
  ∃ text f n, encode text = bytes ∧ Json.parse (unixLines text) = .error f ∧ f.flaw = .longNumber n

/-- The bytes cannot be read, and that is not reported: no text has them, or a number in their text is
too long. -/
def Defeats (bytes : List UInt8) : Prop :=
  (∀ text, encode text ≠ bytes) ∨ IsLong bytes

/-- A text is defeating only if there are too many digits in a row in it. -/
theorem Defeats.exists_hasRun (h : Defeats (encode text)) :
    ∃ n, Json.HasRun n (unixLines text) := by
  rcases h with h | ⟨text', f, n, htext, hparse, hflaw⟩
  · exact absurd rfl (h text)
  · obtain rfl := encode_injective htext
    exact ⟨n, Json.hasRun_of_parse hparse hflaw⟩

/-! ### Layers -/

/-- The errors of members are reported. -/
theorem isReported_of_memberError? {m : Text × Json} (h : memberError? m = some e) :
    e.isReported = true := by
  unfold memberError? at h
  split at h
  · cases h
    rfl
  · split at h
    · cases h
    · cases h
      rfl

/-- Members are checked, and whatever is wrong with them is reported. -/
theorem isReported_of_ofMembers (h : ofMembers ms = .error e) : e.isReported = true := by
  unfold ofMembers at h
  split at h
  next e' hm =>
    cases h
    obtain ⟨m, -, hm⟩ := List.exists_of_findSome?_eq_some hm
    exact isReported_of_memberError? hm
  next =>
    split at h
    · cases h
    · split at h
      · cases h
      · cases h
        rfl

/-- Bytes make settings if they hold members that are accepted. -/
theorem ofBytes_eq_ok_iff :
    ofBytes file bytes = .ok s ↔ ∃ ms, Holds bytes ms ∧ ofMembers ms = .ok s := by
  unfold ofBytes
  constructor
  · intro h
    split at h
    · cases h
    next text hdecode =>
      split at h
      · cases h
      next v hparse =>
        cases v with
        | object ms => exact ⟨ms, ⟨text, decode_eq_ok_iff.1 hdecode, hparse⟩, h⟩
        | _ => cases h
  · rintro ⟨ms, ⟨text, htext, hparse⟩, hms⟩
    simp only [decode_eq_ok_iff.2 htext, hparse]
    exact hms

/-- The errors of bytes that are not reported are those that are defeating. -/
theorem ofBytes_unreported_iff :
    (∃ e, ofBytes file bytes = .error e ∧ e.isReported = false) ↔ Defeats bytes := by
  unfold ofBytes
  constructor
  · rintro ⟨e, h, he⟩
    split at h
    next f hdecode => exact .inl (decode_eq_error_iff.1 ⟨f, hdecode⟩)
    next text hdecode =>
      split at h
      next f hparse =>
        -- The only flaw that is none of form is a number that is too long.
        by_cases hf : f.flaw.isFormal = true
        · rw [if_pos hf] at h
          cases h
          cases he
        · obtain ⟨n, hn⟩ := Json.Flaw.isFormal_eq_false_iff.1 (by simpa using hf)
          exact .inr ⟨text, f, n, decode_eq_ok_iff.1 hdecode, hparse, hn⟩
      next v hparse =>
        cases v with
        | object ms => rw [isReported_of_ofMembers h] at he; cases he
        | _ => cases h; cases he
  · rintro (h | ⟨text, f, n, htext, hparse, hn⟩)
    · obtain ⟨f, hf⟩ := decode_eq_error_iff.2 h
      simp only [hf]
      exact ⟨_, rfl, rfl⟩
    · have hformal := Json.Flaw.isFormal_eq_false_iff.2 ⟨n, hn⟩
      simp only [decode_eq_ok_iff.2 htext, hparse, hformal]
      exact ⟨_, rfl, rfl⟩

/-! ### Files -/

/-- The answer of the version control is of no use, and that is not reported: no text has its bytes, or
what they say has no real path. -/
def Strays (h : Host) (answer : WorkTreeAnswer) : Prop :=
  ∃ bytes, answer = some bytes ∧
    ((∀ text, encode text ≠ bytes) ∨
      ∃ text, encode text = bytes ∧
        ¬ h.disk.Resolves h.cwd (Path.ofText (trim isSpace (unixLines text))).text)

/-- There is no work tree to be had from an answer that is of no use, and only from such a one. -/
theorem exists_workTree?_error_iff : (∃ e, workTree? h answer = .error e) ↔ Strays h answer := by
  cases answer with
  | none => simp [workTree?, Strays]
  | some bytes =>
    simp only [Strays, Option.some.injEq, exists_eq_left']
    -- The answer has to be text, and the text has to have a real path.
    cases ht : decode bytes with
    | error f =>
      refine iff_of_true ⟨.undecodable f, ?_⟩ (.inl (decode_eq_error_iff.1 ⟨f, ht⟩))
      simp only [workTree?, ht]
    | ok text =>
      obtain rfl := decode_eq_ok_iff.1 ht
      cases hreal : h.disk.realPath h.cwd (Path.ofText (trim isSpace (unixLines text))).text with
      | error u =>
        refine iff_of_true ⟨.noWorkTree u, by simp only [workTree?, ht, hreal]⟩ ?_
        refine .inr ⟨text, rfl, fun hresolves => ?_⟩
        cases hreal.symm.trans (Disk.realPath_eq_ok_iff.2 ⟨hresolves, rfl⟩)
      | ok top =>
        refine iff_of_false ?_ ?_
        · rintro ⟨e, he⟩
          simp [workTree?, ht, hreal] at he
        · rintro (hno | ⟨text', htext, hresolves⟩)
          · exact hno text rfl
          · rw [encode_injective htext] at hresolves
            exact hresolves (Disk.realPath_eq_ok_iff.1 hreal).1

/-- Only for the default file the version control is asked. -/
theorem exists_fileOf_error_iff :
    (∃ e, fileOf h answer path = .error e) ↔ path = none ∧ Strays h answer := by
  cases path with
  | some file => simp [fileOf]
  | none =>
    rw [← exists_workTree?_error_iff]
    cases ht : workTree? h answer with
    | error e => simp [fileOf, ht]
    | ok top => cases top <;> simp [fileOf, ht]

/-- An answer that is of no use is not reported. -/
theorem isReported_of_fileOf (hfile : fileOf h answer path = .error e) : e.isReported = false := by
  cases path with
  | some file => cases hfile
  | none =>
    cases ht : workTree? h answer with
    | ok top => cases top <;> simp [fileOf, ht] at hfile
    | error e' =>
      have heq : e' = e := by simpa [fileOf, ht] using hfile
      subst heq
      unfold workTree? at ht
      split at ht
      · cases ht
      · split at ht
        · cases ht
          rfl
        · split at ht
          · cases ht
            rfl
          · cases ht

/-- A file that is read is loaded as its bytes are. -/
theorem load_of_read (hfile : fileOf h answer path = .ok file) (hread : h.read file = .ok bytes) :
    load h answer path = ofBytes file bytes := by
  simp only [load, hfile, Host.exists?_of_read hread, if_true, hread]

/-- A file that is not read is reported, unless it is the default one and not there. -/
theorem load_of_not_read {t : Trouble} (hfile : fileOf h answer path = .ok file)
    (hread : h.read file = .error t) :
    (path = none ∧ h.disk.exists? h.cwd file = false ∧ load h answer path = .ok {}) ∨
      ∃ e, load h answer path = .error e ∧ e.isReported = true := by
  by_cases hexists : h.disk.exists? h.cwd file = true
  · refine .inr ⟨.unreadable file t, ?_, rfl⟩
    simp only [load, hfile, hexists, if_true, hread]
  · have hgone : h.disk.exists? h.cwd file = false := by simpa using hexists
    cases path with
    | none =>
      refine .inl ⟨rfl, hgone, ?_⟩
      simp only [load, hfile, if_neg hexists]
      rfl
    | some given =>
      refine .inr ⟨.notFound file, ?_, rfl⟩
      simp only [load, hfile, if_neg hexists]
      rfl

/-- **Settings.** What is loaded was accepted, or is empty. -/
theorem load_eq_ok_iff :
    load h answer path = .ok s ↔ ∃ file, fileOf h answer path = .ok file ∧
      ((path = none ∧ h.disk.exists? h.cwd file = false ∧ s = {}) ∨
        ∃ bytes ms, h.read file = .ok bytes ∧ Holds bytes ms ∧ ofMembers ms = .ok s) := by
  -- Three things can go wrong, one after the other: the choice of the file, its bytes, and what
  -- they say.
  cases hfile : fileOf h answer path with
  | error e =>
    refine iff_of_false ?_ (by simp)
    simp [load, hfile]
  | ok file =>
    simp only [Except.ok.injEq, exists_eq_left']
    cases hread : h.read file with
    | ok bytes =>
      rw [load_of_read hfile hread, ofBytes_eq_ok_iff]
      constructor
      · rintro ⟨ms, hholds, hms⟩
        exact .inr ⟨bytes, ms, rfl, hholds, hms⟩
      · rintro (⟨-, hexists, -⟩ | ⟨bytes', ms, hbytes, hholds, hms⟩)
        · simp [Host.exists?_of_read hread] at hexists
        · cases hbytes
          exact ⟨ms, hholds, hms⟩
    | error t =>
      constructor
      · -- A file that cannot be read is no error only if it is not there and was not asked for.
        intro hload
        rcases load_of_not_read hfile hread with ⟨hpath, hexists, hempty⟩ | ⟨e, he, -⟩
        · rw [hempty, Except.ok.injEq] at hload
          exact .inl ⟨hpath, hexists, hload.symm⟩
        · simp [he] at hload
      · rintro (⟨rfl, hexists, rfl⟩ | ⟨bytes, ms, hbytes, -⟩)
        · simp [load, hfile, hexists]
        · cases hbytes

/-- **Errors.** An error is reported unless the bytes of the file are defeating, or the file cannot be
named. -/
theorem load_unreported_iff :
    (∃ e, load h answer path = .error e ∧ e.isReported = false) ↔
      (path = none ∧ Strays h answer) ∨
        ∃ file bytes, fileOf h answer path = .ok file ∧ h.read file = .ok bytes ∧ Defeats bytes := by
  rw [← exists_fileOf_error_iff]
  cases hfile : fileOf h answer path with
  | error e =>
    refine iff_of_true ⟨e, ?_, isReported_of_fileOf hfile⟩ (.inl ⟨e, rfl⟩)
    simp only [load, hfile]
  | ok file =>
    simp only [reduceCtorEq, exists_false, false_or, Except.ok.injEq, exists_and_left,
      exists_eq_left']
    cases hread : h.read file with
    | ok bytes =>
      rw [load_of_read hfile hread, ofBytes_unreported_iff]
      simp
    | error t =>
      refine iff_of_false ?_ (by simp)
      rintro ⟨e, hload, he⟩
      -- A file that cannot be read is reported, or counts as empty.
      rcases load_of_not_read hfile hread with ⟨-, -, hempty⟩ | ⟨e', hload', he'⟩
      · simp [hempty] at hload
      · rw [hload', Except.error.injEq] at hload
        simp [← hload, he'] at he

/-! ### The program -/

variable {argv : List Text} {a : CommandLine.Arguments} {root : Text}

/-- The program ends without an outcome if an error of its configuration file is not reported. -/
theorem start_eq_error_iff (hread : CommandLine.read argv = .ok a) (hroot : a.root = some root) :
    start h answer argv = .error e ↔ load h answer a.config = .error e ∧ e.isReported = false := by
  unfold start
  simp only [hread, hroot]
  constructor
  · intro hstart
    split at hstart
    · cases hstart
    next e' hload =>
      split at hstart
      · cases hstart
      next hreported =>
        cases hstart
        exact ⟨hload, by simpa using hreported⟩
  · rintro ⟨hload, he⟩
    simp [hload, he]

/-- An error that is reported is printed, and the program fails. -/
theorem start_of_reported (hread : CommandLine.read argv = .ok a) (hroot : a.root = some root)
    (hload : load h answer a.config = .error e) (he : e.isReported = true) :
    start h answer argv = .ok
      { exit := 1, stderr := s!"Configuration error: {e.message.shown}\n", disk := h.disk } := by
  unfold start
  simp only [hread, hroot, hload, he, if_true]
  rfl

/-- What loading the configuration file of a path comes to. -/
structure Loads (h : Host) (answer : WorkTreeAnswer) (path : Option Text)
    (r : Except ConfigError Settings) : Prop where
  /-- The settings are those of members that are accepted; or none are set, if the default file is not
  there. -/
  accepted : ∀ s, r = .ok s ↔ ∃ file, fileOf h answer path = .ok file ∧
    ((path = none ∧ h.disk.exists? h.cwd file = false ∧ s = {}) ∨
      ∃ bytes ms, h.read file = .ok bytes ∧ Holds bytes ms ∧ ofMembers ms = .ok s)
  /-- Every error is reported but those of bytes that are defeating, and of an answer that is of no use
  where no path is given. -/
  unreported : (∃ e, r = .error e ∧ e.isReported = false) ↔
    (path = none ∧ Strays h answer) ∨
      ∃ file bytes, fileOf h answer path = .ok file ∧ h.read file = .ok bytes ∧ Defeats bytes
  /-- So every error is reported if the file is a text without too many digits in a row. -/
  reported : ∀ e file text, fileOf h answer path = .ok file → h.read file = .ok (encode text) →
    (∀ n, ¬ Json.HasRun n (unixLines text)) → r = .error e → e.isReported = true
  /-- The program comes to an end without an outcome exactly if an error is not reported. -/
  lost : ∀ argv a root, CommandLine.read argv = .ok a → a.root = some root → a.config = path →
    ((∃ e, start h answer argv = .error e) ↔
      (path = none ∧ Strays h answer) ∨
        ∃ file bytes, fileOf h answer path = .ok file ∧ h.read file = .ok bytes ∧ Defeats bytes)
  /-- The program fails with an error that is reported, and leaves everything as it was. -/
  refused : ∀ argv a root e, CommandLine.read argv = .ok a → a.root = some root → a.config = path →
    r = .error e → e.isReported = true →
      start h answer argv = .ok
        { exit := 1, stderr := s!"Configuration error: {e.message.shown}\n", disk := h.disk }

/-- **Loading.** Whatever the disk, the answer of the version control and the path are, loading a
configuration file comes to settings that are accepted, or to an error; and every error is reported but
those of bytes that are no text, of numbers that are too long, and of an answer that is of no use. -/
theorem load_loads (h : Host) (answer : WorkTreeAnswer) (path : Option Text) :
    Loads h answer path (load h answer path) where
  accepted := fun _ => load_eq_ok_iff
  unreported := load_unreported_iff
  reported := by
    intro e file text hfile hread hdigits hload
    by_contra he
    rcases load_unreported_iff.1 ⟨e, hload, by simpa using he⟩ with
      hstrays | ⟨file', bytes, hfile', hbytes, hdefeats⟩
    · obtain ⟨e', he'⟩ := exists_fileOf_error_iff.2 hstrays
      cases hfile.symm.trans he'
    · rw [hfile, Except.ok.injEq] at hfile'
      subst hfile'
      rw [hread, Except.ok.injEq] at hbytes
      subst hbytes
      -- Content that is text defeats the loader by a long number only.
      obtain ⟨n, hn⟩ := hdefeats.exists_hasRun
      exact hdigits n hn
  lost := by
    rintro argv a root hread hroot rfl
    simp only [start_eq_error_iff hread hroot]
    exact load_unreported_iff
  refused := by
    rintro argv a root e hread hroot rfl hload he
    exact start_of_reported hread hroot hload he

/-- A host with a configuration file whose only byte is that of no text. -/
def garbledHost : Host where
  disk := ⟨[(Location.root.child (ofString "c.json") (by decide), .file [0xFF])]⟩
  cwd := .root

/-- The error of that file is none that is reported, and the program ends without an outcome. -/
theorem load_garbledHost :
    ∃ f, load garbledHost none (some "c.json") = .error (.undecodable f) ∧
      (ConfigError.undecodable f).isReported = false ∧
        start garbledHost none ["--config", "c.json", "App.js"] = .error (.undecodable f) := by
  have hload : load garbledHost none (some "c.json") =
      .error (.undecodable ⟨.start, 0, 1, 0xFF⟩) :=
    rfl
  have hread : CommandLine.read ["--config", "c.json", "App.js"] =
      .ok { root := some "App.js", config := some "c.json" } := by
    decide +kernel
  exact ⟨_, hload, rfl, (start_eq_error_iff hread rfl).2 ⟨hload, rfl⟩⟩

end Settings

end RenderTree
