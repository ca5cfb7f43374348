import RenderTree.Proofs.Disk.Canonical
import RenderTree.Proofs.Path.Absolute
import RenderTree.Proofs.Path.Candidates
import Mathlib.Logic.Relation

/-!
# The search for a file

A specifier resolves to the first of its candidates that is a regular file and may be read. Those in
front of it are passed over, whatever is wrong with them: there may be nothing, a directory, a link
that leads to nothing or to itself, or a file where a directory would have to be.

* `Sought` — the candidates of a specifier, first those beside the file that imports it.
* `Disk.IsReadable`, `Disk.FirstIn` — the files that count, and the first of them among candidates.
* `firstIn_append_filter` — a candidate that comes again may be left out.
* `Disk.Needs`, `not_replaces_of_cycle` — a link that leads to itself is replaced by nothing.
* `Disk.Unfit` — what is passed over.
* `resolve_searches` — what a specifier resolves to.
-/

namespace RenderTree

/-! ### What is tried -/

/-- The candidates that are tried for a specifier, in order. Where no file imports it, the specifier
is a path by itself. -/
inductive Sought (specifier : Text) : (importer moduleDir : Option Path) → List Path → Prop where
  | root {moduleDir : Option Path} {ps : List Path}
      (written : (Path.ofText specifier).Expands ps) : Sought specifier none moduleDir ps
  | beside {file : Path} {ps : List Path} (beside : (file.parent.join specifier).Expands ps) :
      Sought specifier (some file) none ps
  | both {file dir : Path} {ps qs : List Path} (beside : (file.parent.join specifier).Expands ps)
      (below : (dir.join specifier).Expands qs) : Sought specifier (some file) (some dir) (ps ++ qs)

variable {specifier : Text} {importer moduleDir : Option Path} {ps qs near far : List Path}

/-- Something is sought for every specifier. -/
theorem exists_sought (specifier : Text) (importer moduleDir : Option Path) :
    ∃ ps, Sought specifier importer moduleDir ps := by
  cases importer with
  | none =>
    obtain ⟨ps, written⟩ := Path.exists_expands (.ofText specifier)
    exact ⟨ps, .root written⟩
  | some file =>
    obtain ⟨ps, beside⟩ := Path.exists_expands (file.parent.join specifier)
    cases moduleDir with
    | none => exact ⟨ps, .beside beside⟩
    | some dir =>
      obtain ⟨qs, below⟩ := Path.exists_expands (dir.join specifier)
      exact ⟨ps ++ qs, .both beside below⟩

/-- What is sought is determined. -/
theorem Sought.unique (h : Sought specifier importer moduleDir ps)
    (h' : Sought specifier importer moduleDir qs) : qs = ps := by
  cases h with
  | root written =>
    cases h' with
    | root written' => exact written'.candidates_eq.symm.trans written.candidates_eq
  | beside beside =>
    cases h' with
    | beside beside' => exact beside'.candidates_eq.symm.trans beside.candidates_eq
  | both beside below =>
    cases h' with
    | both beside' below' =>
      rw [← beside'.candidates_eq, ← below'.candidates_eq, beside.candidates_eq,
        below.candidates_eq]

/-- An absolute specifier replaces the directory. -/
theorem join_of_isAbsolute (h : (Path.ofText specifier).IsAbsolute) (dir : Path) :
    dir.join specifier = .ofText specifier :=
  if_neg h

/-- Elements that do not count may be left out of a search. -/
theorem find?_filter_of_not {α : Type} {f keep : α → Bool} {xs : List α}
    (h : ∀ x ∈ xs, keep x = false → f x = false) : (xs.filter keep).find? f = xs.find? f := by
  rw [List.find?_filter]
  apply Disk.find?_congr
  intro x hx
  cases hkeep : keep x with
  | false => simp [h x hx hkeep]
  | true => simp

/-- What was sought before need not be sought again. -/
theorem find?_append_filter (f : Path → Bool) (near far : List Path) :
    (near ++ far.filter (fun p => p ∉ near)).find? f = (near ++ far).find? f := by
  rw [List.find?_append, List.find?_append]
  cases hnear : near.find? f with
  | some x => rfl
  | none =>
    -- What is left out has been tried in vain.
    rw [find?_filter_of_not]
    intro p _ hp
    have hmem : p ∈ near := by simpa using hp
    simpa using List.find?_eq_none.1 hnear p hmem

/-- Looking through the candidates comes to the same whether those in the module directory that have
been tried are tried again or not. -/
theorem Sought.find?_eq (h : Sought specifier importer moduleDir ps) (f : Path → Bool) :
    (searchPath specifier importer moduleDir).find? f = ps.find? f := by
  cases h with
  | root written => rw [searchPath, written.candidates_eq]
  | beside beside => rw [searchPath, beside.candidates_eq]
  | both beside below =>
    simp only [searchPath]
    rw [beside.candidates_eq, below.candidates_eq, find?_append_filter]

namespace Disk

variable {d : Disk} {readable : Path → Bool} {cwd here l m a b : Location} {p : Path}
  {text : Text} {steps : List Text} {n j : Nat}

/-! ### What counts -/

/-- A candidate is a regular file that may be read. -/
def IsReadable (d : Disk) (readable : Path → Bool) (cwd : Location) (p : Path) : Prop :=
  readable p = true ∧ ∃ l bytes, d.find cwd p.text = .ok (l, some (.file bytes))

/-- A path is the real path of the first among the candidates that is a regular file and may be
read. -/
def FirstIn (d : Disk) (readable : Path → Bool) (cwd : Location) (ps : List Path) (p : Path) :
    Prop :=
  ∃ before q after, ps = before ++ q :: after ∧ (∀ r ∈ before, ¬ d.IsReadable readable cwd r) ∧
    d.IsReadable readable cwd q ∧ p = d.realOf cwd q.text

/-- The test for a candidate that counts. -/
theorem isReadableFile_iff : d.isReadableFile readable cwd p = true ↔ d.IsReadable readable cwd p := by
  rw [isReadableFile, IsReadable, Bool.and_eq_true, and_comm, Option.isSome_iff_exists]
  simp only [file?_eq_some_iff_find]

/-- The search finds the first regular file that may be read. -/
theorem map_find?_eq_some_iff :
    (ps.find? (d.isReadableFile readable cwd)).map (fun q => d.realOf cwd q.text) = some p ↔
      d.FirstIn readable cwd ps p := by
  simp only [Option.map_eq_some_iff, List.find?_eq_some_iff_append, FirstIn,
    isReadableFile_iff, Bool.not_eq_true', ← Bool.not_eq_true]
  constructor
  · rintro ⟨q, ⟨hq, before, after, hps, hbefore⟩, rfl⟩
    exact ⟨before, q, after, hps, hbefore, hq, rfl⟩
  · rintro ⟨before, q, after, hps, hbefore, hq, rfl⟩
    exact ⟨q, ⟨hq, before, after, hps, hbefore⟩, rfl⟩

/-- A candidate that comes again may be left out. -/
theorem firstIn_append_filter :
    d.FirstIn readable cwd (near ++ far.filter (fun p => p ∉ near)) p ↔
      d.FirstIn readable cwd (near ++ far) p := by
  rw [← map_find?_eq_some_iff, ← map_find?_eq_some_iff, find?_append_filter]

/-! ### Links that lead to themselves -/

/-- The segments lead to a link, whatever comes behind it. -/
inductive Meets (d : Disk) (here : Location) : List Text → Location → Prop where
  | intro {front rest : List Text} {s target : Text} {m : Location} {n : Nat}
      (leads : d.Leads here front m n) (name : IsName s)
      (link : d.entry? (m.child s name) = some (.link target)) :
      Meets d here (front ++ s :: rest) (m.child s name)

/-- To replace the link at `a`, the one at `b` has to be replaced. -/
def Needs (d : Disk) (a b : Location) : Prop :=
  ∃ target, d.entry? a = some (.link target) ∧
    d.Meets (startOf a.parent target) (stepsOf target) b

/-- To replace the link at a location takes `n` links inside of it. -/
def Replaces (d : Disk) (n : Nat) (at_ : Location) : Prop :=
  ∃ target m, d.entry? at_ = some (.link target) ∧
    d.Leads (startOf at_.parent target) (stepsOf target) m n

/-- How many links it takes to replace a link is determined. -/
theorem Replaces.unique (h : d.Replaces n a) (h' : d.Replaces j a) : j = n := by
  obtain ⟨target, m, link, leads⟩ := h
  obtain ⟨target', m', link', leads'⟩ := h'
  rw [link, Option.some.injEq, Entry.link.injEq] at link'
  subst link'
  exact (leads.unique leads').2

/-- A link on the way takes fewer links than the way does. -/
theorem Leads.exists_replaces (h : d.Leads here steps l n) (hmeets : d.Meets here steps a) :
    ∃ j, j < n ∧ d.Replaces j a := by
  obtain ⟨leads, name, link⟩ := hmeets
  -- The way goes through the link, since it leads where the segments in front of the link do.
  obtain ⟨m, i, k, hfront, hrest, rfl⟩ := h.split
  obtain ⟨rfl, -⟩ := leads.unique hfront
  cases hrest with
  | enter _ _ _ plain _ => exact absurd link (plain _)
  | dots _ dots _ => exact absurd name dots
  | @link _ _ m _ target _ k' n' _ _ _ link' inner _ =>
    refine ⟨k', by omega, target, m, link', ?_⟩
    rw [Location.parent_child]
    exact inner

/-- A link that is needed for another takes fewer links. -/
theorem Replaces.exists_of_needs (h : d.Replaces n a) (hneeds : d.Needs a b) :
    ∃ j, j < n ∧ d.Replaces j b := by
  obtain ⟨target, m, link, leads⟩ := h
  obtain ⟨target', link', meets⟩ := hneeds
  rw [link, Option.some.injEq, Entry.link.injEq] at link'
  subst link'
  exact leads.exists_replaces meets

/-- So does one that is needed indirectly. -/
theorem Replaces.exists_of_transGen (h : d.Replaces n a) (hneeds : Relation.TransGen d.Needs a b) :
    ∃ j, j < n ∧ d.Replaces j b := by
  induction hneeds with
  | single hneeds => exact h.exists_of_needs hneeds
  | tail _ hneeds ih =>
    obtain ⟨i, hi, hmid⟩ := ih
    obtain ⟨j, hj, hlast⟩ := hmid.exists_of_needs hneeds
    exact ⟨j, by omega, hlast⟩

/-- **Loops.** A link that has to be replaced before it can be replaced itself is never replaced:
that would take fewer links than it takes. -/
theorem not_replaces_of_cycle (hcycle : Relation.TransGen d.Needs a a) : ¬ d.Replaces n a := by
  intro h
  obtain ⟨j, hj, h'⟩ := h.exists_of_transGen hcycle
  have := h.unique h'
  omega

/-! ### What is passed over -/

/-- What is wrong with a candidate that is not a regular file, links followed. -/
inductive Unfit (d : Disk) (cwd : Location) (p : Path) : Prop where
  /-- The candidate is no path, or one that is too long. -/
  | refused {t : Trouble} (refused : refused? p.text = some t)
  /-- A name in it is too long. -/
  | tooLong {front rest : List Text} {s : Text} (steps : stepsOf p.text = front ++ s :: rest)
      (name : IsName s) (size : maxNameSize < s.size)
  | directory {l : Location} {n : Nat}
      (leads : d.Leads (startOf cwd p.text) (stepsOf p.text) l n)
      (entry : d.entry? l = some .directory)
  /-- Nothing is there. With a link on the way, it is one that dangles. -/
  | missing {l : Location} {n : Nat}
      (leads : d.Leads (startOf cwd p.text) (stepsOf p.text) l n)
      (entry : d.entry? l = none)
  /-- Something else than a directory has to be gone through. -/
  | blocked {front rest : List Text} {s : Text} {l : Location} {n : Nat}
      (steps : stepsOf p.text = front ++ s :: rest)
      (leads : d.Leads (startOf cwd p.text) front l n) (entry : d.entry? l ≠ some .directory)
  /-- A link on the way leads to one that leads to itself. -/
  | loops {a b : Location} (meets : d.Meets (startOf cwd p.text) (stepsOf p.text) a)
      (needs : Relation.ReflTransGen d.Needs a b) (cycle : Relation.TransGen d.Needs b b)

/-- Only directories are gone through. -/
theorem Leads.entry?_directory {front rest : List Text} {s : Text}
    (h : d.Leads here (front ++ s :: rest) l n) (hfront : d.Leads here front m j) :
    d.entry? m = some .directory := by
  obtain ⟨m', i, k, hfront', hrest, -⟩ := h.split
  obtain ⟨rfl, -⟩ := hfront.unique hfront'
  cases hrest with
  | enter directory _ _ _ _ => exact directory
  | dots directory _ _ => exact directory
  | link directory _ _ _ _ _ => exact directory

/-- No name that is gone through is too long. -/
theorem Leads.size_le {front rest : List Text} {s : Text}
    (h : d.Leads here (front ++ s :: rest) l n) (hs : IsName s) : s.size ≤ maxNameSize := by
  obtain ⟨m, i, k, -, hrest, -⟩ := h.split
  cases hrest with
  | enter _ _ size _ _ => exact Nat.le_of_not_lt size
  | dots _ dots _ => exact absurd hs dots
  | link _ _ size _ _ _ => exact Nat.le_of_not_lt size

/-- What is unfit cannot be read. -/
theorem Unfit.not_isReadable (h : d.Unfit cwd p) : ¬ d.IsReadable readable cwd p := by
  rintro ⟨-, l, bytes, hfind⟩
  -- A file would have to be led to, by the segments that lead elsewhere or nowhere.
  obtain ⟨hentry, n, hleads⟩ := leads_of_find hfind
  cases h with
  | refused refused =>
    rw [find, refused] at hfind
    cases hfind
  | tooLong steps name size =>
    rw [steps] at hleads
    exact absurd (hleads.size_le name) (Nat.not_le_of_lt size)
  | directory leads entry =>
    rw [(hleads.unique leads).1, hentry] at entry
    cases entry
  | missing leads entry =>
    rw [(hleads.unique leads).1, hentry] at entry
    cases entry
  | blocked steps leads entry =>
    rw [steps] at hleads
    exact entry (hleads.entry?_directory leads)
  | @loops a b meets needs cycle =>
    obtain ⟨j, -, ha⟩ := hleads.exists_replaces meets
    rcases Relation.reflTransGen_iff_eq_or_transGen.1 needs with rfl | htrans
    · exact not_replaces_of_cycle cycle ha
    · obtain ⟨i, -, hb⟩ := ha.exists_of_transGen htrans
      exact not_replaces_of_cycle cycle hb

/-! ### What is found -/

/-- A specifier is resolved to the real path of the first readable file of what is sought. -/
theorem resolve_eq (h : Sought specifier importer moduleDir ps) :
    d.resolve readable cwd specifier importer moduleDir =
      if specifier = [] then none
      else (ps.find? (d.isReadableFile readable cwd)).map (fun p => d.realOf cwd p.text) := by
  rw [resolve, chosen?, h.find?_eq]
  split <;> rfl

/-- A specifier has a file if it is not empty and one of what is sought can be read; the first
decides. -/
theorem resolve_eq_some_iff (h : Sought specifier importer moduleDir ps) :
    d.resolve readable cwd specifier importer moduleDir = some p ↔
      specifier ≠ [] ∧ d.FirstIn readable cwd ps p := by
  rw [resolve_eq h, Option.ite_none_left_eq_some, map_find?_eq_some_iff]

/-- A specifier has no file if it is empty or nothing of what is sought can be read. -/
theorem resolve_eq_none_iff (h : Sought specifier importer moduleDir ps) :
    d.resolve readable cwd specifier importer moduleDir = none ↔
      specifier = [] ∨ ∀ p ∈ ps, ¬ d.IsReadable readable cwd p := by
  rw [resolve_eq h]
  split
  next hempty => simp [hempty]
  next hne => simp only [hne, false_or, Option.map_eq_none_iff, List.find?_eq_none,
    isReadableFile_iff]

/-- **The search.** A specifier resolves to the real path of the first of its candidates that is a
regular file and may be read, and to none exactly if it is empty or there is no such candidate. To
leave out those in the module directory that have been tried changes nothing. A directory, a link
that dangles or leads to itself, and what is behind a file are passed over. An absolute specifier
has the same candidates everywhere. -/
theorem resolve_searches (d : Disk) (readable : Path → Bool) (cwd : Location) (specifier : Text)
    (importer moduleDir : Option Path) :
    (∃ ps, Sought specifier importer moduleDir ps ∧
      (∀ qs, Sought specifier importer moduleDir qs → qs = ps) ∧
      (∀ p, d.resolve readable cwd specifier importer moduleDir = some p ↔
        specifier ≠ [] ∧ d.FirstIn readable cwd ps p) ∧
      (d.resolve readable cwd specifier importer moduleDir = none ↔
        specifier = [] ∨ ∀ p ∈ ps, ¬ d.IsReadable readable cwd p)) ∧
    (∀ near far p, d.FirstIn readable cwd (near ++ far.filter (fun p => p ∉ near)) p ↔
      d.FirstIn readable cwd (near ++ far) p) ∧
    (∀ p, d.Unfit cwd p → ¬ d.IsReadable readable cwd p) ∧
    ((Path.ofText specifier).IsAbsolute →
      ∀ dir : Path, dir.join specifier = .ofText specifier) := by
  obtain ⟨ps, h⟩ := exists_sought specifier importer moduleDir
  refine ⟨⟨ps, h, fun qs => h.unique, ?_, ?_⟩, ?_, ?_, join_of_isAbsolute⟩
  · exact fun p => resolve_eq_some_iff h
  · exact resolve_eq_none_iff h
  · exact fun near far p => firstIn_append_filter
  · exact fun p => Unfit.not_isReadable

end Disk

/-! ### A project full of wrong candidates -/

/-- A project in which each candidate for tabs but the last one is wrong in a way of its own. -/
def tangledProject : Disk :=
  ⟨[placed ["Note.js"] (by decide) (.file []), placed ["Tabs.js"] (by decide) .directory,
    placed ["Tabs.jsx"] (by decide) (.link "gone"), placed ["Tabs"] (by decide) (.link "Side"),
    placed ["Side"] (by decide) (.link "Tabs"), placed ["kits"] (by decide) .directory,
    placed ["kits", "Tabs.js"] (by decide) (.file []),
    placed ["kits", "Tabs.jsx"] (by decide) (.link "../shared/Tabs.jsx"),
    placed ["shared"] (by decide) .directory,
    placed ["shared", "Tabs.jsx"] (by decide) (.file [])]⟩

/-- The file of the tabs. -/
def tabsFile : Location := ⟨["shared", "Tabs.jsx"], by decide⟩

/-- Two links that lead to each other. -/
def tabsLink : Location := ⟨["Tabs"], by decide⟩
def sideLink : Location := ⟨["Side"], by decide⟩

namespace Disk

/-- From the root every text begins at the root. -/
theorem startOf_root (text : Text) : startOf .root text = .root := by
  rw [startOf, ite_self]

/-- A name leads from the root to the child of that name. -/
theorem leads_root {d : Disk} {s : Text} (name : IsName s) (size : ¬ maxNameSize < s.size)
    (plain : ∀ target, d.entry? (Location.root.child s name) ≠ some (.link target)) :
    d.Leads .root [s] (Location.root.child s name) 0 :=
  .enter d.entry?_root name size plain (.arrive _)

end Disk

/-- What is wrong with files that are tried, one after the other, and with one behind a file. -/
theorem tangledProject_unfit :
    tangledProject.Unfit .root (.ofText "Tabs.js") ∧
      tangledProject.Unfit .root (.ofText "Tabs.jsx") ∧
      tangledProject.Unfit .root (.ofText "Tabs/index.js") ∧
      tangledProject.Unfit .root (.ofText "Note.js/Tabs.js") := by
  refine ⟨?_, ?_, ?_, ?_⟩
  · -- A directory has the name.
    have hsteps : Disk.stepsOf (Path.ofText "Tabs.js").text = ["Tabs.js"] := by decide +kernel
    have hname : IsName "Tabs.js" := by decide
    have hentry : tangledProject.entry? ⟨["Tabs.js"], by decide⟩ = some .directory := by decide
    have hleads := Disk.leads_root hname (by decide) fun target => hentry.trans_ne (by simp)
    exact .directory (by rw [Disk.startOf_root, hsteps]; exact hleads) hentry
  · -- A link has it, and what that leads to is not there.
    have hsteps : Disk.stepsOf (Path.ofText "Tabs.jsx").text = ["Tabs.jsx"] := by
      decide +kernel
    have hlink : tangledProject.entry? ⟨["Tabs.jsx"], by decide⟩ = some (.link "gone") := by decide
    have hname : IsName "gone" := by decide
    have hentry : tangledProject.entry? ⟨["gone"], by decide⟩ = none := by decide
    have hleads := Disk.leads_root hname (by decide) fun target => hentry.trans_ne (by simp)
    have hway := Disk.Leads.link tangledProject.entry?_root (by decide) (by decide) hlink hleads
      (.arrive _)
    exact .missing (by rw [Disk.startOf_root, hsteps]; exact hway) hentry
  · -- Two links on the way lead to each other.
    have hsteps : Disk.stepsOf (Path.ofText "Tabs/index.js").text =
        ([] : List Text) ++ (("Tabs" : Text) :: [("index.js" : Text)]) := by
      decide +kernel
    have htabs : tangledProject.entry? tabsLink = some (.link "Side") := by decide
    have hside : tangledProject.entry? sideLink = some (.link "Tabs") := by decide
    have hthere : tangledProject.Needs tabsLink sideLink :=
      ⟨"Side", htabs, .intro (.arrive .root) (by decide) hside⟩
    have hback : tangledProject.Needs sideLink tabsLink :=
      ⟨"Tabs", hside, .intro (.arrive .root) (by decide) htabs⟩
    have hmeets : tangledProject.Meets .root
        (([] : List Text) ++ (("Tabs" : Text) :: [("index.js" : Text)])) tabsLink :=
      .intro (.arrive .root) (by decide) htabs
    rw [← hsteps] at hmeets
    exact .loops hmeets .refl (.tail (.single hthere) hback)
  · -- The way leads through a file.
    have hsteps : Disk.stepsOf (Path.ofText "Note.js/Tabs.js").text =
        [("Note.js" : Text)] ++ (("Tabs.js" : Text) :: []) := by
      decide +kernel
    have hname : IsName "Note.js" := by decide
    have hentry : tangledProject.entry? ⟨["Note.js"], by decide⟩ = some (.file []) := by decide
    have hleads := Disk.leads_root hname (by decide) fun target => hentry.trans_ne (by simp)
    exact .blocked hsteps hleads (hentry.trans_ne (by simp))

/-- The path that the tabs have with the link to them replaced. -/
theorem tangledProject_followed :
    (tangledProject.followed .root (Path.ofText "kits/Tabs.jsx").text).path =
      .ofText "shared/Tabs.jsx" := by
  have hkits : tangledProject.linkAt? .root .here "kits" (by decide) = none := by decide +kernel
  have htabs : tangledProject.linkAt? .root (Path.here.child "kits" (by decide)) "Tabs.jsx"
      (by decide) = some "../shared/Tabs.jsx" := by
    decide +kernel
  have hshared : tangledProject.linkAt? .root .here "shared" (by decide) = none := by
    decide +kernel
  have hfile : tangledProject.linkAt? .root (Path.here.child "shared" (by decide)) "Tabs.jsx"
      (by decide) = none := by
    decide +kernel
  have hup : (Path.here.child "kits" (by decide)).up = Path.here := by decide
  -- The link leads out of its directory first, and then to the file.
  have hinner : (tangledProject.follow .root
      [(Path.here.child "kits" (by decide)).child "Tabs.jsx" (by decide)]
      (Disk.startAt (Path.here.child "kits" (by decide)) "../shared/Tabs.jsx")
      (Disk.stepsOf "../shared/Tabs.jsx")) =
        ⟨(Path.here.child "shared" (by decide)).child "Tabs.jsx" (by decide), true,
          [Path.here.child "shared" (by decide),
            (Path.here.child "shared" (by decide)).child "Tabs.jsx" (by decide)]⟩ := by
    have hstart : Disk.startAt (Path.here.child "kits" (by decide)) "../shared/Tabs.jsx" =
        Path.here.child "kits" (by decide) :=
      if_neg (by decide)
    show tangledProject.follow .root _ _
      [("..": Text), ("shared" : Text), ("Tabs.jsx" : Text)] = _
    rw [hstart, Disk.follow_dots (by decide), if_pos rfl, hup, Disk.follow_plain hshared,
      Disk.follow_plain hfile, Disk.follow_nil]
  rw [Disk.followed_text]
  show (tangledProject.follow .root [] .here [("kits" : Text), ("Tabs.jsx" : Text)]).path = _
  rw [Disk.follow_plain hkits, Disk.follow_link htabs (by simp), hinner]
  dsimp only
  rw [if_pos rfl, Disk.follow_nil]
  decide

/-- The tabs are found behind a link, as the last of the files that are tried for them. -/
theorem tangledProject_searches :
    (∃ ps, Sought "./Tabs" (some (.ofText "Note.js")) (some (.ofText "kits")) ps ∧
      tangledProject.FirstIn (fun p => p ≠ .ofText "kits/Tabs.js") .root ps
        tabsFile.toPath) ∧
    (∀ p ∈ (["Tabs.js", "Tabs.jsx", "Tabs/index.js", "Note.js/Tabs.js"] : List Text).map Path.ofText,
      ¬ tangledProject.IsReadable (fun p => p ≠ .ofText "kits/Tabs.js") .root p) ∧
    (Path.ofText "/shared/Tabs").IsAbsolute ∧
    (Path.ofText "kits").join "/shared/Tabs" = .ofText "/shared/Tabs" := by
  obtain ⟨⟨ps, hsought, -, hsome, -⟩, -, hunfit, -⟩ :=
    Disk.resolve_searches tangledProject (fun p => p ≠ .ofText "kits/Tabs.js") .root "./Tabs"
      (some (.ofText "Note.js")) (some (.ofText "kits"))
  obtain ⟨-, -, -, habsolute⟩ :=
    Disk.resolve_searches tangledProject (fun _ => true) .root "/shared/Tabs" none none
  -- Four candidates are passed over, and a file that may not be read.
  have hchosen : tangledProject.chosen? (fun p => p ≠ .ofText "kits/Tabs.js") .root "./Tabs"
      (some (.ofText "Note.js")) (some (.ofText "kits")) = some (.ofText "kits/Tabs.jsx") := by
    decide +kernel
  have hfound : tangledProject.resolve (fun p => p ≠ .ofText "kits/Tabs.js") .root "./Tabs"
      (some (.ofText "Note.js")) (some (.ofText "kits")) = some tabsFile.toPath := by
    rw [Disk.resolve, hchosen, Option.map_some, Disk.realOf, tangledProject_followed]
    decide
  obtain ⟨hdirectory, hdangling, hlooping, hblocked⟩ := tangledProject_unfit
  have hroot : (Path.ofText "/shared/Tabs").IsAbsolute := by decide +kernel
  refine ⟨⟨ps, hsought, ((hsome tabsFile.toPath).1 hfound).2⟩, ?_, hroot, habsolute hroot _⟩
  intro p hp
  apply hunfit
  simp only [List.map_cons, List.map_nil, List.mem_cons, List.not_mem_nil, or_false] at hp
  rcases hp with rfl | rfl | rfl | rfl
  · exact hdirectory
  · exact hdangling
  · exact hlooping
  · exact hblocked

end RenderTree
