import RenderTree.Proofs.Disk.RealPath
import RenderTree.Proofs.Settings.Merge

/-!
# What configurations mean

Settings that are accepted are good for something: merged with any arguments, they tell how a walk goes
and how its tree is presented, if only their module directory, where they name one, has a real path.

* `WalksBy`, `PresentsBy` — options that have the values of keys.
* `Configuration.exists_walkOptions_iff` — when a configuration makes options of a walk.
* `Configuration.walksBy_of_walkOptions` — which ones these are.
* `Settings.ofMembers_checked` — which members are accepted, how others are refused, and what those that
  are accepted come to.
-/

namespace RenderTree

open RenderTree.Text

variable {d : Disk} {cwd : Location} {c : Configuration} {o : WalkOptions} {dir : Text}
  {ms : List (Text × Json)} {s : Settings}

/-! ### Options -/

/-- A walk goes by the values of keys. -/
structure WalksBy (value : Key → Json) (d : Disk) (cwd : Location) (o : WalkOptions) : Prop where
  /-- The depth is that of the key, but at least one; there is none if there is none of the key. -/
  scanDepth : value .scanDepth = .null ∧ o.scanDepth = none ∨
    ∃ (n : Int) (k : Depth), value .scanDepth = .integer n ∧ o.scanDepth = some k ∧
      1 ≤ k.val ∧ (k.val : Int) = max 1 n
  /-- Modules are looked for at the real path of a directory, if one is named. -/
  moduleDir : (value .moduleDir = .null ∨ value .moduleDir = .string []) ∧ o.moduleDir = none ∨
    ∃ dir, value .moduleDir = .string dir ∧ dir ≠ [] ∧
      o.moduleDir = some (d.realOf cwd (Path.ofText dir).text)
  hideThirdParty : value .hideThirdParty = .bool o.hideThirdParty
  markupLibrary : value .markupLibrary = .string o.markupLibrary

/-- A tree is presented by the values of keys. Containers have the mark that they always have. -/
structure PresentsBy (value : Key → Json) (p : Presentation) : Prop where
  hideContainers : value .hideContainers = .bool p.hideContainers
  containerMarker : value .containerMarker = .string p.containerMarker
  containerSuffix : p.containerSuffix = " (*)"

/-- A bound below one counts as one. -/
theorem Depth.val_ofInt (n : Int) : ((Depth.ofInt n).val : Int) = max 1 n := by
  show ((max 1 n.toNat : Nat) : Int) = max 1 n
  omega

namespace Configuration

/-- The value of the module directory is its name. -/
theorem value_moduleDir_eq_string_iff : c.value .moduleDir = .string dir ↔ c.moduleDir = some dir := by
  rw [value]
  cases c.moduleDir <;> simp

/-- Without a name, or with an empty one, there is no module directory. -/
theorem moduleRoot_of_unnamed (h : c.moduleDir = none ∨ c.moduleDir = some []) :
    c.moduleRoot d cwd = .ok none := by
  rcases h with h | h
  · rw [moduleRoot, h]
  · rw [moduleRoot, h]
    exact if_pos rfl

/-- A named module directory is used under its real path, if it has one. -/
theorem moduleRoot_eq_ok_iff_of_named (h : c.moduleDir = some dir) (hdir : dir ≠ [])
    {m : Option Path} :
    c.moduleRoot d cwd = .ok m ↔
      d.Resolves cwd (Path.ofText dir).text ∧
        m = some (d.realOf cwd (Path.ofText dir).text) := by
  have hroot : c.moduleRoot d cwd = (d.realPath cwd (Path.ofText dir).text).map some := by
    rw [moduleRoot, h]
    exact if_neg hdir
  rw [hroot]
  cases hreal : d.realPath cwd (Path.ofText dir).text with
  | error e =>
    refine iff_of_false (by rintro ⟨⟩) fun hm => ?_
    cases hreal.symm.trans (Disk.realPath_eq_ok_iff.2 ⟨hm.1, rfl⟩)
  | ok l =>
    obtain ⟨hresolves, rfl⟩ := Disk.realPath_eq_ok_iff.1 hreal
    exact ⟨fun hm => ⟨hresolves, (Except.ok.inj hm).symm⟩, fun hm => congrArg Except.ok hm.2.symm⟩

/-- A configuration names no module directory, or one that is not empty. -/
theorem unnamed_or_named (c : Configuration) :
    (c.moduleDir = none ∨ c.moduleDir = some []) ∨ ∃ dir, c.moduleDir = some dir ∧ dir ≠ [] := by
  cases hdir : c.moduleDir with
  | none => exact .inl (.inl rfl)
  | some dir =>
    by_cases hempty : dir = []
    · exact .inl (.inr (congrArg some hempty))
    · exact .inr ⟨dir, rfl, hempty⟩

/-- **Use.** A configuration makes options of a walk exactly if the module directory that it names, if
any, has a real path. -/
theorem exists_walkOptions_iff :
    (∃ o, c.walkOptions d cwd = .ok o) ↔
      ∀ dir, c.value .moduleDir = .string dir → dir ≠ [] →
        d.Resolves cwd (Path.ofText dir).text := by
  -- Only the module directory can fail.
  have hmap : (∃ o, c.walkOptions d cwd = .ok o) ↔ ∃ m, c.moduleRoot d cwd = .ok m := by
    rw [walkOptions]
    cases c.moduleRoot d cwd <;> simp [Except.map]
  rw [hmap]
  rcases c.unnamed_or_named with hun | ⟨dir, hdir, hne⟩
  · refine iff_of_true ⟨none, moduleRoot_of_unnamed hun⟩ fun dir hdir hne => ?_
    rw [value_moduleDir_eq_string_iff] at hdir
    rcases hun with hun | hun
    · cases hun.symm.trans hdir
    · exact absurd (Option.some.inj (hdir.symm.trans hun)) hne
  · constructor
    · rintro ⟨m, hm⟩ dir' hdir' -
      rw [value_moduleDir_eq_string_iff, hdir, Option.some.injEq] at hdir'
      subst hdir'
      exact ((moduleRoot_eq_ok_iff_of_named hdir hne).1 hm).1
    · intro h
      have hresolves := h dir (value_moduleDir_eq_string_iff.2 hdir) hne
      exact ⟨_, (moduleRoot_eq_ok_iff_of_named hdir hne).2 ⟨hresolves, rfl⟩⟩

/-- The options that a configuration makes have its values. -/
theorem walksBy_of_walkOptions (h : c.walkOptions d cwd = .ok o) : WalksBy c.value d cwd o := by
  rw [walkOptions] at h
  cases hroot : c.moduleRoot d cwd with
  | error e =>
    rw [hroot] at h
    cases h
  | ok m =>
    rw [hroot] at h
    obtain rfl := Except.ok.inj h
    refine ⟨?_, ?_, rfl, rfl⟩
    · -- A bound is used as it is, or as one if it is less.
      rw [value]
      cases c.scanDepth with
      | none => exact .inl ⟨rfl, rfl⟩
      | some n => exact .inr ⟨n, Depth.ofInt n, rfl, rfl, (Depth.ofInt n).2, Depth.val_ofInt n⟩
    · rcases c.unnamed_or_named with hun | ⟨dir, hdir, hne⟩
      · rw [moduleRoot_of_unnamed hun] at hroot
        obtain rfl := Except.ok.inj hroot
        refine .inl ⟨?_, rfl⟩
        rw [value]
        rcases hun with hun | hun
        · exact .inl (by rw [hun]; rfl)
        · exact .inr (by rw [hun]; rfl)
      · obtain rfl := ((moduleRoot_eq_ok_iff_of_named hdir hne).1 hroot).2
        exact .inr ⟨dir, value_moduleDir_eq_string_iff.2 hdir, hne, rfl⟩

/-- A tree is presented by the values of the configuration. -/
theorem presentsBy_presentation (c : Configuration) : PresentsBy c.value c.presentation :=
  ⟨rfl, rfl, rfl⟩

end Configuration

/-! ### What members come to -/

/-- What a configuration with the values of keys is good for. -/
structure Usable (value : Key → Json) (c : Configuration) : Prop where
  /-- Options of a walk are made exactly if the module directory, where one is named, has a real path. -/
  resolves : ∀ d cwd, (∃ o, c.walkOptions d cwd = .ok o) ↔
    ∀ dir, value .moduleDir = .string dir → dir ≠ [] →
      d.Resolves cwd (Path.ofText dir).text
  /-- It has one if all paths that are made on the way to it can be paths, no link leads in a circle,
  and none is missed. -/
  linked : ∀ (d : Disk) (cwd : Location), d.IsRealDirectory cwd →
    (∀ dir, value .moduleDir = .string dir → dir ≠ [] →
      d.IsLoopless cwd (Path.ofText dir).text) →
    ∃ o, c.walkOptions d cwd = .ok o
  /-- The options of the walk have the values. -/
  walks : ∀ d cwd o, c.walkOptions d cwd = .ok o → WalksBy value d cwd o
  /-- The tree is presented by the values. -/
  presents : PresentsBy value c.presentation

/-- **Usability.** Every configuration can be used as far as its module directory has a real path.
-/
theorem Configuration.usable (c : Configuration) : Usable c.value c where
  resolves _ _ := exists_walkOptions_iff
  linked _ _ hcwd h := exists_walkOptions_iff.2 fun dir hdir hne =>
    (h dir hdir hne).resolves hcwd
  walks _ _ _ := walksBy_of_walkOptions
  presents := c.presentsBy_presentation

namespace Settings

/-- What comes of members that are checked. -/
structure Checked (ms : List (Text × Json)) (r : Except ConfigError Settings) : Prop where
  /-- They are accepted exactly if each sets something, and the format, if there is one, is text or
  JSON. -/
  accepted : (∃ s, r = .ok s) ↔
    (∀ m ∈ ms, IsSetting m) ∧
      ∀ v, Json.find? "format" ms = some v → v = .string "text" ∨ v = .string "json"
  /-- Otherwise their first fault is reported. -/
  refused : ∀ e, r = .error e → FirstFault ms e
  /-- What is accepted is of use with any arguments. -/
  usable : ∀ s, r = .ok s → ∀ a, Usable (setting ms a) (s.merge a)

/-- **Checks.** Members are checked one by one, then the name of the format, and all that is accepted can
be used. -/
theorem ofMembers_checked (ms : List (Text × Json)) : Checked ms (ofMembers ms) where
  accepted := exists_ofMembers_iff
  refused _ := firstFault_of_ofMembers
  usable s h a := by
    have hvalue : (s.merge a).value = setting ms a := funext (value_merge_eq_setting h a)
    exact hvalue ▸ (s.merge a).usable

end Settings

end RenderTree
