import RenderTree.Proofs.Settings.Check

/-!
# Merged configurations

A configuration has a value for every key: that of the arguments, else that of the configuration file,
else the one that holds by default. So it makes no difference to merge it again, nor which of the
settings are made in the file and which by arguments.

* `Overrides.value?`, `Key.standard`, `Configuration.value` — what arguments, nothing and a configuration
  set a key to, as JSON values.
* `setting` — the value of a key, by the members of a file and by arguments.
* `Settings.value_merge` — a merged configuration has these values.
* `Settings.value_merge_toSettings` — what a configuration that is merged again has.
* `Settings.inFile`, `Settings.asArguments` — settings of which some are made in a file, and some by
  arguments; `Settings.merge_inFile_asArguments`: together they make one configuration.
* `Settings.merge_merges` — all that is said of merging.
-/

namespace RenderTree

open RenderTree.Text

variable {file : List (Text × Json)} {s : Settings} {a : Overrides} {c c' : Configuration}
  {key : Key}

/-! ### Values of keys -/

/-- What arguments set a key to. A flag that is not given sets nothing, and two keys cannot be set by
arguments at all. -/
def Overrides.value? (a : Overrides) : Key → Option Json
  | .hideContainers => if a.hideContainers then some (.bool true) else none
  | .hideThirdParty => if a.hideThirdParty then some (.bool true) else none
  | .moduleDir => a.moduleDir.map .string
  | .scanDepth => a.scanDepth.map .integer
  | .format => a.format.map fun f => .string (ofString f.name)
  | .containerMarker | .markupLibrary => none

/-- What a key is set to where nothing sets it. -/
def Key.standard : Key → Json
  | hideContainers | hideThirdParty => .bool false
  | moduleDir | scanDepth => .null
  | containerMarker => .string "Container"
  | markupLibrary => .string "React"
  | format => .string "text"

/-- The value of a key: that of the arguments, else that of the members of a file, else the one that
holds by default. -/
def setting (file : List (Text × Json)) (a : Overrides) (key : Key) : Json :=
  ((a.value? key).or (Json.find? key.name file)).getD key.standard

/-- Whether a value is null. -/
def Json.isNull : Json → Bool
  | null => true
  | _ => false

namespace Configuration

/-- What a configuration sets a key to. -/
def value (c : Configuration) : Key → Json
  | .hideContainers => .bool c.hideContainers
  | .hideThirdParty => .bool c.hideThirdParty
  | .moduleDir => (c.moduleDir.map Json.string).getD .null
  | .scanDepth => (c.scanDepth.map Json.integer).getD .null
  | .containerMarker => .string c.containerMarker
  | .markupLibrary => .string c.markupLibrary
  | .format => .string c.format.name

/-- A configuration has one member for each key, with its value. -/
theorem find?_members (c : Configuration) (key : Key) :
    Json.find? key.name c.members = some (c.value key) := by
  have hmembers : c.members =
      Key.all.filterMap fun key => (some (c.value key)).map fun v => (ofString key.name, v) := rfl
  rw [hmembers, Key.find?_filterMap, if_pos key.mem_all]

/-- What is not set is null, and anything else is what the configuration makes settings of. -/
theorem value_eq (c : Configuration) (key : Key) :
    c.value key = (c.toSettings.value? key).getD key.standard := by
  cases key <;> rfl

/-- Configurations are known by their values. -/
theorem ext_value (h : ∀ key, c.value key = c'.value key) : c = c' := by
  -- An unset option is given as null, which no value of an option is.
  have hnull : ∀ {α : Type} {f : α → Json}, Function.Injective f → (∀ x, f x ≠ .null) →
      Function.Injective fun o : Option α => (o.map f).getD .null := by
    rintro α f hf hne (_ | x) (_ | y) hxy
    · rfl
    · exact absurd hxy.symm (hne y)
    · exact absurd hxy (hne x)
    · exact congrArg some (hf hxy)
  obtain ⟨p, t, d, n, m, l, f⟩ := c
  obtain ⟨p', t', d', n', m', l', f'⟩ := c'
  obtain rfl := Json.bool.inj (h .hideContainers)
  obtain rfl := Json.bool.inj (h .hideThirdParty)
  obtain rfl := hnull (fun _ _ => Json.string.inj) (fun _ => Json.noConfusion) (h .moduleDir)
  obtain rfl := hnull (fun _ _ => Json.integer.inj) (fun _ => Json.noConfusion) (h .scanDepth)
  obtain rfl := Json.string.inj (h .containerMarker)
  obtain rfl := Json.string.inj (h .markupLibrary)
  obtain rfl := Format.ofString_name_injective (Json.string.inj (h .format))
  rfl

/-- Without those that are null, the members of a configuration are those of its settings. -/
theorem filter_members (c : Configuration) :
    (c.members.filter fun m => !m.2.isNull) = c.toSettings.members := by
  obtain ⟨p, t, d, n, m, l, f⟩ := c
  cases d <;> cases n <;> rfl

end Configuration

namespace Settings

/-! ### Merging -/

/-- **Merging.** A merged configuration has the values of the arguments, then those of the settings, then
those that hold by default. -/
theorem value_merge (s : Settings) (a : Overrides) (key : Key) :
    (s.merge a).value key = ((a.value? key).or (s.value? key)).getD key.standard := by
  obtain ⟨p, t, d, n, m, l, f⟩ := s
  obtain ⟨p', t', d', n', f'⟩ := a
  cases key with
  | hideContainers => cases p' <;> cases p <;> rfl
  | hideThirdParty => cases t' <;> cases t <;> rfl
  | moduleDir => cases d' <;> cases d <;> rfl
  | scanDepth => cases n' <;> cases n <;> rfl
  | containerMarker => cases m <;> rfl
  | markupLibrary => cases l <;> rfl
  | format => cases f' <;> cases f <;> rfl

/-- Members that make settings have the values that are merged. -/
theorem value_merge_eq_setting (h : ofMembers file = .ok s) (a : Overrides) (key : Key) :
    (s.merge a).value key = setting file a key := by
  rw [value_merge, (ofMembers_eq_ok_iff.1 h).2 key, setting]

/-- A configuration that is merged again keeps its values but for those of the arguments. -/
theorem value_merge_toSettings (c : Configuration) (a : Overrides) (key : Key) :
    (c.toSettings.merge a).value key = (a.value? key).getD (c.value key) := by
  rw [value_merge, Option.getD_or, c.value_eq]

/-- To merge the same overrides again changes nothing. -/
theorem merge_toSettings_merge (s : Settings) (a : Overrides) :
    (s.merge a).toSettings.merge a = s.merge a := by
  refine Configuration.ext_value fun key => ?_
  rw [value_merge_toSettings, value_merge, Option.getD_or]
  cases a.value? key <;> rfl

/-- To merge no overrides changes nothing. -/
theorem merge_toSettings (c : Configuration) : c.toSettings.merge {} = c := by
  refine Configuration.ext_value fun key => ?_
  have hnone : Overrides.value? {} key = none := by cases key <;> rfl
  rw [value_merge_toSettings, hnone, Option.getD_none]

/-- The members of a configuration, with all that is null, are merged to what they are. -/
theorem setting_members (c : Configuration) (a : Overrides) (key : Key) :
    setting c.members a key = (a.value? key).getD (c.value key) := by
  rw [setting, c.find?_members, Option.getD_or, Option.getD_some]

/-! ### In a file or by arguments -/

/-- Settings of which only some are made in a file. Those that arguments cannot make are left in it. -/
def inFile (s : Settings) (here : Key → Bool) : Settings :=
  { s with
    hideContainers := if here .hideContainers then s.hideContainers else none
    hideThirdParty := if here .hideThirdParty then s.hideThirdParty else none
    moduleDir := if here .moduleDir then s.moduleDir else none
    scanDepth := if here .scanDepth then s.scanDepth else none
    format := if here .format then s.format else none }

/-- Arguments that make some of the settings. What is not to be hidden has no flag. -/
def asArguments (s : Settings) (here : Key → Bool) : Overrides :=
  { hideContainers := here .hideContainers && s.hideContainers.getD false
    hideThirdParty := here .hideThirdParty && s.hideThirdParty.getD false
    moduleDir := if here .moduleDir then s.moduleDir else none
    scanDepth := if here .scanDepth then s.scanDepth else none
    format := if here .format then s.format else none }

/-- **Either way.** Settings make one configuration, whichever of them are made in a file and whichever
by arguments. -/
theorem merge_inFile_asArguments (s : Settings) (here : Key → Bool) :
    (s.inFile here).merge (s.asArguments fun key => !here key) = s.merge {} := by
  obtain ⟨p, t, d, n, m, l, f⟩ := s
  rw [merge, merge, Configuration.mk.injEq]
  refine ⟨?_, ?_, ?_, ?_, rfl, rfl, ?_⟩
  · cases hhere : here .hideContainers <;> cases p <;> simp [inFile, asArguments, hhere]
  · cases hhere : here .hideThirdParty <;> cases t <;> simp [inFile, asArguments, hhere]
  · cases hhere : here .moduleDir <;> simp [inFile, asArguments, hhere]
  · cases hhere : here .scanDepth <;> simp [inFile, asArguments, hhere]
  · cases hhere : here .format <;> simp [inFile, asArguments, hhere]

/-! ### What is said of merging -/

/-- What the members of a file and arguments are merged to. -/
structure Merged (file : List (Text × Json)) (a : Overrides) (c : Configuration) : Prop where
  /-- There is one member for each key. -/
  keys : c.members.map Prod.fst = ["hide_containers", "hide_third_party", "module_dir", "scan_depth",
    "container_marker", "markup_library", "format"].map ofString
  /-- Its value is that of the arguments, else that of the file, else the one that holds by default. -/
  value : ∀ key : Key, Json.find? key.name c.members = some (setting file a key)
  /-- The members that are not null are accepted. -/
  accepted : ofMembers (c.members.filter fun m => !m.2.isNull) = .ok c.toSettings
  /-- To merge the configuration with the same arguments again, or with none, changes nothing. -/
  again : ∀ b, b = a ∨ b = {} →
    c.toSettings.merge b = c ∧ ∀ key, setting c.members b key = setting file a key

/-- **Merging.** What accepted settings and overrides are merged into has all that is asked of it.
-/
theorem merged_merge (h : ofMembers file = .ok s) (a : Overrides) : Merged file a (s.merge a) where
  keys := rfl
  value key := by rw [Configuration.find?_members, value_merge_eq_setting h]
  accepted := by rw [Configuration.filter_members, ofMembers_members]
  again b hb := by
    have hagain : (s.merge a).toSettings.merge b = s.merge a := by
      rcases hb with rfl | rfl
      · exact s.merge_toSettings_merge b
      · exact merge_toSettings _
    refine ⟨hagain, fun key => ?_⟩
    rw [setting_members, ← value_merge_toSettings, hagain, value_merge_eq_setting h]

/-- **Merging.** The settings that a file makes are merged with arguments key by key. Any of those that
arguments can make may be taken from the file and made by arguments instead, and what is left in the
file is still accepted. -/
theorem merge_merges (file : List (Text × Json)) (s : Settings) (h : ofMembers file = .ok s) :
    (∀ a, Merged file a (s.merge a)) ∧
      ∀ here : Key → Bool, ofMembers (s.inFile here).members = .ok (s.inFile here) ∧
        (s.inFile here).merge (s.asArguments fun key => !here key) = s.merge {} :=
  ⟨merged_merge h, fun here => ⟨ofMembers_members _, s.merge_inFile_asArguments here⟩⟩

/-- The members of a file with values that are empty, zero or false. -/
def quietFile : List (Text × Json) :=
  [("format", .string "json"), ("scan_depth", .integer 0), ("module_dir", .string ""),
    ("hide_containers", .bool false)]

/-- The settings that the members of a quiet file make. -/
def quiet : Settings :=
  { hideContainers := some false, moduleDir := some "", scanDepth := some 0, format := some .json }

/-- A quiet file is merged with arguments, and its depth may be an argument. -/
theorem quietFile_merges :
    ofMembers quietFile = .ok quiet ∧
      Merged quietFile { hideContainers := true, scanDepth := some (-3) }
        (quiet.merge { hideContainers := true, scanDepth := some (-3) }) ∧
      (quiet.inFile (· != .scanDepth)).merge { scanDepth := some 0 } = quiet.merge {} :=
  have h : ofMembers quietFile = .ok quiet := rfl
  ⟨h, (merge_merges quietFile quiet h).1 _, ((merge_merges quietFile quiet h).2 _).2⟩

end Settings

end RenderTree
