import RenderTree.Proofs.Report.Writing
import RenderTree.Settings

/-!
# Members that are accepted

The members of a configuration file are checked one by one, and the name of the format when all of
them have passed. Which settings they make can be told key by key.

* `Key.Takes` — the values that a key takes.
* `IsSetting` — a member whose name is that of a key, and whose value the key takes.
* `Settings.Blames` — an error that tells by its name what is wrong with a member.
* `Settings.value?` — what settings have for a key, as a JSON value.
* `Settings.ofMembers_eq_ok_iff` — the settings that are made have what the members have.
* `Settings.firstFault_of_ofMembers` — which of several faults is reported.
* `Settings.ofMembers_members` — all settings can be made.
-/

namespace RenderTree

open RenderTree.Text

variable {key key' : Key} {v : Json} {m : Text × Json} {ms : List (Text × Json)}
  {s s' : Settings} {e : ConfigError} {k : Text}

/-! ### Looking members up -/

/-- What is found by a name is among the members. -/
theorem Json.mem_of_find? (h : Json.find? k ms = some v) : (k, v) ∈ ms := by
  induction ms with
  | nil => cases h
  | cons m ms ih =>
    obtain ⟨l, w⟩ := m
    rw [Json.find?] at h
    split at h
    next hl =>
      obtain rfl := Option.some.inj h
      rw [hl]
      exact List.mem_cons_self
    next => exact List.mem_cons_of_mem _ (ih h)

/-! ### Keys -/

namespace Key

/-- The values that a key takes: truth values for what can be hidden, whole numbers for a depth, texts
for everything else. A truth value is no number. -/
def Takes : Key → Json → Prop
  | hideContainers, v | hideThirdParty, v => ∃ b, v = .bool b
  | scanDepth, v => ∃ n, v = .integer n
  | moduleDir, v | containerMarker, v | markupLibrary, v | format, v => ∃ t, v = .string t

/-- The check of a value is whether the key takes it. -/
theorem accepts_iff : key.accepts v = true ↔ key.Takes v := by
  cases key <;> cases v <;> simp [accepts, Takes]

/-- A key is found by its name. -/
theorem ofName?_name (key : Key) : ofName? key.name = some key := by
  cases key <;> decide

/-- The names of keys are distinct as texts. -/
theorem ofString_name_injective : Function.Injective fun key : Key => ofString key.name :=
  name_injective_of_find? ofName?_name

/-- A key is found by a name if that is its own. -/
theorem ofName?_eq_some_iff : ofName? k = some key ↔ ofString key.name = k :=
  find?_name_eq_some_iff ofName?_name

/-- No key is found by a name that is none of theirs. -/
theorem ofName?_eq_none_iff : ofName? k = none ↔ ∀ key : Key, ofString key.name ≠ k :=
  find?_name_eq_none_iff ofName?_name

/-- All keys are listed. -/
theorem mem_all (key : Key) : key ∈ all := by
  cases key <;> decide

/-- Members that have a value for some of the keys, each under its name, have these values. -/
theorem find?_filterMap (f : Key → Option Json) (key : Key) (keys : List Key) :
    Json.find? key.name (keys.filterMap fun k => (f k).map fun v => (ofString k.name, v)) =
      if key ∈ keys then f key else none := by
  induction keys with
  | nil => rfl
  | cons k keys ih =>
    by_cases hk : k = key
    · subst hk
      cases hf : f k with
      | none =>
        rw [List.filterMap_cons_none (by rw [hf]; rfl), ih, hf, ite_self, ite_self]
      | some v =>
        rw [List.filterMap_cons_some (by rw [hf]; rfl), Json.find?, if_pos rfl,
          if_pos List.mem_cons_self]
    · -- Another key has another name.
      have hname : ofString k.name ≠ ofString key.name := fun h => hk (ofString_name_injective h)
      have hmem : key ∈ k :: keys ↔ key ∈ keys :=
        List.mem_cons.trans (or_iff_right fun h => hk h.symm)
      simp only [hmem, ← ih]
      cases hf : f k with
      | none => rw [List.filterMap_cons_none (by rw [hf]; rfl)]
      | some v =>
        rw [List.filterMap_cons_some (by rw [hf]; rfl), Json.find?, if_neg hname]

end Key

/-- A member sets something: its name is that of a key, which takes its value. -/
def IsSetting (m : Text × Json) : Prop :=
  ∃ key : Key, ofString key.name = m.1 ∧ key.Takes m.2

/-- A member with the name of a key sets something only if the key takes its value. -/
theorem IsSetting.takes (h : IsSetting m) (hname : ofString key.name = m.1) : key.Takes m.2 := by
  obtain ⟨key', hname', htakes⟩ := h
  rw [← Key.ofString_name_injective (hname'.trans hname.symm)]
  exact htakes

/-- Where all members set something, what is found for a key is a value that it takes. -/
theorem takes_of_find? (h : ∀ m ∈ ms, IsSetting m) (hv : Json.find? key.name ms = some v) :
    key.Takes v :=
  (h _ (Json.mem_of_find? hv)).takes rfl

namespace Settings

/-! ### Faults -/

/-- The error tells what is wrong with a member, by its name: it is that of no key, or of one that does
not take the value. -/
inductive Blames (m : Text × Json) (e : ConfigError) : Prop where
  | unknown (name : ∀ key : Key, ofString key.name ≠ m.1)
      (message : e.message = "Unknown configuration key: " ++ m.1)
  | wrong {key : Key} (name : ofString key.name = m.1) (value : ¬ key.Takes m.2)
      (message : e.message = "Invalid value for " ++ m.1 ++ ": " ++ m.2.inMessage)

/-- A member that is blamed sets nothing. -/
theorem Blames.not_isSetting (h : Blames m e) : ¬ IsSetting m := by
  intro hm
  cases h with
  | unknown name =>
    obtain ⟨key, hname, -⟩ := hm
    exact name key hname
  | wrong name value => exact value (hm.takes name)

/-- An error of a member blames it. -/
theorem blames_of_memberError? (h : memberError? m = some e) : Blames m e := by
  unfold memberError? at h
  split at h
  next hname =>
    obtain rfl := Option.some.inj h
    exact .unknown (Key.ofName?_eq_none_iff.1 hname) rfl
  next key hname =>
    split at h
    · cases h
    next hvalue =>
      obtain rfl := Option.some.inj h
      have hname := Key.ofName?_eq_some_iff.1 hname
      refine .wrong hname (fun htakes => hvalue (Key.accepts_iff.2 htakes)) ?_
      rw [← hname]
      rfl

/-- A member has no error if it is a setting. -/
theorem memberError?_eq_none_iff : memberError? m = none ↔ IsSetting m := by
  constructor
  · intro h
    unfold memberError? at h
    split at h
    · cases h
    next key hname =>
      split at h
      next hvalue => exact ⟨key, Key.ofName?_eq_some_iff.1 hname, Key.accepts_iff.1 hvalue⟩
      · cases h
  · intro h
    rw [Option.eq_none_iff_forall_ne_some]
    exact fun e he => (blames_of_memberError? he).not_isSetting h

/-- How an unsupported format is told of. -/
theorem message_unsupportedFormat (name : Text) :
    (ConfigError.unsupportedFormat name).message =
      "Invalid value for format: " ++ quoted name ++ " (expected one of: text, json)" := by
  have hformats : ofString (", ".intercalate (Format.all.map Format.name)) ++ ofString ")" =
      ofString "text, json)" := by
    decide
  show ofString "Invalid value for " ++ ofString Key.format.name ++ ofString ": " ++
    ofString (quoted name) ++ ofString " (expected one of: " ++
      ofString (", ".intercalate (Format.all.map Format.name)) ++ ofString ")" = _
  rw [List.append_assoc, hformats, List.append_assoc]
  rfl

/-- The fault of members that is reported: the first of those that set nothing is blamed; if there is
none, the name of the format is that of no format. -/
inductive FirstFault (ms : List (Text × Json)) (e : ConfigError) : Prop where
  | member {before after : List (Text × Json)} {m : Text × Json}
      (members : ms = before ++ m :: after) (sound : ∀ x ∈ before, IsSetting x) (blames : Blames m e)
  | format {name : Text} (sound : ∀ m ∈ ms, IsSetting m)
      (value : Json.find? "format" ms = some (.string name))
      (unsupported : name ≠ "text" ∧ name ≠ "json")
      (message : e.message = "Invalid value for format: " ++ quoted name ++
        " (expected one of: text, json)")

/-- No member has an error if all of them are settings. -/
theorem findSome?_memberError?_eq_none_iff :
    ms.findSome? memberError? = none ↔ ∀ m ∈ ms, IsSetting m := by
  rw [List.findSome?_eq_none_iff]
  exact forall₂_congr fun _ _ => memberError?_eq_none_iff

/-- A text is set if the member of the key is that text. -/
theorem string?_eq_some_iff {t : Text} :
    string? key ms = some t ↔ Json.find? key.name ms = some (.string t) := by
  unfold string?
  split
  next u hu => rw [hu, Option.some.injEq, Option.some.injEq, Json.string.injEq]
  next h => exact iff_of_false (by simp) (h t)

/-- **Faults.** Members that make no settings have a fault, and the first one is reported. -/
theorem firstFault_of_ofMembers (h : ofMembers ms = .error e) : FirstFault ms e := by
  unfold ofMembers at h
  split at h
  next e' he =>
    cases h
    obtain ⟨before, m, after, rfl, hm, hbefore⟩ := List.findSome?_eq_some_iff.1 he
    exact .member rfl (fun x hx => memberError?_eq_none_iff.1 (hbefore x hx))
      (blames_of_memberError? hm)
  -- No member has an error, so it is the format that is not supported.
  next hnone =>
    split at h
    · cases h
    next name hname =>
      split at h
      · cases h
      next hformat =>
        cases h
        refine .format (findSome?_memberError?_eq_none_iff.1 hnone) (string?_eq_some_iff.1 hname)
          ⟨?_, ?_⟩ (message_unsupportedFormat name)
        · rintro rfl
          cases hformat
        · rintro rfl
          cases hformat

/-! ### Values -/

/-- What settings have for a key, as a JSON value. -/
def value? (s : Settings) : Key → Option Json
  | .hideContainers => s.hideContainers.map .bool
  | .hideThirdParty => s.hideThirdParty.map .bool
  | .moduleDir => s.moduleDir.map .string
  | .scanDepth => s.scanDepth.map .integer
  | .containerMarker => s.containerMarker.map .string
  | .markupLibrary => s.markupLibrary.map .string
  | .format => s.format.map fun f => .string (ofString f.name)

/-- What settings have for a key is a value that it takes. -/
theorem takes_of_value? (h : s.value? key = some v) : key.Takes v := by
  cases key with
  | hideContainers | hideThirdParty | moduleDir | scanDepth | containerMarker | markupLibrary =>
    obtain ⟨x, -, rfl⟩ := Option.map_eq_some_iff.1 h
    exact ⟨x, rfl⟩
  | format =>
    obtain ⟨f, -, rfl⟩ := Option.map_eq_some_iff.1 h
    exact ⟨ofString f.name, rfl⟩

/-- Settings are known by their values. -/
theorem ext_value? (h : ∀ key, s.value? key = s'.value? key) : s = s' := by
  have hbool : Function.Injective Json.bool := fun _ _ => Json.bool.inj
  have hstring : Function.Injective Json.string := fun _ _ => Json.string.inj
  have hinteger : Function.Injective Json.integer := fun _ _ => Json.integer.inj
  have hformat : Function.Injective fun f : Format => Json.string (ofString f.name) :=
    fun _ _ h => Format.ofString_name_injective (Json.string.inj h)
  obtain ⟨c, t, d, n, m, l, f⟩ := s
  obtain ⟨c', t', d', n', m', l', f'⟩ := s'
  obtain rfl := Option.map_injective hbool (h .hideContainers)
  obtain rfl := Option.map_injective hbool (h .hideThirdParty)
  obtain rfl := Option.map_injective hstring (h .moduleDir)
  obtain rfl := Option.map_injective hinteger (h .scanDepth)
  obtain rfl := Option.map_injective hstring (h .containerMarker)
  obtain rfl := Option.map_injective hstring (h .markupLibrary)
  obtain rfl := Option.map_injective hformat (h .format)
  rfl

/-- Where a key has only switches as values, the setting is the member. -/
theorem map_bool? (h : ∀ v, Json.find? key.name ms = some v → ∃ b, v = .bool b) :
    (bool? key ms).map Json.bool = Json.find? key.name ms := by
  unfold bool?
  cases hv : Json.find? key.name ms with
  | none => rfl
  | some v =>
    obtain ⟨b, rfl⟩ := h v hv
    rfl

/-- Where a key has only texts as values, the setting is the member. -/
theorem map_string? (h : ∀ v, Json.find? key.name ms = some v → ∃ t, v = .string t) :
    (string? key ms).map Json.string = Json.find? key.name ms := by
  unfold string?
  cases hv : Json.find? key.name ms with
  | none => rfl
  | some v =>
    obtain ⟨t, rfl⟩ := h v hv
    rfl

/-- Where a key has only whole numbers as values, the setting is the member. -/
theorem map_integer? (h : ∀ v, Json.find? key.name ms = some v → ∃ n, v = .integer n) :
    (integer? key ms).map Json.integer = Json.find? key.name ms := by
  unfold integer?
  cases hv : Json.find? key.name ms with
  | none => rfl
  | some v =>
    obtain ⟨n, rfl⟩ := h v hv
    rfl

/-- What is taken from members that all set something is what they have. -/
theorem value?_take (h : ∀ m ∈ ms, IsSetting m) {f : Option Format}
    (hf : (f.map fun f => Json.string (ofString f.name)) = Json.find? Key.format.name ms) (key : Key) :
    (take ms f).value? key = Json.find? key.name ms := by
  cases key with
  | format => exact hf
  | hideContainers | hideThirdParty => exact map_bool? fun v hv => takes_of_find? h hv
  | scanDepth => exact map_integer? fun v hv => takes_of_find? h hv
  | moduleDir | containerMarker | markupLibrary =>
    exact map_string? fun v hv => takes_of_find? h hv

/-- **Settings.** Members make settings exactly if each of them sets something and the settings have
for every key what the members have. -/
theorem ofMembers_eq_ok_iff :
    ofMembers ms = .ok s ↔
      (∀ m ∈ ms, IsSetting m) ∧ ∀ key, s.value? key = Json.find? key.name ms := by
  unfold ofMembers
  constructor
  · intro h
    split at h
    · cases h
    next hnone =>
      have hsound := findSome?_memberError?_eq_none_iff.1 hnone
      have hstring : (string? .format ms).map Json.string = Json.find? Key.format.name ms :=
        map_string? fun v hv => takes_of_find? hsound hv
      split at h
      next hname =>
        cases h
        rw [hname] at hstring
        exact ⟨hsound, value?_take hsound hstring⟩
      next name hname =>
        split at h
        next f hf =>
          cases h
          rw [hname, ← Format.name_of_ofName? hf] at hstring
          exact ⟨hsound, value?_take hsound hstring⟩
        · cases h
  · rintro ⟨hsound, hvalues⟩
    rw [findSome?_memberError?_eq_none_iff.2 hsound]
    have hstring : (string? .format ms).map Json.string = Json.find? Key.format.name ms :=
      map_string? fun v hv => takes_of_find? hsound hv
    -- The format is that of the settings, be there one or none.
    have hformat : string? .format ms = s.format.map fun f => ofString f.name := by
      apply Option.map_injective (f := Json.string) fun _ _ => Json.string.inj
      rw [hstring, ← hvalues .format, Option.map_map]
      rfl
    have htake : take ms s.format = s :=
      ext_value? fun key => (value?_take hsound (hvalues .format) key).trans (hvalues key).symm
    rw [hformat]
    cases hf : s.format with
    | none =>
      rw [hf] at htake
      exact congrArg _ htake
    | some f =>
      rw [hf] at htake
      simp only [Option.map_some, Format.ofName?_name]
      exact congrArg _ htake

/-- **Acceptance.** Members make settings exactly if each of them sets something, and the format, if
there is one, is text or JSON. -/
theorem exists_ofMembers_iff :
    (∃ s, ofMembers ms = .ok s) ↔
      (∀ m ∈ ms, IsSetting m) ∧
        ∀ v, Json.find? "format" ms = some v → v = .string "text" ∨ v = .string "json" := by
  constructor
  · rintro ⟨s, h⟩
    obtain ⟨hsound, hvalues⟩ := ofMembers_eq_ok_iff.1 h
    refine ⟨hsound, fun v hv => ?_⟩
    obtain ⟨f, -, rfl⟩ := Option.map_eq_some_iff.1 ((hvalues .format).trans hv)
    cases f with
    | text => exact .inl rfl
    | json => exact .inr rfl
  · rintro ⟨hsound, hformat⟩
    cases h : ofMembers ms with
    | ok s => exact ⟨s, rfl⟩
    | error e =>
      exfalso
      -- A fault would be that of a member or that of the format.
      cases firstFault_of_ofMembers h with
      | @member before after m members _ blames =>
        exact blames.not_isSetting (hsound m (members ▸ List.mem_append_right _ List.mem_cons_self))
      | format _ value unsupported =>
        rcases hformat _ value with hv | hv
        · exact unsupported.1 (Json.string.inj hv)
        · exact unsupported.2 (Json.string.inj hv)

/-! ### Members of settings -/

/-- The members of settings, key by key. -/
theorem members_eq (s : Settings) :
    s.members = Key.all.filterMap fun key => (s.value? key).map fun v => (ofString key.name, v) := by
  rfl

/-- By the name of a key its value is found among the members. -/
theorem find?_members (s : Settings) (key : Key) :
    Json.find? key.name s.members = s.value? key := by
  rw [members_eq, Key.find?_filterMap, if_pos key.mem_all]

/-- **All settings.** The members that make settings are accepted, and make them. -/
theorem ofMembers_members (s : Settings) : ofMembers s.members = .ok s := by
  refine ofMembers_eq_ok_iff.2 ⟨fun m hm => ?_, fun key => (s.find?_members key).symm⟩
  rw [members_eq] at hm
  obtain ⟨key, -, hm⟩ := List.mem_filterMap.1 hm
  obtain ⟨v, hv, rfl⟩ := Option.map_eq_some_iff.1 hm
  exact ⟨key, rfl, takes_of_value? hv⟩

end Settings

end RenderTree
