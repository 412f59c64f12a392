import EventPipeline.Configuration.Settings
import EventPipeline.Proofs.Configuration.Layering
import EventPipeline.Proofs.Fallible

/-!
# Settings of a configuration

The settings come from the section `engine` of a configuration and from nowhere else. A setting that the section
gives is taken as it is, and has to be valid; one that it does not give is the built-in one (`Resolved`). So a
configuration either has settings or is refused with one of the two failures that callers know (`Expected`), with one
exception: in a merge an array takes the place of whatever was there, also that of the built-in section, and an array
that holds something is then asked for its fields.
-/

namespace EventPipeline

namespace Settings

open EventPipeline.Configuration

/-! ### What the settings of a configuration are -/

/-- What the section of a configuration gives under a key. -/
def given? (config : Fields) (key : Text) : Option Value :=
  (config.find? (.name sectionName)).bind fun v => v.asFields?.bind (·.find? (.name key))

/-- The settings of a configuration: what its section gives, and the built-in values for the rest. -/
structure Resolved (config : Fields) (s : Settings) : Prop where
  /-- The section is an object if there is one. -/
  isObject : ∀ v, config.find? (.name sectionName) = some v → IsObject v
  /-- The directory of spilled events, given or built in. -/
  spilloverDir : (given? config spilloverDirKey).getD (.text default.spilloverDir) = .text s.spilloverDir
  /-- It is not blank. -/
  spilloverDir_filled : ∃ c ∈ s.spilloverDir, c.isBlank = false
  /-- The field that dates an event, given or built in. -/
  timestampField : (given? config timestampFieldKey).getD (.text default.timestampField) = .text s.timestampField
  /-- It is not blank. -/
  timestampField_filled : ∃ c ∈ s.timestampField, c.isBlank = false
  /-- The capacity, given or built in: an integer from zero on. -/
  defaultBufferCapacity :
    (given? config capacityKey).getD (.nat default.defaultBufferCapacity) = .nat s.defaultBufferCapacity

/-- The failures with which a configuration is refused. -/
inductive Expected : Failure → Prop
  /-- A value is not valid. -/
  | invalid (message : Text) (details : Fields) (hint : Option Text) : Expected (.configuration message details hint)
  /-- A value does not fit to the built-in one. -/
  | conflict (message : Text) (path key : Option Text) : Expected (.config .typeConflict message path key)

/-- The section is an array that holds something. -/
def SectionIsList (config : Fields) : Prop :=
  ∃ v vs, config.find? (.name sectionName) = some (.array (v :: vs))

/-! ### The checks -/

theorem requireText_ok_iff {key t : Text} {v : Value} :
    requireText key v = .ok t ↔ v = .text t ∧ ∃ c ∈ t, c.isBlank = false := by
  rw [← Text.isBlank_eq_false_iff]
  unfold requireText
  cases v with
  | text t' =>
    dsimp only
    split_ifs with hb
    · simp only [Value.text.injEq, false_iff, not_and, Bool.not_eq_false]
      rintro rfl
      exact hb
    · simp only [Except.ok.injEq, Value.text.injEq, iff_self_and]
      rintro rfl
      exact Bool.eq_false_iff.2 hb
  | _ => simp

theorem expected_of_requireText {key : Text} {v : Value} {f : Failure} (h : requireText key v = .error f) :
    Expected f := by
  have hrefuse : ∀ w, Expected (requireText.refuse key w) := fun w => .invalid _ _ _
  unfold requireText at h
  split at h
  · split_ifs at h
    cases h
    exact hrefuse _
  · cases h
    exact hrefuse _

theorem requireCapacity_ok_iff {key : Text} {v : Value} {n : Nat} : requireCapacity key v = .ok n ↔ v = .nat n := by
  unfold requireCapacity
  split
  · simp [Value.nat]
  · rename_i hno
    simp only [reduceCtorEq, false_iff]
    rintro rfl
    exact hno n rfl

theorem expected_of_requireCapacity {key : Text} {v : Value} {f : Failure} (h : requireCapacity key v = .error f) :
    Expected f := by
  unfold requireCapacity at h
  split at h
  · cases h
  · cases h
    exact .invalid _ _ _

theorem ofFields_ok_iff {fields : Fields} {s : Settings} :
    ofFields fields = .ok s ↔
      requireText spilloverDirKey ((fields.find? (.name spilloverDirKey)).getD .null) = .ok s.spilloverDir ∧
      requireText timestampFieldKey ((fields.find? (.name timestampFieldKey)).getD .null) = .ok s.timestampField ∧
      requireCapacity capacityKey ((fields.find? (.name capacityKey)).getD .null) = .ok s.defaultBufferCapacity := by
  constructor
  · intro h
    obtain ⟨d, hd, h⟩ := ok_of_bind_ok h
    obtain ⟨t, ht, h⟩ := ok_of_bind_ok h
    obtain ⟨n, hn, h⟩ := ok_of_bind_ok h
    cases h
    exact ⟨hd, ht, hn⟩
  · rintro ⟨hd, ht, hn⟩
    simp only [ofFields, hd, ht, hn]
    rfl

theorem expected_of_ofFields {fields : Fields} {f : Failure} (h : ofFields fields = .error f) : Expected f := by
  rcases error_of_bind_error h with hd | ⟨d, -, h⟩
  · exact expected_of_requireText hd
  rcases error_of_bind_error h with ht | ⟨t, -, h⟩
  · exact expected_of_requireText ht
  rcases error_of_bind_error h with hn | ⟨n, -, h⟩
  · exact expected_of_requireCapacity hn
  · cases h

/-! ### The section over the built-in one -/

/-- The settings depend on the section only: it is laid over the built-in one, and then its fields are read. -/
theorem resolve_object {config : Fields} (hd : config.keys.Nodup) :
    resolve (.object config) =
      match mergeKey (some (.object defaultSection)) (config.find? (.name sectionName)) with
      | .error c => .error (c.under (.name sectionName)).toFailure
      | .ok v => sectionFields (v.getD .null) >>= ofFields := by
  have hempty : orEmpty (.object config) = .object config := by
    unfold orEmpty
    cases config <;> rfl
  have hresolve : resolve (.object config) =
      match mergeFields [(.name sectionName, .object defaultSection)] config with
      | .error c => .error c.toFailure
      | .ok merged => sectionFields ((merged.find? (.name sectionName)).getD .null) >>= ofFields := by
    rw [resolve, hempty, defaultConfig, merge]
    cases mergeFields [(.name sectionName, .object defaultSection)] config <;> rfl
  rw [hresolve]
  cases hm : mergeFields [(.name sectionName, .object defaultSection)] config with
  | ok merged =>
    have hkey := (mergeFields_ok hd hm).mergeKey (.name sectionName)
    rw [Table.find?, if_pos rfl] at hkey
    rw [hkey]
  | error c =>
    obtain ⟨before, after, k, v, c', rfl, -, herr, rfl⟩ := mergeFields_error hd hm
    -- the built-in configuration has nothing that any other key could be in conflict with
    have hk : k = .name sectionName := by
      by_contra hne
      rw [Table.find?, if_neg fun h => hne h.symm] at herr
      cases (mergeValue_none v).symm.trans herr
    subst hk
    have hv : Table.find? (before ++ (.name sectionName, v) :: after) (.name sectionName) = some v :=
      Table.find?_of_mem hd (List.mem_append_right _ List.mem_cons_self)
    rw [Table.find?, if_pos rfl] at herr
    rw [hv, mergeKey, herr]
    rfl

/-- The fields hold what the section gives, and the built-in values for the rest. -/
def Laid (config fields : Fields) : Prop :=
  ∀ key v, defaultSection.find? (.name key) = some v → fields.find? (.name key) = some ((given? config key).getD v)

theorem given?_of_none {config : Fields} (h : config.find? (.name sectionName) = none) (key : Text) :
    given? config key = none := by
  rw [given?, h, Option.bind_none]

theorem given?_of_object {config os : Fields} (h : config.find? (.name sectionName) = some (.object os)) (key : Text) :
    given? config key = os.find? (.name key) := by
  rw [given?, h]
  rfl

theorem default_cases {k : Key} {d : Value} (h : defaultSection.find? k = some d) :
    (k = .name spilloverDirKey ∧ d = .text default.spilloverDir) ∨
      (k = .name timestampFieldKey ∧ d = .text default.timestampField) ∨
      (k = .name capacityKey ∧ d = .nat default.defaultBufferCapacity) := by
  have hm := Table.mem_of_find? h
  simpa only [defaultSection, List.mem_cons, Prod.mk.injEq, List.not_mem_nil, or_false] using hm

theorem kindOf_default {k : Key} {d : Value} (h : defaultSection.find? k = some d) : kindOf d ≠ .object := by
  rcases default_cases h with ⟨-, rfl⟩ | ⟨-, rfl⟩ | ⟨-, rfl⟩ <;> decide

/-- No built-in value makes way for a value of another kind. -/
theorem mergeValue_default {k : Key} {d v r : Value} (hk : defaultSection.find? k = some d)
    (h : mergeValue (some d) v = .ok r) : r = v := by
  rcases mergeValue_ok_iff.1 h with ⟨-, hr⟩ | ⟨bs, os, rs, hb, -⟩
  · exact hr
  · cases hb
    exact absurd rfl (kindOf_default hk)

theorem laid_of_merged {config os rs : Fields} (h : config.find? (.name sectionName) = some (.object os))
    (hos : os.keys.Nodup) (hm : mergeFields defaultSection os = .ok rs) : Laid config rs := by
  intro key d hd
  have hmerged := mergeFields_ok hos hm
  rw [given?_of_object h]
  cases hv : os.find? (.name key) with
  | none => rw [hmerged.kept _ hv, hd, Option.getD_none]
  | some v =>
    obtain ⟨r, hr, hfound⟩ := hmerged.merged _ v hv
    rw [hd] at hr
    rw [hfound, mergeValue_default hd hr, Option.getD_some]

theorem ofFields_laid {config fields : Fields} (h : Laid config fields)
    (hobject : ∀ v, config.find? (.name sectionName) = some v → IsObject v) (s : Settings) :
    ofFields fields = .ok s ↔ Resolved config s := by
  rw [ofFields_ok_iff, h spilloverDirKey _ rfl, h timestampFieldKey _ rfl, h capacityKey _ rfl]
  simp only [Option.getD_some, requireText_ok_iff, requireCapacity_ok_iff]
  constructor
  · rintro ⟨⟨hd, hd'⟩, ⟨ht, ht'⟩, hn⟩
    exact ⟨hobject, hd, hd', ht, ht', hn⟩
  · intro hs
    exact ⟨⟨hs.spilloverDir, hs.spilloverDir_filled⟩, ⟨hs.timestampField, hs.timestampField_filled⟩,
      hs.defaultBufferCapacity⟩

/-- A section with values that are valid does not conflict with the built-in one. -/
theorem exists_merged {config os : Fields} (h : config.find? (.name sectionName) = some (.object os))
    (hos : os.keys.Nodup) {s : Settings} (hs : Resolved config s) : ∃ rs, mergeFields defaultSection os = .ok rs := by
  have hdir := hs.spilloverDir
  have hfield := hs.timestampField
  have hcapacity := hs.defaultBufferCapacity
  simp only [given?_of_object h] at hdir hfield hcapacity
  -- a value that is given under a key of the built-in section is of the kind of the built-in value
  have hgiven : ∀ k d v, defaultSection.find? k = some d → os.find? k = some v → kindOf d = kindOf v := by
    intro k d v hk hv
    rcases default_cases hk with ⟨rfl, rfl⟩ | ⟨rfl, rfl⟩ | ⟨rfl, rfl⟩
    · rw [hv, Option.getD_some] at hdir
      rw [hdir]
      rfl
    · rw [hv, Option.getD_some] at hfield
      rw [hfield]
      rfl
    · rw [hv, Option.getD_some] at hcapacity
      rw [hcapacity]
      rfl
  refine exists_mergeFields hos fun k => ?_
  cases hv : os.find? k with
  | none => exact ⟨_, rfl⟩
  | some v =>
    refine ⟨some v, mergeKey_some_iff.2 ⟨v, ?_, rfl⟩⟩
    cases hk : defaultSection.find? k with
    | none => exact mergeValue_none v
    | some d =>
      have hkind := hgiven k d v hk hv
      have hplain : ¬ IsObject v := by
        rw [IsObject, ← hkind]
        exact kindOf_default hk
      have hreplaces : Replaces (some d) v := .inr (.inr (.inr (.inr ⟨d, rfl, hkind, hplain⟩)))
      exact hreplaces.mergeValue

/-! ### All configurations -/

variable {config : Fields}

/-- What comes of a section, laid over the built-in one. -/
theorem resolve_section (hd : config.keys.Nodup) {v : Value} (hv : config.find? (.name sectionName) = some v) :
    resolve (.object config) =
      match mergeValue (some (.object defaultSection)) v with
      | .error c => .error (c.under (.name sectionName)).toFailure
      | .ok r => sectionFields r >>= ofFields := by
  rw [resolve_object hd, hv, mergeKey]
  cases mergeValue (some (.object defaultSection)) v <;> rfl

theorem resolve_of_none (hd : config.keys.Nodup) (hv : config.find? (.name sectionName) = none) :
    resolve (.object config) = ofFields defaultSection := by
  rw [resolve_object hd, hv]
  rfl

theorem sectionFields_object (fields : Fields) : sectionFields (.object fields) = .ok fields := by
  unfold sectionFields orEmpty
  cases fields <;> rfl

/-- A section that is no object is refused; only an array that holds something is refused by a failure that callers do
not know. -/
theorem refused_of_not_object (hd : config.keys.Nodup) {v : Value} (hv : config.find? (.name sectionName) = some v)
    (hno : ¬ IsObject v) :
    ∃ f, resolve (.object config) = .error f ∧ (¬ SectionIsList config → Expected f) := by
  have hempty : ∃ f, ofFields [] = .error f ∧ (¬ SectionIsList config → Expected f) :=
    ⟨_, rfl, fun _ => .invalid _ _ _⟩
  rw [resolve_section hd hv]
  cases v with
  | object os => exact absurd rfl hno
  | null => exact hempty
  | array vs =>
    cases vs with
    | nil => exact hempty
    | cons v vs => exact ⟨_, rfl, fun h => absurd ⟨v, vs, hv⟩ h⟩
  | bool _ | number _ | text _ => exact ⟨_, rfl, fun _ => .conflict _ _ _⟩

theorem refused_of_list (hd : config.keys.Nodup) (h : SectionIsList config) :
    resolve (.object config) = .error (.plain .lacking "'list' object has no attribute 'get'") := by
  obtain ⟨v, vs, hv⟩ := h
  rw [resolve_section hd hv]
  rfl

/-- What comes of a section that is an object. -/
theorem resolve_of_object (hd : config.keys.Nodup) {os : Fields}
    (hv : config.find? (.name sectionName) = some (.object os)) :
    resolve (.object config) =
      match mergeFields defaultSection os with
      | .error c => .error (c.under (.name sectionName)).toFailure
      | .ok rs => ofFields rs := by
  rw [resolve_section hd hv, mergeValue]
  cases mergeFields defaultSection os with
  | error c => rfl
  | ok rs =>
    simp only [Except.map, sectionFields_object]
    rfl

section

variable (hd : config.keys.Nodup)
  (hsection : ∀ os : Fields, config.find? (.name sectionName) = some (.object os) → os.keys.Nodup)

include hd hsection

theorem resolve_ok_iff (s : Settings) : resolve (.object config) = .ok s ↔ Resolved config s := by
  cases hv : config.find? (.name sectionName) with
  | none =>
    rw [resolve_of_none hd hv]
    apply ofFields_laid
    · intro key d hk
      rw [given?_of_none hv, hk, Option.getD_none]
    · intro v hv'
      cases hv.symm.trans hv'
  | some v =>
    by_cases hobject : IsObject v
    · cases v <;> try cases hobject
      rename_i os
      rw [resolve_of_object hd hv]
      cases hm : mergeFields defaultSection os with
      | error c =>
        constructor
        · intro h
          cases h
        · intro hs
          obtain ⟨rs, hrs⟩ := exists_merged hv (hsection os hv) hs
          cases hm.symm.trans hrs
      | ok rs =>
        apply ofFields_laid (laid_of_merged hv (hsection os hv) hm)
        intro v' hv'
        cases hv.symm.trans hv'
        rfl
    · obtain ⟨f, hf, -⟩ := refused_of_not_object hd hv hobject
      constructor
      · intro h
        cases hf.symm.trans h
      · intro hs
        exact absurd (hs.isObject v hv) hobject

omit hsection in
/-- A configuration without settings is refused as callers expect it, unless its section is a list. -/
theorem expected_of_refused (hlist : ¬ SectionIsList config) {f : Failure} (h : resolve (.object config) = .error f) :
    Expected f := by
  cases hv : config.find? (.name sectionName) with
  | none =>
    rw [resolve_of_none hd hv] at h
    exact expected_of_ofFields h
  | some v =>
    by_cases hobject : IsObject v
    · cases v <;> try cases hobject
      rename_i os
      rw [resolve_of_object hd hv] at h
      cases hm : mergeFields defaultSection os with
      | error c =>
        rw [hm] at h
        cases h
        exact .conflict _ _ _
      | ok rs =>
        rw [hm] at h
        exact expected_of_ofFields h
    · obtain ⟨g, hg, hexpected⟩ := refused_of_not_object hd hv hobject
      cases hg.symm.trans h
      exact hexpected hlist

/-- **The settings of a configuration.** They are what its section gives, and the built-in values for the rest; other
sections do not matter. A configuration has settings or is refused with a failure that callers know, unless its section
is a list that holds something: then the failure is one of no kind that they know. (No key stands twice in a mapping.) -/
theorem resolve_total_sound :
    (∀ s, resolve (.object config) = .ok s ↔ Resolved config s) ∧
      (((∃ s, resolve (.object config) = .ok s) ∨ ∃ f, resolve (.object config) = .error f ∧ Expected f) ↔
        ¬ SectionIsList config) ∧
      (SectionIsList config →
        resolve (.object config) = .error (.plain .lacking "'list' object has no attribute 'get'")) ∧
      ∀ other : Fields, other.keys.Nodup →
        other.find? (.name sectionName) = config.find? (.name sectionName) →
          resolve (.object other) = resolve (.object config) := by
  refine ⟨resolve_ok_iff hd hsection, ⟨?_, fun hlist => ?_⟩, refused_of_list hd, fun other hother hsame => ?_⟩
  · rintro h hlist
    rw [refused_of_list hd hlist] at h
    rcases h with ⟨s, hs⟩ | ⟨f, hf, hexpected⟩
    · cases hs
    · cases hf
      cases hexpected
  · cases h : resolve (.object config) with
    | ok s => exact .inl ⟨s, rfl⟩
    | error f => exact .inr ⟨f, rfl, expected_of_refused hd hlist h⟩
  · rw [resolve_object hother, resolve_object hd, hsame]

end

/-- A section that gives one setting and a key of its own, beside another section. -/
theorem resolve_total_sound_one_given :
    resolve (.object [("connectors", .array []), ("engine", .object [("timestamp_field", .text "ts"), ("x", .null)])]) =
      .ok ⟨".streamsynth-spillover", "ts", 1000⟩ := by
  let os : Fields := [("timestamp_field", .text "ts"), ("x", .null)]
  have h := @resolve_total_sound [("connectors", .array []), ("engine", .object os)] (by decide)
    (fun os' hos' => by cases hos'; decide)
  refine (h.1 _).2 ⟨?_, rfl, by decide, rfl, by decide, rfl⟩
  intro v hv
  cases hv
  rfl

/-- A list in the place of the section is asked for its fields. -/
theorem list_refused_unexpectedly :
    ¬ ((∃ s, resolve (.object [("engine", .array [.nat 1])]) = .ok s) ∨
      ∃ f, resolve (.object [("engine", .array [.nat 1])]) = .error f ∧ Expected f) := by
  have h : resolve (.object [("engine", .array [.nat 1])]) =
      .error (.plain .lacking "'list' object has no attribute 'get'") := by rfl
  rw [h]
  rintro (⟨s, hs⟩ | ⟨f, hf, hexpected⟩)
  · cases hs
  · cases hf
    cases hexpected

end Settings

end EventPipeline
