import EventPipeline.Proofs.Configuration.Merging

/-!
# Layers of configuration

Configurations are laid over one another, layer by layer. This module says what does not depend on the
order of the work:

* laying the same override over the result once more changes nothing, and an empty layer changes nothing
  either (`merge_again`);
* of three layers, any two that lie together may be merged first (`merge_assoc_of_ok`).

The second law needs a layer in the middle that clears no key. A null in the middle layer takes a value of
the first layer away, and so makes way for a value of another kind in the third one; merged with the third
layer first, it is gone before it meets the first one.

All of it is shown one key at a time (`mergeKey`): a merge of fields is the same as the merge of what
stands under each key in both, absent values included, together with the order of the keys.
-/

namespace EventPipeline

/-- Tables with the same keys, and with the same entry under each key, are the same. -/
theorem Table.eq_of_find?_eq {κ α : Type} [DecidableEq κ] {s t : Table κ α} (hd : s.keys.Nodup)
    (hkeys : s.keys = t.keys) (hfind : ∀ k, s.find? k = t.find? k) : s = t := by
  induction s generalizing t with
  | nil =>
    cases t with
    | nil => rfl
    | cons entry t => cases hkeys
  | cons entry s ih =>
    cases t with
    | nil => cases hkeys
    | cons entry' t =>
      obtain ⟨k, a⟩ := entry
      obtain ⟨k', a'⟩ := entry'
      have hboth : k = k' ∧ Table.keys s = Table.keys t := List.cons.inj hkeys
      obtain ⟨rfl, hrest⟩ := hboth
      obtain ⟨hk, hd⟩ := List.nodup_cons.1 hd
      have ha : a = a' := by simpa [find?] using hfind k
      have hst : s = t := by
        apply ih hd hrest
        intro k'
        by_cases he : k = k'
        · subst he
          have hs : Table.find? s k = none := find?_eq_none_iff.2 hk
          have ht : Table.find? t k = none := find?_eq_none_iff.2 (hrest ▸ hk)
          rw [hs, ht]
        · simpa [find?, he] using hfind k'
      rw [ha, hst]

namespace Configuration

/-! ### One value -/

/-- An override is taken where the base has nothing. -/
@[simp] theorem mergeValue_none (v : Value) : mergeValue none v = .ok v := by
  cases v <;> rfl

/-- An override is taken where the base is null. -/
@[simp] theorem mergeValue_null (v : Value) : mergeValue (some .null) v = .ok v := by
  cases v <;> rfl

/-- The override takes the place of the base. -/
def Replaces (base : Option Value) (v : Value) : Prop :=
  base = none ∨ base = some .null ∨ kindOf v = .null ∨ kindOf v = .array ∨
    ∃ b, base = some b ∧ kindOf b = kindOf v ∧ ¬ IsObject v

/-- **What the merge of two values can give**: the override itself, or the merged fields of two objects. -/
theorem mergeValue_ok_iff {base : Option Value} {v r : Value} :
    mergeValue base v = .ok r ↔
      (Replaces base v ∧ r = v) ∨
        ∃ bs os rs : Fields,
          base = some (.object bs) ∧ v = .object os ∧ mergeFields bs os = .ok rs ∧ r = .object rs := by
  rcases base with _ | b
  · simp [Replaces, eq_comm]
  · cases b <;> cases v <;> simp [mergeValue, Replaces, kindOf, IsObject, eq_comm, Except.map]
    rename_i bs os
    cases mergeFields bs os <;> simp [eq_comm]

/-- The merge of two objects is the one of their fields. -/
theorem mergeValue_objects_iff {bs os : Fields} {r : Value} :
    mergeValue (some (.object bs)) (.object os) = .ok r ↔ ∃ rs, mergeFields bs os = .ok rs ∧ r = .object rs := by
  simp [mergeValue_ok_iff, Replaces, kindOf, IsObject]

/-- A value that takes the place of the base is the result. -/
theorem Replaces.mergeValue {base : Option Value} {v : Value} (h : Replaces base v) :
    mergeValue base v = .ok v :=
  mergeValue_ok_iff.2 (.inl ⟨h, rfl⟩)

/-! ### One key -/

/-- What is under a key in a base and in an override, merged. Either may have nothing there. -/
def mergeKey (base : Option Value) : Option Value → Except Conflict (Option Value)
  | none => .ok base
  | some v => (mergeValue base v).map some

@[simp] theorem mergeKey_none (base : Option Value) : mergeKey base none = .ok base := rfl

/-- A key of the override has a value in the result. -/
theorem mergeKey_some_iff {base r : Option Value} {v : Value} :
    mergeKey base (some v) = .ok r ↔ ∃ w, mergeValue base v = .ok w ∧ r = some w := by
  rw [mergeKey]
  cases mergeValue base v <;> simp [Except.map, eq_comm]

/-- The keys of merged fields do not repeat. -/
theorem nodup_merged_keys {ks ls : List Key} (hk : ks.Nodup) (hl : ls.Nodup) :
    (ks ++ ls.filter (· ∉ ks)).Nodup := by
  apply List.nodup_append.2
  refine ⟨hk, hl.filter _, ?_⟩
  intro k hkm l hlm
  rintro rfl
  simp [hkm] at hlm

/-- A merge of fields that goes through goes through under each key. -/
theorem MergedFields.mergeKey {bs os rs : Fields} (h : MergedFields bs os rs) (k : Key) :
    mergeKey (bs.find? k) (os.find? k) = .ok (rs.find? k) := by
  cases hv : os.find? k with
  | none => rw [mergeKey_none, h.kept k hv]
  | some v =>
    obtain ⟨r, hr, hfound⟩ := h.merged k v hv
    exact mergeKey_some_iff.2 ⟨r, hr, hfound⟩

/-- Fields can be merged if what they have under each key can. -/
theorem exists_mergeFields {bs os : Fields} (hd : os.keys.Nodup)
    (h : ∀ k, ∃ r, mergeKey (bs.find? k) (os.find? k) = .ok r) : ∃ rs, mergeFields bs os = .ok rs := by
  cases hm : mergeFields bs os with
  | ok rs => exact ⟨rs, rfl⟩
  | error c =>
    exfalso
    obtain ⟨before, after, k, v, c', rfl, -, herr, -⟩ := mergeFields_error hd hm
    have hmem : (k, v) ∈ before ++ (k, v) :: after := List.mem_append_right _ List.mem_cons_self
    have hv : Table.find? (before ++ (k, v) :: after) k = some v := Table.find?_of_mem hd hmem
    obtain ⟨r, hr⟩ := h k
    rw [hv] at hr
    obtain ⟨w, hw, -⟩ := mergeKey_some_iff.1 hr
    rw [herr] at hw
    cases hw

/-- **The merge of fields, one key at a time.** -/
theorem mergeFields_ok_iff {bs os rs : Fields} (hb : bs.keys.Nodup) (ho : os.keys.Nodup) :
    mergeFields bs os = .ok rs ↔
      rs.keys = bs.keys ++ os.keys.filter (· ∉ bs.keys) ∧
        ∀ k, mergeKey (bs.find? k) (os.find? k) = .ok (rs.find? k) := by
  constructor
  · intro h
    have hm := mergeFields_ok ho h
    exact ⟨hm.keys, hm.mergeKey⟩
  · rintro ⟨hkeys, hmerged⟩
    obtain ⟨rs', hrs'⟩ := exists_mergeFields ho fun k => ⟨_, hmerged k⟩
    have hm := mergeFields_ok ho hrs'
    have heq : rs' = rs := by
      apply Table.eq_of_find?_eq
      · rw [hm.keys]
        exact nodup_merged_keys hb ho
      · rw [hm.keys, hkeys]
      · intro k
        have h := hm.mergeKey k
        rw [hmerged k] at h
        exact (Except.ok.inj h).symm
    rw [hrs', heq]

/-- Laid over no fields at all, fields stay as they are. -/
theorem mergeFields_nil {os : Fields} (ho : os.keys.Nodup) : mergeFields [] os = .ok os := by
  have hnil : Table.keys ([] : Fields) = [] := rfl
  apply (mergeFields_ok_iff (hnil ▸ List.nodup_nil) ho).2
  constructor
  · simp [hnil]
  · intro k
    cases hv : os.find? k with
    | none => rfl
    | some v => simp [mergeKey_some_iff, Table.find?]

/-- The value under a key of JSON fields is JSON. -/
theorem isJson_of_find? {fields : Fields} (h : (Value.object fields).isJson = true) {k : Key} {v : Value}
    (hv : fields.find? k = some v) : v.isJson = true :=
  (haveJson_nodup h).2 (k, v) (Table.mem_of_find? hv)

theorem sizeOf_lt_of_find? {fields : Fields} {k : Key} {v : Value} (hv : fields.find? k = some v) :
    sizeOf v < sizeOf (Value.object fields) :=
  sizeOf_lt_of_mem (Table.mem_of_find? hv)

/-! ### The same override again -/

/-- Fields that came out of a merge are not changed by the same override, if the values under its keys are not. -/
theorem mergeFields_again {bs os rs : Fields} (hb : bs.keys.Nodup) (ho : os.keys.Nodup)
    (hvalues : ∀ k v, os.find? k = some v → ∀ r, mergeValue (bs.find? k) v = .ok r → mergeValue (some r) v = .ok r)
    (h : mergeFields bs os = .ok rs) : mergeFields rs os = .ok rs := by
  have hm := mergeFields_ok ho h
  have hr : rs.keys.Nodup := by
    rw [hm.keys]
    exact nodup_merged_keys hb ho
  have hmem : ∀ k ∈ os.keys, k ∈ rs.keys := by
    intro k hk
    by_cases hkb : k ∈ bs.keys <;> simp [hm.keys, hk, hkb]
  apply (mergeFields_ok_iff hr ho).2
  constructor
  · have hnew : os.keys.filter (· ∉ rs.keys) = [] := by
      simpa [List.filter_eq_nil_iff] using hmem
    rw [hnew, List.append_nil]
  · intro k
    cases hv : os.find? k with
    | none => rfl
    | some v =>
      obtain ⟨r, hr, hfound⟩ := hm.merged k v hv
      rw [hfound]
      exact mergeKey_some_iff.2 ⟨r, hvalues k v hv r hr, rfl⟩

/-- **A value that came out of a merge is not changed by the same override.** The recursion is on the override. An
object that was taken as it is counts as merged with no fields. -/
theorem mergeValue_again : ∀ (v : Value), v.isJson = true → ∀ {base : Option Value},
    (∀ b ∈ base, b.isJson = true) → ∀ {r : Value}, mergeValue base v = .ok r → mergeValue (some r) v = .ok r
  | .object os, hv, base, hb, r, h => by
    have hos := (haveJson_nodup hv).1
    have hfields : ∀ bs rs : Fields, (Value.object bs).isJson = true → mergeFields bs os = .ok rs →
        mergeFields rs os = .ok rs := by
      intro bs rs hbs hm
      apply mergeFields_again (haveJson_nodup hbs).1 hos _ hm
      intro k v hk r hr
      exact mergeValue_again v (isJson_of_find? hv hk) (fun b hbk => isJson_of_find? hbs hbk) hr
    rcases mergeValue_ok_iff.1 h with ⟨-, rfl⟩ | ⟨bs, os', rs, rfl, hos', hm, rfl⟩
    · have hself := hfields [] os rfl (mergeFields_nil hos)
      exact mergeValue_objects_iff.2 ⟨os, hself, rfl⟩
    · cases hos'
      have hself := hfields bs rs (hb _ rfl) hm
      exact mergeValue_objects_iff.2 ⟨rs, hself, rfl⟩
  | .null, _, _, _, _, h | .bool _, _, _, _, _, h | .number _, _, _, _, _, h | .text _, _, _, _, _, h
  | .array _, _, _, _, _, h => by
    obtain ⟨-, rfl⟩ : _ ∧ _ := by simpa [mergeValue_ok_iff] using h
    simp [mergeValue, kindOf]
termination_by v => sizeOf v
decreasing_by exact sizeOf_lt_of_find? hk

/-! ### Three layers -/

/-- No null stands in a value, objects within objects included. -/
def NullFree (v : Value) : Prop := ∀ p, v.at? p ≠ some .null

/-- A value over a base and another one over it may be merged with one another first. -/
def Regroups (base : Option Value) (v w : Value) : Prop :=
  ∀ first both, mergeValue base v = .ok first → mergeValue (some first) w = .ok both →
    ∃ upper, mergeValue (some v) w = .ok upper ∧ mergeValue base upper = .ok both

theorem NullFree.ne_null {v : Value} (h : NullFree v) : v ≠ .null := by
  intro hv
  apply h []
  rw [at?_nil, hv]

theorem NullFree.of_find? {fields : Fields} (h : NullFree (.object fields)) {k : Key} {v : Value}
    (hv : fields.find? k = some v) : NullFree v := by
  intro p hp
  apply h (k :: p)
  rw [at?_object, hv, baseAt_some, hp]

theorem nullFree_object {fields : Fields} (h : ∀ field ∈ fields, NullFree field.2) : NullFree (.object fields) := by
  intro p hp
  cases p with
  | nil => cases hp
  | cons k p =>
    rw [at?_object] at hp
    cases hv : fields.find? k with
    | none =>
      rw [hv] at hp
      cases hp
    | some v =>
      rw [hv] at hp
      exact h (k, v) (Table.mem_of_find? hv) p hp

theorem nullFree_of_not_object {v : Value} (hv : v ≠ .null) (ho : ¬ IsObject v) : NullFree v := by
  intro p hp
  cases p with
  | nil =>
    rw [at?_nil] at hp
    exact hv (Option.some.inj hp)
  | cons k p =>
    rw [at?_of_not_object ho] at hp
    cases hp

/-- Under one key, where any layer may have nothing. -/
theorem mergeKey_regroups {a b c ab abc : Option Value} (hvalues : ∀ v w, b = some v → c = some w → Regroups a v w)
    (hab : mergeKey a b = .ok ab) (habc : mergeKey ab c = .ok abc) :
    ∃ bc, mergeKey b c = .ok bc ∧ mergeKey a bc = .ok abc := by
  cases b with
  | none =>
    cases hab
    refine ⟨c, ?_, habc⟩
    cases c <;> simp [mergeKey_some_iff]
  | some v =>
    cases c with
    | none =>
      cases habc
      exact ⟨some v, rfl, hab⟩
    | some w =>
      obtain ⟨first, hfirst, rfl⟩ := mergeKey_some_iff.1 hab
      obtain ⟨both, hboth, rfl⟩ := mergeKey_some_iff.1 habc
      obtain ⟨upper, hvw, hall⟩ := hvalues v w rfl rfl first both hfirst hboth
      exact ⟨some upper, mergeKey_some_iff.2 ⟨upper, hvw, rfl⟩, mergeKey_some_iff.2 ⟨both, hall, rfl⟩⟩

/-- The keys of three layers come in one order. -/
theorem merged_keys_assoc (ks ls ms : List Key) :
    (ks ++ ls.filter (· ∉ ks)) ++ ms.filter (· ∉ ks ++ ls.filter (· ∉ ks)) =
      ks ++ (ls ++ ms.filter (· ∉ ls)).filter (· ∉ ks) := by
  have hnew : ms.filter (· ∉ ks ++ ls.filter (· ∉ ks)) = (ms.filter (· ∉ ls)).filter (· ∉ ks) := by
    rw [List.filter_filter]
    apply List.filter_congr
    intro k _
    by_cases hk : k ∈ ks <;> simp [hk]
  rw [hnew, List.filter_append, List.append_assoc]

/-- Of three layers of fields the upper two may be merged first, if what they have under each key may. -/
theorem mergeFields_regroup {as bs cs abs abcs : Fields} (ha : as.keys.Nodup) (hb : bs.keys.Nodup)
    (hc : cs.keys.Nodup) (hvalues : ∀ k v w, bs.find? k = some v → cs.find? k = some w → Regroups (as.find? k) v w)
    (hab : mergeFields as bs = .ok abs) (habc : mergeFields abs cs = .ok abcs) :
    ∃ bcs, mergeFields bs cs = .ok bcs ∧ mergeFields as bcs = .ok abcs := by
  obtain ⟨hkab, hmab⟩ := (mergeFields_ok_iff ha hb).1 hab
  have hnab : abs.keys.Nodup := by
    rw [hkab]
    exact nodup_merged_keys ha hb
  obtain ⟨hkabc, hmabc⟩ := (mergeFields_ok_iff hnab hc).1 habc
  have hkey : ∀ k, ∃ bc,
      mergeKey (bs.find? k) (cs.find? k) = .ok bc ∧ mergeKey (as.find? k) bc = .ok (abcs.find? k) := by
    intro k
    exact mergeKey_regroups (hvalues k) (hmab k) (hmabc k)
  have hupper : ∀ k, ∃ bc, mergeKey (bs.find? k) (cs.find? k) = .ok bc := by
    intro k
    obtain ⟨bc, hbc, -⟩ := hkey k
    exact ⟨bc, hbc⟩
  obtain ⟨bcs, hbcs⟩ := exists_mergeFields hc hupper
  obtain ⟨hkbc, hmbc⟩ := (mergeFields_ok_iff hb hc).1 hbcs
  have hnbc : bcs.keys.Nodup := by
    rw [hkbc]
    exact nodup_merged_keys hb hc
  refine ⟨bcs, hbcs, (mergeFields_ok_iff ha hnbc).2 ⟨?_, ?_⟩⟩
  · rw [hkabc, hkab, hkbc, merged_keys_assoc]
  · intro k
    obtain ⟨bc, hbc, hall⟩ := hkey k
    rw [hmbc k] at hbc
    cases hbc
    exact hall

/-- What is laid over a value that is no object takes its place. -/
theorem replaces_of_not_object {v w r : Value} (hv : ¬ IsObject v) (h : mergeValue (some v) w = .ok r) :
    Replaces (some v) w ∧ r = w := by
  rcases mergeValue_ok_iff.1 h with h | ⟨bs, os, rs, hbs, -⟩
  · exact h
  · cases hbs
    exact absurd rfl hv

/-- What takes the place of a value takes the place of a base that the value has taken the place of. -/
theorem Replaces.trans {base : Option Value} {v w : Value} (h : Replaces base v) (hv : v ≠ .null) (ho : ¬ IsObject v)
    (hw : Replaces (some v) w) : Replaces base w := by
  have hnull : kindOf v ≠ .null := by
    intro hk
    cases v <;> simp [kindOf] at hk hv
  rcases hw with hw | hw | hw | hw | ⟨v', hv', hk, how⟩
  · cases hw
  · exact absurd (Option.some.inj hw) hv
  · exact .inr (.inr (.inl hw))
  · exact .inr (.inr (.inr (.inl hw)))
  · cases hv'
    rcases h with h | h | h | h | ⟨b, hb, hkb, -⟩
    · exact .inl h
    · exact .inr (.inl h)
    · exact absurd h hnull
    · exact .inr (.inr (.inr (.inl (hk ▸ h))))
    · exact .inr (.inr (.inr (.inr ⟨b, hb, hkb.trans hk, how⟩)))

/-- A value in the middle that takes the place of the base. -/
theorem Replaces.regroups {base : Option Value} {v : Value} (h : Replaces base v) (hv : v ≠ .null) (w : Value) :
    Regroups base v w := by
  intro first both hfirst hboth
  obtain rfl : v = first := by
    rw [h.mergeValue] at hfirst
    exact Except.ok.inj hfirst
  refine ⟨both, hboth, ?_⟩
  by_cases ho : IsObject v
  · -- an object takes the place of nothing and of null only
    obtain rfl | rfl : base = none ∨ base = some .null := by
      rcases h with h | h | h | h | ⟨-, -, -, h⟩
      · exact .inl h
      · exact .inr h
      · rw [ho] at h
        cases h
      · rw [ho] at h
        cases h
      · exact absurd ho h
    · simp
    · simp
  · obtain ⟨hw, rfl⟩ := replaces_of_not_object ho hboth
    exact (h.trans hv ho hw).mergeValue

/-- **Of three layers of a value the upper two may be merged first.** The recursion is on the middle one. -/
theorem mergeValue_regroups : ∀ (v : Value), v.isJson = true → NullFree v → ∀ {base : Option Value},
    (∀ b ∈ base, b.isJson = true) → ∀ {w : Value}, w.isJson = true → Regroups base v w := by
  intro v hv hnull base hbase w hw first both hfirst hboth
  rcases mergeValue_ok_iff.1 hfirst with ⟨hr, -⟩ | ⟨as, bs, abs, rfl, rfl, hab, rfl⟩
  · exact hr.regroups hnull.ne_null w first both hfirst hboth
  · rcases mergeValue_ok_iff.1 hboth with ⟨hr, rfl⟩ | ⟨abs', cs, abcs, habs, rfl, habc, rfl⟩
    · -- what takes the place of the merged fields takes the place of any fields
      have hplace : ∀ fs : Fields, Replaces (some (.object fs)) both := by
        intro fs
        rcases hr with h | h | h | h | ⟨b, hb, hk, ho⟩
        · cases h
        · cases h
        · exact .inr (.inr (.inl h))
        · exact .inr (.inr (.inr (.inl h)))
        · cases hb
          exact absurd hk.symm ho
      exact ⟨both, (hplace bs).mergeValue, (hplace as).mergeValue⟩
    · cases habs
      have hvalues : ∀ k v w, bs.find? k = some v → cs.find? k = some w → Regroups (as.find? k) v w := by
        intro k v w hk hkw
        apply mergeValue_regroups v (isJson_of_find? hv hk) (hnull.of_find? hk)
        · exact fun b hb => isJson_of_find? (hbase _ rfl) hb
        · exact isJson_of_find? hw hkw
      obtain ⟨bcs, hbc, hall⟩ := mergeFields_regroup (haveJson_nodup (hbase _ rfl)).1 (haveJson_nodup hv).1
        (haveJson_nodup hw).1 hvalues hab habc
      exact ⟨.object bcs, mergeValue_objects_iff.2 ⟨bcs, hbc, rfl⟩, mergeValue_objects_iff.2 ⟨abcs, hall, rfl⟩⟩
termination_by v => sizeOf v
decreasing_by
  subst_vars
  exact sizeOf_lt_of_find? hk

/-! ### The laws of configurations -/

/-- A merge of configurations that goes through is one of values. -/
theorem merge_ok_iff {base override : Fields} {r : Value} :
    merge (.object base) (.object override) = .ok r ↔
      mergeValue (some (.object base)) (.object override) = .ok r := by
  have hmerge : merge (.object base) (.object override) =
      (mergeValue (some (.object base)) (.object override)).mapError Conflict.toFailure := rfl
  rw [hmerge]
  cases mergeValue (some (.object base)) (.object override) <;> simp [Except.mapError]

/-- **Re-applying an override changes nothing**, and neither does a layer without fields, whether it lies above or
below. The order of the keys is part of a value. -/
theorem merge_again (base override : Fields) (hb : (Value.object base).isJson = true)
    (ho : (Value.object override).isJson = true) :
    (∀ r, merge (.object base) (.object override) = .ok r → merge r (.object override) = .ok r) ∧
      merge (.object base) (.object []) = .ok (.object base) ∧
      merge (.object []) (.object override) = .ok (.object override) := by
  refine ⟨?_, rfl, ?_⟩
  · intro r h
    have hvalue := merge_ok_iff.1 h
    have hagain : mergeValue (some r) (.object override) = .ok r := by
      apply mergeValue_again (.object override) ho _ hvalue
      intro b hbase
      cases hbase
      exact hb
    obtain ⟨rs, -, rfl⟩ := mergeValue_objects_iff.1 hvalue
    exact merge_ok_iff.2 hagain
  · have hfields := mergeFields_nil (haveJson_nodup ho).1
    exact merge_ok_iff.2 (mergeValue_objects_iff.2 ⟨override, hfields, rfl⟩)

/-- A cleared key, a replaced array, a number of the other kind and a new key. -/
theorem merge_again_engine :
    merge
        (.object [("engine", .object [("spillover_dir", .null), ("stages", .array []),
          ("time_window_ms", .number (.float (Binary64.zero false))), ("queue_size", Value.int 8)])])
        (.object [("engine", .object [("queue_size", Value.int 8), ("stages", .array []), ("spillover_dir", .null),
          ("time_window_ms", .number (.float (Binary64.zero false)))])]) =
      .ok (.object [("engine", .object [("spillover_dir", .null), ("stages", .array []),
        ("time_window_ms", .number (.float (Binary64.zero false))), ("queue_size", Value.int 8)])]) :=
  (merge_again
    [("engine", .object [("spillover_dir", .text "spill"), ("stages", .array [.null]),
      ("time_window_ms", Value.int 250)])]
    [("engine", .object [("queue_size", Value.int 8), ("stages", .array []), ("spillover_dir", .null),
      ("time_window_ms", .number (.float (Binary64.zero false)))])] (by decide) (by decide)).1 _ rfl

/-- **Layers may be grouped either way.** Where the middle layer has no null, and the third is merged over the first two
merged, the upper two merge as well, and their merge over the first gives the same, the order of the keys included. -/
theorem merge_assoc_of_ok (a b c : Fields) (ha : (Value.object a).isJson = true) (hb : (Value.object b).isJson = true)
    (hc : (Value.object c).isJson = true) (hnull : NullFree (.object b)) {ab abc : Value}
    (hab : merge (.object a) (.object b) = .ok ab) (habc : merge ab (.object c) = .ok abc) :
    ∃ bc, merge (.object b) (.object c) = .ok bc ∧ merge (.object a) bc = .ok abc := by
  have hlower := merge_ok_iff.1 hab
  obtain ⟨abs, -, rfl⟩ := mergeValue_objects_iff.1 hlower
  have hregroups : Regroups (some (.object a)) (.object b) (.object c) := by
    apply mergeValue_regroups (.object b) hb hnull _ hc
    intro base hbase
    cases hbase
    exact ha
  obtain ⟨bc, hbc, hall⟩ := hregroups _ _ hlower (merge_ok_iff.1 habc)
  obtain ⟨bcs, -, rfl⟩ := mergeValue_objects_iff.1 hbc
  exact ⟨_, merge_ok_iff.2 hbc, merge_ok_iff.2 hall⟩

/-- Built-in defaults, a defaults file and a local file that clears a key and sets a new one. -/
theorem merge_assoc_of_ok_defaults :
    ∃ bc,
      merge (.object [("engine", .object [("queue_size", Value.int 8), ("spillover_dir", .text "spill")])])
          (.object [("engine", .object [("stages", .array [.null]), ("spillover_dir", .null)]),
            ("name", .text "orders")]) =
        .ok bc ∧
      merge (.object [("engine", .object [("queue_size", Value.int 1), ("time_window_ms", .null)])]) bc =
        .ok (.object [("engine", .object [("queue_size", Value.int 8), ("time_window_ms", .null),
          ("spillover_dir", .null), ("stages", .array [.null])]), ("name", .text "orders")]) := by
  have hnull : NullFree
      (.object [("engine", .object [("queue_size", Value.int 8), ("spillover_dir", .text "spill")])]) := by
    apply nullFree_object
    rw [List.forall_mem_singleton]
    apply nullFree_object
    rw [List.forall_mem_cons, List.forall_mem_singleton]
    constructor <;> apply nullFree_of_not_object <;> simp [Value.int, IsObject, kindOf]
  exact merge_assoc_of_ok [("engine", .object [("queue_size", Value.int 1), ("time_window_ms", .null)])]
    [("engine", .object [("queue_size", Value.int 8), ("spillover_dir", .text "spill")])]
    [("engine", .object [("stages", .array [.null]), ("spillover_dir", .null)]), ("name", .text "orders")]
    (by decide) (by decide) (by decide) hnull rfl rfl

end Configuration

end EventPipeline
