import EventPipeline.Configuration.Merge
import EventPipeline.Proofs.Json.RoundTrip

/-!
# Merged configurations, path by path

What a merge does is said by paths of keys. A path is in *conflict* if it leads through objects in both
configurations to two values that do not fit together. A merge fails if and only if some path is in
conflict, and it names the first such path in a walk of the override, depth first and in the order of
its keys. A merge that does not fail is the override laid over the base (`Overlaid`): what the override
holds at a path is what the result holds there, what the override does not reach is as in the base, and
where both hold objects the result has the keys of the base and then the new keys of the override.
-/

namespace EventPipeline

/-! ### Paths -/

/-- The value at a path of keys. -/
def Value.at? : Value → List Key → Option Value
  | v, [] => some v
  | .object fields, k :: p => (Table.find? fields k).bind (·.at? p)
  | _, _ :: _ => none

mutual

/-- The paths into a value, each before the paths that go on from it, keys in order. -/
def Value.paths : Value → List (List Key)
  | .object fields => [] :: fieldPaths fields
  | _ => [[]]

/-- The paths into the values of fields. -/
def Value.fieldPaths : List (Key × Value) → List (List Key)
  | [] => []
  | (k, v) :: rest => v.paths.map (k :: ·) ++ fieldPaths rest

end

namespace Configuration

/-- The value at a path of a base that may be missing. -/
def baseAt (base : Option Value) (p : List Key) : Option Value := base.bind (·.at? p)

/-- The value is an object. -/
def IsObject (v : Value) : Prop := kindOf v = .object

/-- A value of the base and a value of the override that do not fit together. -/
structure Unfit (base override : Value) : Prop where
  /-- The base is not null. -/
  base_ne_null : kindOf base ≠ .null
  /-- The override does not clear. -/
  override_ne_null : kindOf override ≠ .null
  /-- The override does not replace. -/
  override_ne_array : kindOf override ≠ .array
  /-- They are not merged. -/
  not_objects : ¬ (IsObject base ∧ IsObject override)
  /-- They are of different kinds. -/
  kinds : kindOf base ≠ kindOf override

/-- A path in conflict: objects all the way in both, and two values at its end that do not fit. -/
structure InConflict (base : Option Value) (override : Value) (p : List Key) : Prop where
  /-- Every shorter path leads to an object in both. -/
  through : ∀ q, q <+: p → q ≠ p →
    (∃ b, baseAt base q = some b ∧ IsObject b) ∧ ∃ o, override.at? q = some o ∧ IsObject o
  /-- The values at the end. -/
  ends : ∃ b o, baseAt base p = some b ∧ override.at? p = some o ∧ Unfit b o

/-- The first path in conflict in the walk of the override. -/
structure FirstConflict (base : Option Value) (override : Value) (p : List Key) : Prop where
  /-- It is in conflict. -/
  conflict : InConflict base override p
  /-- No path before it is. -/
  first : ∃ before after, override.paths = before ++ p :: after ∧ ∀ q ∈ before, ¬ InConflict base override q

/-- The result is the override laid over the base. -/
structure Overlaid (base : Option Value) (override result : Value) : Prop where
  /-- What the override holds, objects aside, the result holds. -/
  holds : ∀ p v, override.at? p = some v → ¬ IsObject v → result.at? p = some v
  /-- Where the base has nothing or null, the result holds what the override holds. -/
  fresh : ∀ p v, override.at? p = some v → (∀ b, baseAt base p = some b → b = .null) → result.at? p = some v
  /-- What the override does not reach, and does not cut off, is as in the base. -/
  keeps : ∀ p, override.at? p = none → (∀ q v, q <+: p → override.at? q = some v → IsObject v) →
    result.at? p = baseAt base p
  /-- Where both hold objects, the keys are those of the base and then the new ones of the override. -/
  keys : ∀ p (bs os : Fields), baseAt base p = some (.object bs) → override.at? p = some (.object os) →
    ∃ rs : Fields, result.at? p = some (.object rs) ∧ rs.keys = bs.keys ++ os.keys.filter (· ∉ bs.keys)

/-! ### Paths one key at a time -/

@[simp] theorem at?_nil (v : Value) : v.at? [] = some v := by
  cases v <;> rfl

theorem at?_object (fields : Fields) (k : Key) (p : List Key) :
    (Value.object fields).at? (k :: p) = baseAt (fields.find? k) p := rfl

theorem at?_of_not_object {v : Value} (h : ¬ IsObject v) (k : Key) (p : List Key) : v.at? (k :: p) = none := by
  cases v with
  | object fields => exact absurd rfl h
  | _ => rfl

@[simp] theorem baseAt_none (p : List Key) : baseAt none p = none := rfl

@[simp] theorem baseAt_some (v : Value) (p : List Key) : baseAt (some v) p = v.at? p := rfl

/-- A conflict at the end of no path. -/
theorem inConflict_nil {base override : Value} :
    InConflict (some base) override [] ↔ Unfit base override := by
  constructor
  · rintro ⟨-, b, o, hb, ho, hu⟩
    rw [baseAt_some, at?_nil] at hb
    rw [at?_nil] at ho
    cases hb
    cases ho
    exact hu
  · intro hu
    refine ⟨fun q hq hne => ?_, base, override, by simp, by simp, hu⟩
    exact absurd (List.prefix_nil.1 hq) hne

/-- A conflict behind a key is one between the values of the key. -/
theorem inConflict_cons {bs os : Fields} {k : Key} {v : Value} (hv : os.find? k = some v) {p : List Key} :
    InConflict (some (.object bs)) (.object os) (k :: p) ↔ InConflict (bs.find? k) v p := by
  constructor
  · rintro ⟨ht, b, o, hb, ho, hu⟩
    rw [baseAt_some, at?_object] at hb
    rw [at?_object, hv, baseAt_some] at ho
    refine ⟨fun q hq hne => ?_, b, o, hb, ho, hu⟩
    have h := ht (k :: q) (List.cons_prefix_cons.2 ⟨rfl, hq⟩) (fun he => hne (List.cons.inj he).2)
    rwa [baseAt_some, at?_object, at?_object, hv, baseAt_some] at h
  · rintro ⟨ht, b, o, hb, ho, hu⟩
    refine ⟨fun q hq hne => ?_, b, o, ?_, ?_, hu⟩
    · cases q with
      | nil => exact ⟨⟨_, at?_nil _, rfl⟩, _, at?_nil _, rfl⟩
      | cons k' q =>
        obtain ⟨rfl, hqp⟩ := List.cons_prefix_cons.1 hq
        rw [baseAt_some, at?_object, at?_object, hv, baseAt_some]
        exact ht q hqp fun he => hne (he ▸ rfl)
    · rwa [baseAt_some, at?_object]
    · rwa [at?_object, hv, baseAt_some]

/-- Behind a key, both have to be objects that hold the key. -/
theorem InConflict.objects {base : Option Value} {override : Value} {k : Key} {p : List Key}
    (h : InConflict base override (k :: p)) :
    ∃ (bs os : Fields) (v : Value), base = some (.object bs) ∧ override = .object os ∧ os.find? k = some v := by
  obtain ⟨⟨b, hb, hbo⟩, o, ho, hoo⟩ := h.through [] List.nil_prefix (List.cons_ne_nil k p).symm
  rw [at?_nil] at ho
  cases ho
  cases base with
  | none => cases hb
  | some b' =>
    rw [baseAt_some, at?_nil] at hb
    cases hb
    cases b with
    | object bs =>
      cases override with
      | object os =>
        obtain ⟨-, o, -, ho, -⟩ := h.ends
        rw [at?_object] at ho
        cases hv : Table.find? os k with
        | none =>
          rw [hv] at ho
          cases ho
        | some v => exact ⟨bs, os, v, rfl, rfl, hv⟩
      | _ => cases hoo
    | _ => cases hbo

/-- If the override is no object, the only path that can be in conflict is the empty one. -/
theorem InConflict.eq_nil {base : Option Value} {override : Value} (ho : ¬ IsObject override) {p : List Key}
    (h : InConflict base override p) : p = [] := by
  cases p with
  | nil => rfl
  | cons k p =>
    obtain ⟨bs, os, v, -, rfl, -⟩ := h.objects
    exact absurd rfl ho

/-! ### One level -/

/-- What a merge makes of the fields of one level. -/
structure MergedFields (base override result : Fields) : Prop where
  /-- A key that the override does not have is left alone. -/
  kept : ∀ k, override.find? k = none → result.find? k = base.find? k
  /-- A key of the override is merged with its value in the base. -/
  merged : ∀ k v, override.find? k = some v → ∃ r, mergeValue (base.find? k) v = .ok r ∧ result.find? k = some r
  /-- The keys of the base come first, then the new ones. -/
  keys : result.keys = base.keys ++ override.keys.filter (· ∉ base.keys)

theorem mergeFields_ok {override : Fields} (hd : override.keys.Nodup) {base result : Fields}
    (h : mergeFields base override = .ok result) : MergedFields base override result := by
  induction override generalizing base with
  | nil =>
    cases h
    exact ⟨fun _ _ => rfl, fun k v hv => (by cases hv), by simp [Table.keys]⟩
  | cons field rest ih =>
    obtain ⟨k, v⟩ := field
    obtain ⟨hk, hd⟩ := List.nodup_cons.1 hd
    unfold mergeFields at h
    cases hm : mergeValue (base.find? k) v with
    | error c => rw [hm] at h; cases h
    | ok m =>
      rw [hm] at h
      have hr := ih hd h
      have hrest : Table.find? rest k = none := Table.find?_eq_none_iff.2 hk
      refine ⟨fun k' hk' => ?_, fun k' v' hv' => ?_, ?_⟩
      · by_cases he : k = k'
        · rw [Table.find?, if_pos he] at hk'
          cases hk'
        · rw [Table.find?, if_neg he] at hk'
          rw [hr.kept k' hk', Table.find?_set, if_neg he]
      · by_cases he : k = k'
        · subst he
          rw [Table.find?, if_pos rfl] at hv'
          cases hv'
          exact ⟨m, hm, by rw [hr.kept k hrest, Table.find?_set, if_pos rfl]⟩
        · rw [Table.find?, if_neg he] at hv'
          obtain ⟨r, hr₁, hr₂⟩ := hr.merged k' v' hv'
          rw [Table.find?_set, if_neg he] at hr₁
          exact ⟨r, hr₁, hr₂⟩
      · have hkeys : Table.keys ((k, v) :: rest) = k :: Table.keys rest := rfl
        rw [hr.keys, Table.keys_set, hkeys]
        by_cases hb : k ∈ base.keys
        · rw [if_pos hb, List.filter_cons_of_neg (by simpa using hb)]
        · rw [if_neg hb, List.filter_cons_of_pos (by simpa using hb), List.append_assoc, List.singleton_append]
          congr 2
          refine List.filter_congr fun k' hk' => ?_
          have hne : k' ≠ k := fun he => hk (he ▸ hk')
          simp [hne]

/-- A merge of fields stops at the first field that does not fit. -/
theorem mergeFields_error {override : Fields} (hd : override.keys.Nodup) {base : Fields} {c : Conflict}
    (h : mergeFields base override = .error c) :
    ∃ (before after : Fields) (k : Key) (v : Value) (c' : Conflict), override = before ++ (k, v) :: after ∧
      (∀ field ∈ before, ∃ r, mergeValue (base.find? field.1) field.2 = .ok r) ∧
      mergeValue (base.find? k) v = .error c' ∧ c = c'.under k := by
  induction override generalizing base with
  | nil => cases h
  | cons field rest ih =>
    obtain ⟨k, v⟩ := field
    obtain ⟨hk, hd⟩ := List.nodup_cons.1 hd
    unfold mergeFields at h
    cases hm : mergeValue (base.find? k) v with
    | error c' =>
      rw [hm] at h
      cases h
      exact ⟨[], rest, k, v, c', rfl, List.forall_mem_nil _, hm, rfl⟩
    | ok m =>
      rw [hm] at h
      obtain ⟨before, after, k', v', c', rfl, hbefore, herr, hc⟩ := ih hd h
      -- the keys of the rest are others than the one that was just set
      have hne : ∀ field ∈ before ++ (k', v') :: after, k ≠ field.1 :=
        fun field hf he => hk (he ▸ List.mem_map.2 ⟨field, hf, rfl⟩)
      refine ⟨(k, v) :: before, after, k', v', c', rfl, fun field hf => ?_, ?_, hc⟩
      · rcases List.mem_cons.1 hf with rfl | hf
        · exact ⟨m, hm⟩
        · obtain ⟨r, hr⟩ := hbefore field hf
          rw [Table.find?_set, if_neg (hne field (List.mem_append_left _ hf))] at hr
          exact ⟨r, hr⟩
      · rwa [Table.find?_set, if_neg (hne (k', v') (List.mem_append_right _ List.mem_cons_self))] at herr

/-! ### What a merge comes to -/

/-- What a merge of two values comes to: the first conflict and the values there, or the override laid
over the base. -/
def Outcome (base : Option Value) (override : Value) : Except Conflict Value → Prop
  | .error c =>
    FirstConflict base override c.path ∧ baseAt base c.path = some c.base ∧ override.at? c.path = some c.override
  | .ok r => (∀ p, ¬ InConflict base override p) ∧ Overlaid base override r

/-- The override takes the place of a base that is missing or null. -/
theorem outcome_fresh {base : Option Value} (hb : base = none ∨ base = some .null) (override : Value) :
    Outcome base override (.ok override) := by
  have hnone : ∀ (k : Key) (p : List Key), baseAt base (k :: p) = none := by
    intro k p
    rcases hb with rfl | rfl <;> rfl
  have hnull : ∀ p b, baseAt base p = some b → b = .null := by
    intro p b h
    cases p with
    | nil =>
      rcases hb with rfl | rfl
      · cases h
      · cases h
        rfl
    | cons k p =>
      rw [hnone k p] at h
      cases h
  constructor
  · rintro p ⟨-, b, o, hb', -, hu⟩
    rw [hnull p b hb'] at hu
    exact hu.base_ne_null rfl
  · refine ⟨fun p v hv _ => hv, fun p v hv _ => hv, fun p hp _ => ?_, fun p bs os hbs _ => ?_⟩
    · cases p with
      | nil =>
        rw [at?_nil] at hp
        cases hp
      | cons k p => rw [hp, hnone k p]
    · cases hnull p _ hbs

/-- An override that is no object and fits takes the place of the base. -/
theorem outcome_replaced {base override : Value} (ho : ¬ IsObject override) (hu : ¬ Unfit base override) :
    Outcome (some base) override (.ok override) := by
  constructor
  · intro p hp
    obtain rfl := hp.eq_nil ho
    exact hu (inConflict_nil.1 hp)
  · refine ⟨fun p v hv _ => hv, fun p v hv _ => hv, fun p _ hq => ?_, fun p bs os _ hos => ?_⟩
    · exact absurd (hq [] override List.nil_prefix (at?_nil _)) ho
    · cases p with
      | nil =>
        rw [at?_nil] at hos
        cases hos
        exact absurd rfl ho
      | cons k p =>
        rw [at?_of_not_object ho] at hos
        cases hos

theorem paths_eq_cons (v : Value) : ∃ rest, v.paths = [] :: rest := by
  cases v <;> exact ⟨_, rfl⟩

/-- Two values that do not fit. -/
theorem outcome_unfit {base override : Value} (hu : Unfit base override) :
    Outcome (some base) override (.error ⟨[], base, override⟩) := by
  obtain ⟨rest, hrest⟩ := paths_eq_cons override
  exact ⟨⟨inConflict_nil.2 hu, [], rest, hrest, List.forall_mem_nil _⟩, at?_nil _, at?_nil _⟩

theorem fieldPaths_append (before after : Fields) :
    Value.fieldPaths (before ++ after) = Value.fieldPaths before ++ Value.fieldPaths after := by
  induction before with
  | nil => rfl
  | cons field before ih => rw [List.cons_append, Value.fieldPaths, ih, Value.fieldPaths, List.append_assoc]

theorem mem_fieldPaths {fields : Fields} {q : List Key} (h : q ∈ Value.fieldPaths fields) :
    ∃ k v p, (k, v) ∈ fields ∧ q = k :: p := by
  induction fields with
  | nil => cases h
  | cons field rest ih =>
    obtain ⟨k, v⟩ := field
    rw [Value.fieldPaths] at h
    rcases List.mem_append.1 h with h | h
    · obtain ⟨p, -, rfl⟩ := List.mem_map.1 h
      exact ⟨k, v, p, List.mem_cons_self, rfl⟩
    · obtain ⟨k', v', p, hm, rfl⟩ := ih h
      exact ⟨k', v', p, List.mem_cons_of_mem _ hm, rfl⟩

/-- What a path finds in an override that is laid over field by field, it finds in one of the fields. -/
theorem overlaid_field {bs os rs : Fields}
    (hlaid : ∀ k v, os.find? k = some v → ∃ r, rs.find? k = some r ∧ Overlaid (bs.find? k) v r) {k : Key}
    {p : List Key} {w : Value} (hw : (Value.object os).at? (k :: p) = some w) :
    ∃ v r, v.at? p = some w ∧ (Value.object rs).at? (k :: p) = r.at? p ∧ Overlaid (bs.find? k) v r := by
  rw [at?_object] at hw
  cases hv : os.find? k with
  | none =>
    rw [hv] at hw
    cases hw
  | some v =>
    obtain ⟨r, hr, hl⟩ := hlaid k v hv
    rw [hv] at hw
    exact ⟨v, r, hw, by rw [at?_object, hr, baseAt_some], hl⟩

/-- Objects whose fields are laid over one another field by field. -/
theorem overlaid_objects {bs os rs : Fields} (hkept : ∀ k, os.find? k = none → rs.find? k = bs.find? k)
    (hkeys : rs.keys = bs.keys ++ os.keys.filter (· ∉ bs.keys))
    (hlaid : ∀ k v, os.find? k = some v → ∃ r, rs.find? k = some r ∧ Overlaid (bs.find? k) v r) :
    Overlaid (some (.object bs)) (.object os) (.object rs) := by
  constructor
  · intro p w hw hobj
    cases p with
    | nil =>
      rw [at?_nil] at hw
      cases hw
      exact absurd rfl hobj
    | cons k p =>
      obtain ⟨v, r, hvw, hr, hl⟩ := overlaid_field hlaid hw
      rw [hr]
      exact hl.holds p w hvw hobj
  · intro p w hw hnull
    cases p with
    | nil => cases hnull _ (at?_nil _)
    | cons k p =>
      obtain ⟨v, r, hvw, hr, hl⟩ := overlaid_field hlaid hw
      rw [hr]
      exact hl.fresh p w hvw hnull
  · intro p hp hq
    cases p with
    | nil =>
      rw [at?_nil] at hp
      cases hp
    | cons k p =>
      rw [at?_object] at hp ⊢
      rw [baseAt_some, at?_object]
      cases hv : os.find? k with
      | none => rw [hkept k hv]
      | some v =>
        obtain ⟨r, hr, hl⟩ := hlaid k v hv
        rw [hv] at hp
        rw [hr]
        refine hl.keeps p hp fun q w hqp hqw => hq (k :: q) w (List.cons_prefix_cons.2 ⟨rfl, hqp⟩) ?_
        rwa [at?_object, hv]
  · intro p bs' os' hb ho
    cases p with
    | nil =>
      cases hb
      cases ho
      exact ⟨rs, at?_nil _, hkeys⟩
    | cons k p =>
      obtain ⟨v, r, hvw, hr, hl⟩ := overlaid_field hlaid ho
      rw [hr]
      exact hl.keys p bs' os' hb hvw

/-- The fields of the override were merged one by one. -/
theorem outcome_objects_ok {bs os rs : Fields} (hm : MergedFields bs os rs)
    (ih : ∀ field ∈ os, ∀ base, Outcome base field.2 (mergeValue base field.2)) :
    Outcome (some (.object bs)) (.object os) (.ok (.object rs)) := by
  have hfield : ∀ k v, os.find? k = some v → ∃ r, rs.find? k = some r ∧ Outcome (bs.find? k) v (.ok r) := by
    intro k v hv
    obtain ⟨r, hr, hr'⟩ := hm.merged k v hv
    exact ⟨r, hr', hr ▸ ih (k, v) (Table.mem_of_find? hv) (bs.find? k)⟩
  constructor
  · intro p hp
    cases p with
    | nil => exact (inConflict_nil.1 hp).not_objects ⟨rfl, rfl⟩
    | cons k p =>
      obtain ⟨-, os', v, -, hos, hv⟩ := hp.objects
      cases hos
      obtain ⟨r, -, hno, -⟩ := hfield k v hv
      exact hno p ((inConflict_cons hv).1 hp)
  · refine overlaid_objects hm.kept hm.keys fun k v hv => ?_
    obtain ⟨r, hr, -, hl⟩ := hfield k v hv
    exact ⟨r, hr, hl⟩

/-- A field of the override did not fit, and those before it did. -/
theorem outcome_objects_error {bs before after : Fields} {k : Key} {v : Value} {c : Conflict}
    (hd : (Table.keys (before ++ (k, v) :: after)).Nodup)
    (hbefore : ∀ field ∈ before, ∃ r, mergeValue (bs.find? field.1) field.2 = .ok r)
    (herr : mergeValue (bs.find? k) v = .error c)
    (ih : ∀ field ∈ before ++ (k, v) :: after, ∀ base, Outcome base field.2 (mergeValue base field.2)) :
    Outcome (some (.object bs)) (.object (before ++ (k, v) :: after)) (.error (c.under k)) := by
  have hmem : (k, v) ∈ before ++ (k, v) :: after := List.mem_append_right _ List.mem_cons_self
  have hv : Table.find? (before ++ (k, v) :: after) k = some v := Table.find?_of_mem hd hmem
  have hout : Outcome (bs.find? k) v (.error c) := herr ▸ ih (k, v) hmem (bs.find? k)
  obtain ⟨⟨hconf, front, back, hpaths, hfront⟩, hbase, hoverride⟩ := hout
  refine ⟨⟨(inConflict_cons hv).2 hconf, [] :: (Value.fieldPaths before ++ front.map (k :: ·)),
    back.map (k :: ·) ++ Value.fieldPaths after, ?_, fun q hq => ?_⟩, ?_, ?_⟩
  · rw [Value.paths, fieldPaths_append, Value.fieldPaths, hpaths]
    simp [Conflict.under]
  · rcases List.mem_cons.1 hq with rfl | hq
    · exact fun h => (inConflict_nil.1 h).not_objects ⟨rfl, rfl⟩
    · rcases List.mem_append.1 hq with hq | hq
      · obtain ⟨k', v', p, hm, rfl⟩ := mem_fieldPaths hq
        have hm' := List.mem_append_left ((k, v) :: after) hm
        have hv' : Table.find? (before ++ (k, v) :: after) k' = some v' := Table.find?_of_mem hd hm'
        obtain ⟨r, hr⟩ := hbefore _ hm
        have hok : Outcome (bs.find? k') v' (.ok r) := hr ▸ ih (k', v') hm' (bs.find? k')
        exact fun h => hok.1 p ((inConflict_cons hv').1 h)
      · obtain ⟨p, hp, rfl⟩ := List.mem_map.1 hq
        exact fun h => hfront p hp ((inConflict_cons hv).1 h)
  · exact hbase
  · rw [Conflict.under, at?_object, hv]
    exact hoverride

theorem haveJson_nodup {fields : Fields} (h : Value.haveJson fields = true) :
    fields.keys.Nodup ∧ ∀ field ∈ fields, field.2.isJson = true := by
  induction fields with
  | nil => exact ⟨List.nodup_nil, List.forall_mem_nil _⟩
  | cons field rest ih =>
    obtain ⟨k, v⟩ := field
    obtain ⟨-, hv, hrest, hk⟩ := Json.haveJson_cons h
    obtain ⟨hd, hvs⟩ := ih hrest
    refine ⟨List.nodup_cons.2 ⟨hk, hd⟩, fun field hf => ?_⟩
    rcases List.mem_cons.1 hf with rfl | hf
    · exact hv
    · exact hvs field hf

/-- A value that is no object, over a value. -/
theorem outcome_scalar {override : Value} (ho : ¬ IsObject override) (base : Option Value) :
    Outcome base override (mergeValue base override) := by
  cases base with
  | none =>
    have h : mergeValue none override = .ok override := by
      cases override <;> rfl
    rw [h]
    exact outcome_fresh (.inl rfl) override
  | some b =>
    by_cases hb : b = .null
    · subst hb
      have h : mergeValue (some .null) override = .ok override := by
        cases override <;> rfl
      rw [h]
      exact outcome_fresh (.inr rfl) override
    · have h : mergeValue (some b) override =
          if kindOf override = .null ∨ kindOf override = .array ∨ kindOf b = kindOf override then .ok override
          else .error ⟨[], b, override⟩ := by
        cases override <;> cases b <;> first | rfl | exact absurd rfl ho | exact absurd rfl hb
      rw [h]
      split_ifs with hfit
      · refine outcome_replaced ho fun hu => ?_
        rcases hfit with hfit | hfit | hfit
        · exact hu.override_ne_null hfit
        · exact hu.override_ne_array hfit
        · exact hu.kinds hfit
      · simp only [not_or] at hfit
        refine outcome_unfit ⟨fun hn => hb ?_, hfit.1, hfit.2.1, fun h => ho h.2, hfit.2.2⟩
        cases b <;> first | rfl | cases hn

/-- The value of a field is smaller than the object. -/
theorem sizeOf_lt_of_mem {fields : Fields} {field : Key × Value} (h : field ∈ fields) :
    sizeOf field.2 < sizeOf (Value.object fields) := by
  obtain ⟨k, v⟩ := field
  have hs := List.sizeOf_lt_of_mem h
  simp only [Value.object.sizeOf_spec, Prod.mk.sizeOf_spec] at hs ⊢
  omega

/-- **What a merge of two values comes to**, by recursion on the override. -/
theorem mergeValue_outcome : ∀ (override : Value), override.isJson = true → ∀ base : Option Value,
    Outcome base override (mergeValue base override)
  | .object os, hj, base => by
    obtain ⟨hd, hjs⟩ := haveJson_nodup hj
    have ih : ∀ field ∈ os, ∀ base, Outcome base field.2 (mergeValue base field.2) :=
      fun field hf base => mergeValue_outcome field.2 (hjs field hf) base
    cases base with
    | none => exact outcome_fresh (.inl rfl) _
    | some b =>
      cases b with
      | null => exact outcome_fresh (.inr rfl) _
      | object bs =>
        have hval : mergeValue (some (.object bs)) (.object os) = (mergeFields bs os).map .object := rfl
        rw [hval]
        cases hm : mergeFields bs os with
        | ok rs => exact outcome_objects_ok (mergeFields_ok hd hm) ih
        | error c =>
          obtain ⟨before, after, k, v, c', rfl, hbefore, herr, rfl⟩ := mergeFields_error hd hm
          exact outcome_objects_error hd hbefore herr ih
      | _ => exact outcome_unfit (by constructor <;> simp [IsObject, kindOf])
  | .null, _, base => outcome_scalar (by simp [IsObject, kindOf]) base
  | .bool _, _, base => outcome_scalar (by simp [IsObject, kindOf]) base
  | .number _, _, base => outcome_scalar (by simp [IsObject, kindOf]) base
  | .text _, _, base => outcome_scalar (by simp [IsObject, kindOf]) base
  | .array _, _, base => outcome_scalar (by simp [IsObject, kindOf]) base
termination_by override => sizeOf override
decreasing_by exact sizeOf_lt_of_mem hf

/-! ### The merge of two configurations -/

/-- The failure of a conflict between two values at a path. -/
def conflictFailure (p : List Key) (base override : Value) : Failure :=
  .config .typeConflict
    ("Type conflict at '" ++ Text.join "." (p.map keyText) ++ "': " ++ base.tag ++ " vs " ++ override.tag) none
    (some (Text.join "." (p.map keyText)))

/-- **A merge, path by path.** It fails if and only if some path is in conflict, and names the first
one with the values there; if it does not fail, it gives the override laid over the base. -/
theorem merge_by_paths (base override : Fields) (hj : (Value.object override).isJson = true) :
    ((∃ f, merge (.object base) (.object override) = .error f) ↔
      ∃ p, InConflict (some (.object base)) (.object override) p) ∧
    (∀ f, merge (.object base) (.object override) = .error f →
      ∃ p b o, FirstConflict (some (.object base)) (.object override) p ∧
        (Value.object base).at? p = some b ∧ (Value.object override).at? p = some o ∧ f = conflictFailure p b o) ∧
    ∀ r, merge (.object base) (.object override) = .ok r →
      Overlaid (some (.object base)) (.object override) r := by
  have hout := mergeValue_outcome (.object override) hj (some (.object base))
  have hmerge : merge (.object base) (.object override) =
      (mergeValue (some (.object base)) (.object override)).mapError Conflict.toFailure := rfl
  cases hm : mergeValue (some (.object base)) (.object override) with
  | error c =>
    rw [hm] at hout hmerge
    rw [hmerge]
    obtain ⟨hfirst, hb, ho⟩ := hout
    refine ⟨⟨fun _ => ⟨c.path, hfirst.conflict⟩, fun _ => ⟨_, rfl⟩⟩, ?_, ?_⟩
    · intro f hf
      cases hf
      exact ⟨c.path, c.base, c.override, hfirst, hb, ho, rfl⟩
    · intro r hr
      cases hr
  | ok r =>
    rw [hm] at hout hmerge
    rw [hmerge]
    obtain ⟨hno, hlaid⟩ := hout
    refine ⟨⟨?_, ?_⟩, ?_, ?_⟩
    · rintro ⟨f, hf⟩
      cases hf
    · rintro ⟨p, hp⟩
      exact absurd hp (hno p)
    · intro f hf
      cases hf
    · intro r' hr
      cases hr
      exact hlaid

/-- A text and a number of a setting do not fit together. -/
theorem merge_by_paths_setting :
    ∃ p, InConflict (some (.object [("engine", .object [("spillover_dir", .text "spill")])]))
      (.object [("name", .text "orders"), ("engine", .object [("spillover_dir", Value.int 5)])]) p :=
  (merge_by_paths [("engine", .object [("spillover_dir", .text "spill")])]
    [("name", .text "orders"), ("engine", .object [("spillover_dir", Value.int 5)])] (by decide)).1.1 ⟨_, rfl⟩

end Configuration

end EventPipeline
