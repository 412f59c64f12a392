import EventPipeline.Expression.Operators
import EventPipeline.Proofs.Json.RoundTrip
import EventPipeline.Proofs.Number.Value
import Mathlib.Data.List.Forall2

/-!
# Strict equality

Strict equality looks at the structure of two values (`Structural`): numbers have to have the same exact value, arrays
equal elements in the same places, objects equal values under the same keys, and a truth value never equals a number.
What the elements and the values have to satisfy is the question. It is not strict equality again: inside arrays and
objects a truth value counts as zero or one. The law with strict equality at every depth therefore holds just where no
truth value that is directly inside one container faces a number in the other one (`strictlyEquals_structural`).
-/

namespace EventPipeline

namespace Value

mutual

/-- Nowhere in the value does what is no number stand. -/
def isNaNFree : Value → Bool
  | .number n => n.value?.isSome
  | .array items => areNaNFree items
  | .object fields => haveNoNaN fields
  | _ => true

/-- The same for all values of a list. -/
def areNaNFree : List Value → Bool
  | [] => true
  | v :: vs => v.isNaNFree && areNaNFree vs

/-- The same for the values of all fields. -/
def haveNoNaN : List (Key × Value) → Bool
  | [] => true
  | (_, v) :: fs => v.isNaNFree && haveNoNaN fs

end

/-! ### One level -/

/-- Two values have the same structure at the top: the same scalar, or containers whose contents are related. -/
def Structural (R : Value → Value → Prop) : Value → Value → Prop
  | .null, .null => True
  | .bool p, .bool q => p = q
  | .number m, .number n => m.value? = n.value?
  | .text s, .text t => s = t
  | .array vs, .array ws => List.Forall₂ R vs ws
  | .object fs, .object gs => (∀ k, k ∈ Table.keys fs ↔ k ∈ Table.keys gs) ∧
      ∀ k v w, Table.find? fs k = some v → Table.find? gs k = some w → R v w
  | _, _ => False

/-- One of two values is a truth value and the other one a number. -/
def TruthAndNumber : Value → Value → Prop
  | .bool _, .number _ | .number _, .bool _ => True
  | _, _ => False

/-- A truth value directly inside one container faces a number in the other one. -/
def Mixed : Value → Value → Prop
  | .array vs, .array ws => ∃ pair ∈ vs.zip ws, TruthAndNumber pair.1 pair.2
  | .object fs, .object gs =>
    ∃ k v w, Table.find? fs k = some v ∧ Table.find? gs k = some w ∧ TruthAndNumber v w
  | _, _ => False

theorem structural_congr {R S : Value → Value → Prop} (h : ∀ v w, R v w ↔ S v w) {a b : Value} :
    Structural R a b ↔ Structural S a b := by
  obtain rfl : R = S := funext fun v => funext fun w => propext (h v w)
  rfl

theorem forall₂_and_iff {α β : Type} {R S : α → β → Prop} {vs : List α} {ws : List β} :
    List.Forall₂ (fun v w => R v w ∧ S v w) vs ws ↔
      List.Forall₂ R vs ws ∧ ∀ pair ∈ vs.zip ws, S pair.1 pair.2 := by
  rw [List.forall₂_iff_zip, List.forall₂_iff_zip]
  constructor
  · rintro ⟨hlength, h⟩
    exact ⟨⟨hlength, fun hp => (h hp).1⟩, fun pair hp => (h hp).2⟩
  · rintro ⟨⟨hlength, hr⟩, hs⟩
    exact ⟨hlength, fun hp => ⟨hr hp, hs _ hp⟩⟩

/-- A relation that keeps truth values and numbers apart does so for what is directly inside. -/
theorem structural_and_iff {R : Value → Value → Prop} {a b : Value} :
    Structural (fun v w => R v w ∧ ¬ TruthAndNumber v w) a b ↔ Structural R a b ∧ ¬ Mixed a b := by
  cases a with
  | array vs =>
    cases b with
    | array ws =>
      simp only [Structural, Mixed, not_exists, not_and]
      exact forall₂_and_iff
    | _ => simp [Structural]
  | object fs =>
    cases b with
    | object gs =>
      simp only [Structural, Mixed, not_exists, not_and]
      constructor
      · rintro ⟨hkeys, h⟩
        exact ⟨⟨hkeys, fun k v w hv hw => (h k v w hv hw).1⟩, fun k v w hv hw => (h k v w hv hw).2⟩
      · rintro ⟨⟨hkeys, hr⟩, hs⟩
        exact ⟨hkeys, fun k v w hv hw => ⟨hr k v w hv hw, hs k v w hv hw⟩⟩
    | _ => simp [Structural]
  | _ => cases b <;> simp [Structural, Mixed]

/-! ### Equality by value -/

theorem equalsItems_iff {vs ws : List Value} :
    equalsItems vs ws = true ↔ List.Forall₂ (fun v w => v.equals w = true) vs ws := by
  induction vs generalizing ws with
  | nil => cases ws <;> simp [equalsItems]
  | cons v vs ih => cases ws <;> simp [equalsItems, ih]

theorem equalsFields_iff {fs gs : Fields} : equalsFields fs gs = true ↔
    ∀ field ∈ fs, ∃ w, gs.find? field.1 = some w ∧ field.2.equals w = true := by
  induction fs with
  | nil => simp [equalsFields]
  | cons field fs ih =>
    obtain ⟨k, v⟩ := field
    rw [equalsFields, Bool.and_eq_true, ih, List.forall_mem_cons]
    cases Table.find? gs k <;> simp

/-- Objects are equal by value if they have the same keys, and equal values under them. -/
theorem equals_object_iff {fs gs : Fields} (hfs : fs.keys.Nodup) (hgs : gs.keys.Nodup) :
    (Value.object fs).equals (.object gs) = true ↔
      Structural (fun v w => v.equals w = true) (.object fs) (.object gs) := by
  have hmem : ∀ {t : Fields} {k : Key}, k ∈ t.keys ↔ ∃ v, t.find? k = some v := by
    intro t k
    rw [← not_iff_not, ← Table.find?_eq_none_iff, Option.eq_none_iff_forall_ne_some, not_exists]
  rw [equals, Bool.and_eq_true, beq_iff_eq, equalsFields_iff]
  constructor
  · rintro ⟨hlength, hfields⟩
    have hsubset : fs.keys ⊆ gs.keys := by
      intro k hk
      obtain ⟨v, hv⟩ := hmem.1 hk
      obtain ⟨w, hw, -⟩ := hfields _ (Table.mem_of_find? hv)
      exact hmem.2 ⟨w, hw⟩
    have hperm : fs.keys.Perm gs.keys :=
      (List.subperm_of_subset hfs hsubset).perm_of_length_le (by simp [Table.keys, hlength])
    refine ⟨fun k => hperm.mem_iff, fun k v w hv hw => ?_⟩
    obtain ⟨w', hw', hequal⟩ := hfields _ (Table.mem_of_find? hv)
    rw [hw] at hw'
    cases hw'
    exact hequal
  · rintro ⟨hkeys, hvalues⟩
    have hperm : fs.keys.Perm gs.keys := (List.perm_ext_iff_of_nodup hfs hgs).2 hkeys
    refine ⟨by simpa [Table.keys] using hperm.length_eq, fun field hfield => ?_⟩
    have hv := Table.find?_of_mem hfs hfield
    obtain ⟨w, hw⟩ := hmem.1 ((hkeys field.1).1 (hmem.2 ⟨_, hv⟩))
    exact ⟨w, hw, hvalues _ _ _ hv hw⟩

end Value

namespace Expression

open Value

/-- Inside containers a truth value counts as zero or one. -/
theorem equals_eq_strictlyEquals (v w : Value) : v.equals w = strictlyEquals (unboolean v) (unboolean w) := by
  cases v <;> cases w <;> rfl

theorem strictlyEquals_iff {v w : Value} :
    strictlyEquals v w = true ↔ v.equals w = true ∧ ¬ TruthAndNumber v w := by
  cases v with
  | bool p =>
    cases w with
    | bool q =>
      cases p <;> cases q <;>
        simp [strictlyEquals, Value.equals, asNumber?, TruthAndNumber, Number.equals, Number.compare?]
    | _ => simp [strictlyEquals, Value.equals, asNumber?, TruthAndNumber]
  | _ => cases w <;> simp [strictlyEquals, Value.equals, asNumber?, TruthAndNumber]

theorem strictlyEquals_iff_structural {a b : Value} (ha : a.isJson = true) (hb : b.isJson = true)
    (hna : a.isNaNFree = true) :
    strictlyEquals a b = true ↔ Structural (fun v w => v.equals w = true) a b := by
  cases a with
  | number m =>
    have hm : m.value? ≠ none := by
      rw [← Option.isSome_iff_ne_none]
      exact hna
    cases b with
    | number n => exact Number.equals_iff_value hm
    | _ => simp [strictlyEquals, Value.equals, asNumber?, Structural]
  | array vs =>
    cases b with
    | array ws => exact equalsItems_iff
    | _ => simp [strictlyEquals, Value.equals, asNumber?, Structural]
  | object fs =>
    cases b with
    | object gs => exact equals_object_iff (haveJson_iff.1 ha).1 (haveJson_iff.1 hb).1
    | _ => simp [strictlyEquals, Value.equals, asNumber?, Structural]
  | _ => cases b <;> simp [strictlyEquals, Value.equals, asNumber?, Structural]

/-- **Strict equality is structural** on JSON values without what is no number: elements and fields are equal by value,
where a truth value counts as zero or one. So the law with strict equality itself inside containers holds too, but just
where no truth value directly inside one of them faces a number of the other. -/
theorem strictlyEquals_structural {a b : Value} (ha : a.isJson = true) (hb : b.isJson = true)
    (hna : a.isNaNFree = true) :
    (strictlyEquals a b = true ↔
      Structural (fun v w => strictlyEquals (unboolean v) (unboolean w) = true) a b) ∧
    (Structural (fun v w => strictlyEquals v w = true) a b ↔ strictlyEquals a b = true ∧ ¬ Mixed a b) := by
  have hlaw := strictlyEquals_iff_structural ha hb hna
  constructor
  · rw [hlaw]
    exact structural_congr fun v w => by rw [equals_eq_strictlyEquals]
  · rw [hlaw, ← structural_and_iff]
    exact structural_congr fun v w => strictlyEquals_iff

/-- An integer against a number in double precision, and an object with its fields in another order. -/
theorem strictlyEquals_structural_reordered :
    ¬ Mixed (.array [.int 1, .object [("a", .bool true), ("b", .null)]])
        (.array [.number (.float (.finite false ⟨1023 * 2 ^ 52, by decide⟩)),
          .object [("b", .null), ("a", .bool true)]]) ∧
      Structural (fun v w => strictlyEquals v w = true)
        (.array [.int 1, .object [("a", .bool true), ("b", .null)]])
        (.array [.number (.float (.finite false ⟨1023 * 2 ^ 52, by decide⟩)),
          .object [("b", .null), ("a", .bool true)]]) := by
  have hmixed : ¬ Mixed (.array [.int 1, .object [("a", .bool true), ("b", .null)]])
      (.array [.number (.float (.finite false ⟨1023 * 2 ^ 52, by decide⟩)),
        .object [("b", .null), ("a", .bool true)]]) := by
    simp [Mixed, TruthAndNumber, Value.int]
  exact ⟨hmixed, (strictlyEquals_structural (by decide) (by decide) (by decide)).2.2 ⟨by decide +kernel, hmixed⟩⟩

/-- Truth equals one inside arrays, though not outside of them: with strict equality inside as well, the law fails. -/
theorem truth_equals_one_inside :
    strictlyEquals (.bool true) (.int 1) = false ∧
    (Value.array [.bool true]).isJson = true ∧ (Value.array [.int 1]).isJson = true ∧
    (Value.array [.bool true]).isNaNFree = true ∧ (Value.array [.int 1]).isNaNFree = true ∧
    ¬ (strictlyEquals (.array [.bool true]) (.array [.int 1]) = true ↔
      Structural (fun v w => strictlyEquals v w = true) (.array [.bool true]) (.array [.int 1])) := by
  refine ⟨rfl, rfl, rfl, rfl, rfl, ?_⟩
  have hequal : strictlyEquals (.array [.bool true]) (.array [.int 1]) = true := rfl
  have hapart : ¬ Structural (fun v w => strictlyEquals v w = true) (.array [.bool true]) (.array [.int 1]) := by
    rintro (_ | ⟨h, -⟩)
    cases h
  exact fun hlaw => hapart (hlaw.1 hequal)

end Expression

end EventPipeline
