import EventPipeline.Configuration.Fingerprint
import EventPipeline.Proofs.Json.RoundTrip
import Mathlib.Data.List.Perm.Basic
import Mathlib.Data.List.Sort

/-!
# Canonical JSON text tells values apart, but for the order of fields

Two values are *reorderings* of each other if they differ in the order of fields only, at any depth
(`Value.Reordered`); the order of items counts, and so does the kind of a number. The keys of texts are
totally ordered, so the fields of an object have one order by key as long as no key occurs twice, and
sorting takes reorderings to the same value (`Value.sorted_eq_iff`). As the text of a value can be read
back, values have the same canonical text exactly if they are reorderings of each other
(`Configuration.canonical_eq_iff`), and then they have the same fingerprint.
-/

namespace EventPipeline

/-! ### The order of keys -/

theorem Symbol.code_injective : Function.Injective Symbol.code := by
  intro s t h
  cases s with
  | char c =>
    cases t with
    | char d => exact congrArg Symbol.char (Char.toNat_inj.1 h)
    | surrogate n =>
      have hc := c.valid
      simp only [Symbol.code, Char.toNat] at h
      simp only [UInt32.isValidChar, Nat.isValidChar] at hc
      omega
  | surrogate m =>
    cases t with
    | char d =>
      have hd := d.valid
      simp only [Symbol.code, Char.toNat] at h
      simp only [UInt32.isValidChar, Nat.isValidChar] at hd
      omega
    | surrogate n => exact congrArg Symbol.surrogate (Fin.ext (Nat.add_left_cancel h))

namespace Text

/-- The order of texts is lexicographic. -/
theorem compare_eq_compareLex : Text.compare = List.compareLex (compareOn Symbol.code) := by
  funext s t
  induction s generalizing t with
  | nil => cases t <;> rfl
  | cons a s ih =>
    cases t with
    | nil => rfl
    | cons b t => rw [compare, List.compareLex_cons_cons, ih, compareOn]

instance : Std.TransCmp Text.compare := by
  rw [compare_eq_compareLex]
  infer_instance

theorem eq_of_compare {s t : Text} (h : compare s t = .eq) : s = t := by
  induction s generalizing t with
  | nil =>
    cases t with
    | nil => rfl
    | cons b t => cases h
  | cons a s ih =>
    cases t with
    | nil => cases h
    | cons b t =>
      rw [compare, Ordering.then_eq_eq] at h
      rw [Symbol.code_injective (Nat.compare_eq_eq.1 h.1), ih h.2]

theorem notAfter_iff {s t : Text} : s.notAfter t = true ↔ (compare s t).isLE = true := by
  rw [notAfter]
  cases compare s t <;> decide

end Text

namespace Key

theorem notAfter_trans (j k l : Key) (hjk : j.notAfter k = true) (hkl : k.notAfter l = true) :
    j.notAfter l = true := by
  cases j <;> cases k <;> cases l <;> simp only [notAfter, Bool.false_eq_true] at hjk hkl ⊢
  exact Text.notAfter_iff.2 (Std.TransCmp.isLE_trans (Text.notAfter_iff.1 hjk) (Text.notAfter_iff.1 hkl))

theorem notAfter_total (j k : Key) : (j.notAfter k || k.notAfter j) = true := by
  cases j <;> cases k <;> try rfl
  rename_i s t
  have hswap : Text.compare t s = (Text.compare s t).swap := Std.OrientedCmp.eq_swap
  rw [notAfter, notAfter, Bool.or_eq_true, Text.notAfter_iff, Text.notAfter_iff, hswap]
  cases Text.compare s t <;> decide

theorem notAfter_antisymm {j k : Key} (hjk : j.notAfter k = true) (hkj : k.notAfter j = true) : j = k := by
  cases j with
  | surplus =>
    cases k with
    | surplus => rfl
    | name t => cases hjk
  | name s =>
    cases k with
    | surplus => cases hkj
    | name t =>
      have hswap : Text.compare t s = (Text.compare s t).swap := Std.OrientedCmp.eq_swap
      rw [notAfter, Text.notAfter_iff] at hjk hkj
      rw [hswap] at hkj
      have heq : Text.compare s t = .eq := by
        revert hjk hkj
        cases Text.compare s t <;> decide
      rw [Text.eq_of_compare heq]

end Key

/-! ### Reorderings -/

namespace Value

mutual

/-- Two values differ in the order of fields only, at any depth. -/
inductive Reordered : Value → Value → Prop where
  /-- The null value. -/
  | null : Reordered .null .null
  /-- A truth value. -/
  | bool (b : Bool) : Reordered (.bool b) (.bool b)
  /-- A number, whose kind counts. -/
  | number (n : Number) : Reordered (.number n) (.number n)
  /-- A text. -/
  | text (t : Text) : Reordered (.text t) (.text t)
  /-- Arrays with reordered items at each place. -/
  | array {vs ws : List Value} : ReorderedItems vs ws → Reordered (.array vs) (.array ws)
  /-- Objects with reordered values under each key, in any order of the keys. -/
  | object {fs gs hs : List (Key × Value)} : ReorderedFields fs gs → gs.Perm hs →
      Reordered (.object fs) (.object hs)

/-- The items at each place are reordered. -/
inductive ReorderedItems : List Value → List Value → Prop where
  /-- No items. -/
  | nil : ReorderedItems [] []
  /-- One more item on each side. -/
  | cons {v w : Value} {vs ws : List Value} : Reordered v w → ReorderedItems vs ws →
      ReorderedItems (v :: vs) (w :: ws)

/-- The fields at each place have the same key and reordered values. -/
inductive ReorderedFields : List (Key × Value) → List (Key × Value) → Prop where
  /-- No fields. -/
  | nil : ReorderedFields [] []
  /-- One more field on each side. -/
  | cons {k : Key} {v w : Value} {fs gs : List (Key × Value)} : Reordered v w → ReorderedFields fs gs →
      ReorderedFields ((k, v) :: fs) ((k, w) :: gs)

end

/-! ### Sorting -/

theorem sortedFields_eq (fs : List (Key × Value)) : sortedFields fs = fs.map fun f => (f.1, f.2.sorted) := by
  induction fs with
  | nil => rfl
  | cons f fs ih =>
    obtain ⟨k, v⟩ := f
    rw [sortedFields, ih, List.map_cons]

theorem keys_sortedFields (fs : List (Key × Value)) : (sortedFields fs).map Prod.fst = fs.map Prod.fst := by
  rw [sortedFields_eq, List.map_map]
  rfl

/-- Fields in any order have one order by key, if no key occurs twice. -/
theorem mergeSort_eq_of_perm {fs gs : List (Key × Value)} (h : fs.Perm gs) (hd : (fs.map Prod.fst).Nodup) :
    (fs.mergeSort fun f g => f.1.notAfter g.1) = gs.mergeSort fun f g => f.1.notAfter g.1 := by
  have hsorted := fun hs : List (Key × Value) => List.pairwise_mergeSort (fun f g h => Key.notAfter_trans f.1 g.1 h.1)
    (fun f g => Key.notAfter_total f.1 g.1) hs
  have hperm := (List.mergeSort_perm fs fun f g => f.1.notAfter g.1).trans
    (h.trans (List.mergeSort_perm gs fun f g => f.1.notAfter g.1).symm)
  refine List.Perm.eq_of_pairwise ?_ (hsorted fs) (hsorted gs) hperm
  intro f g hf hg hfg hgf
  have hf' : f ∈ fs := (List.mergeSort_perm _ _).mem_iff.1 hf
  have hg' : g ∈ fs := h.mem_iff.2 ((List.mergeSort_perm _ _).mem_iff.1 hg)
  exact List.inj_on_of_nodup_map hd hf' hg' (Key.notAfter_antisymm hfg hgf)

mutual

/-- Sorting does not hide a value from its text. -/
theorem isJson_sorted : ∀ {v : Value}, v.isJson = true → v.sorted.isJson = true
  | .null, _ | .bool _, _ | .number _, _ | .text _, _ => rfl
  | .array _, h => areJson_sortedItems h
  | .object fs, h => by
    obtain ⟨hd, hfs⟩ := haveJson_iff.1 (haveJson_sortedFields h)
    have hperm := List.mergeSort_perm (sortedFields fs) fun f g => f.1.notAfter g.1
    exact haveJson_iff.2 ⟨(hperm.map Prod.fst).nodup_iff.2 hd, fun f hf => hfs f (hperm.mem_iff.1 hf)⟩

theorem areJson_sortedItems : ∀ {vs : List Value}, areJson vs = true → areJson (sortedItems vs) = true
  | [], _ => rfl
  | v :: vs, h => by
    rw [areJson, Bool.and_eq_true] at h
    rw [sortedItems, areJson, Bool.and_eq_true]
    exact ⟨isJson_sorted h.1, areJson_sortedItems h.2⟩

theorem haveJson_sortedFields : ∀ {fs : List (Key × Value)}, haveJson fs = true → haveJson (sortedFields fs) = true
  | [], _ => rfl
  | (k, v) :: fs, h => by
    obtain ⟨⟨name, rfl⟩, hv, hfs, hk⟩ := Json.haveJson_cons h
    obtain ⟨hd, hsorted⟩ := haveJson_iff.1 (haveJson_sortedFields hfs)
    rw [sortedFields, haveJson_iff, List.map_cons, List.nodup_cons, keys_sortedFields, List.forall_mem_cons]
    rw [keys_sortedFields] at hd
    exact ⟨⟨hk, hd⟩, ⟨Key.noConfusion, isJson_sorted hv⟩, hsorted⟩

end

mutual

/-- Reorderings are sorted to the same value. -/
theorem Reordered.sorted_eq {a b : Value} (ha : a.isJson = true) : Reordered a b → a.sorted = b.sorted
  | .null | .bool _ | .number _ | .text _ => rfl
  | .array h => by rw [sorted, sorted, h.sorted_eq ha]
  | @Reordered.object fs gs hs h hperm => by
    have hfields := h.sorted_eq ha
    have hd := (haveJson_iff.1 (haveJson_sortedFields ha)).1
    rw [hfields] at hd
    rw [sorted, sorted, hfields]
    refine congrArg Value.object (mergeSort_eq_of_perm ?_ hd)
    rw [sortedFields_eq, sortedFields_eq]
    exact hperm.map _

theorem ReorderedItems.sorted_eq {vs ws : List Value} (hv : areJson vs = true) :
    ReorderedItems vs ws → sortedItems vs = sortedItems ws
  | .nil => rfl
  | .cons h hs => by
    rw [areJson, Bool.and_eq_true] at hv
    rw [sortedItems, sortedItems, h.sorted_eq hv.1, hs.sorted_eq hv.2]

theorem ReorderedFields.sorted_eq {fs gs : List (Key × Value)} (hf : haveJson fs = true) :
    ReorderedFields fs gs → sortedFields fs = sortedFields gs
  | .nil => rfl
  | .cons h hs => by
    obtain ⟨-, hv, hfs, -⟩ := Json.haveJson_cons hf
    rw [sortedFields, sortedFields, h.sorted_eq hv, hs.sorted_eq hfs]

end

mutual

/-- Values that are sorted to the same value are reorderings of each other. -/
theorem reordered_of_sorted_eq : ∀ {a b : Value}, a.sorted = b.sorted → Reordered a b
  | .null, b, h => by
    cases b <;> simp only [sorted, reduceCtorEq] at h
    exact .null
  | .bool _, b, h => by
    cases b <;> simp only [sorted, reduceCtorEq, bool.injEq] at h
    exact h ▸ .bool _
  | .number _, b, h => by
    cases b <;> simp only [sorted, reduceCtorEq, number.injEq] at h
    exact h ▸ .number _
  | .text _, b, h => by
    cases b <;> simp only [sorted, reduceCtorEq, text.injEq] at h
    exact h ▸ .text _
  | .array vs, b, h => by
    cases b <;> simp only [sorted, reduceCtorEq, array.injEq] at h
    exact .array (reorderedItems_of_sorted_eq h)
  | .object fs, b, h => by
    cases b <;> simp only [sorted, reduceCtorEq, object.injEq] at h
    rename_i hs
    have hperm : (sortedFields fs).Perm (hs.map fun f => (f.1, f.2.sorted)) := by
      have hsort := List.mergeSort_perm (sortedFields fs) fun f g => f.1.notAfter g.1
      rw [h] at hsort
      rw [← sortedFields_eq]
      exact hsort.symm.trans (List.mergeSort_perm _ _)
    -- Whatever permutes the sorted fields of `hs` permutes the fields themselves.
    obtain ⟨gs, hgs, hperm⟩ := (congrFun₂ (List.eq_map_comp_perm fun f : Key × Value => (f.1, f.2.sorted)) _ _).mpr hperm
    rw [← sortedFields_eq] at hgs
    exact .object (reorderedFields_of_sorted_eq hgs) hperm

theorem reorderedItems_of_sorted_eq : ∀ {vs ws : List Value}, sortedItems vs = sortedItems ws → ReorderedItems vs ws
  | [], [], _ => .nil
  | [], _ :: _, h | _ :: _, [], h => by cases h
  | v :: vs, w :: ws, h => by
    rw [sortedItems, sortedItems, List.cons.injEq] at h
    exact .cons (reordered_of_sorted_eq h.1) (reorderedItems_of_sorted_eq h.2)

theorem reorderedFields_of_sorted_eq : ∀ {fs gs : List (Key × Value)}, sortedFields fs = sortedFields gs →
    ReorderedFields fs gs
  | [], [], _ => .nil
  | [], _ :: _, h | _ :: _, [], h => by cases h
  | (j, v) :: fs, (k, w) :: gs, h => by
    rw [sortedFields, sortedFields, List.cons.injEq, Prod.mk.injEq] at h
    obtain ⟨⟨rfl, hv⟩, hfs⟩ := h
    exact .cons (reordered_of_sorted_eq hv) (reorderedFields_of_sorted_eq hfs)

end

/-- **Sorting takes exactly the reorderings of a value to one value.** -/
theorem sorted_eq_iff {a b : Value} (ha : a.isJson = true) : a.sorted = b.sorted ↔ Reordered a b :=
  ⟨reordered_of_sorted_eq, fun h => h.sorted_eq ha⟩

end Value

/-! ### Canonical texts and fingerprints -/

namespace Configuration

/-- The fingerprint of an object is that of any object with the same canonical text. -/
theorem fingerprint_congr {a b : Value} (h : a.Reordered b) (hc : Json.canonical a = Json.canonical b) :
    fingerprint a = fingerprint b := by
  cases h with
  | object h hperm => rw [fingerprint, fingerprint, digestOf, digestOf, hc]
  | _ => rfl

/-- **Canonical text decides equality up to the order of fields**, and the fingerprint does not depend
on that order. -/
theorem canonical_eq_iff {a b : Value} (ha : a.isJson = true) (hb : b.isJson = true) :
    (Json.canonical a = Json.canonical b ↔ a.Reordered b) ∧ (a.Reordered b → fingerprint a = fingerprint b) := by
  have hcanonical : Json.canonical a = Json.canonical b ↔ a.Reordered b := by
    rw [← Value.sorted_eq_iff ha]
    constructor
    · intro h
      have hread := Json.read_write Json.legible_compact (Value.isJson_sorted ha)
      rw [Json.canonical, Json.canonical] at h
      rw [h, Json.read_write Json.legible_compact (Value.isJson_sorted hb)] at hread
      exact (Except.ok.inj hread).symm
    · intro h
      rw [Json.canonical, Json.canonical, h]
  exact ⟨hcanonical, fun h => fingerprint_congr h (hcanonical.2 h)⟩

/-- Fields in another order at two depths; an item of another kind of number would count. -/
theorem canonical_eq_iff_two_depths :
    let inner : List (Key × Value) := [(.name "y", .null), (.name "x", .array [.int 1, .bool true])]
    let a : Value := .object [(.name "b", .int 1), (.name "a", .object inner)]
    let b : Value := .object [(.name "a", .object inner.reverse), (.name "b", .int 1)]
    a.isJson = true ∧ b.isJson = true ∧ Json.canonical a = Json.canonical b ∧ fingerprint a = fingerprint b := by
  intro inner a b
  have ha : a.isJson = true := by decide
  have hb : b.isJson = true := by decide
  have hinner : Value.Reordered (.object inner) (.object inner.reverse) :=
    .object (.cons .null (.cons (.array (.cons (.number _) (.cons (.bool true) .nil))) .nil)) (.swap _ _ _)
  have hab : a.Reordered b := .object (.cons (.number _) (.cons hinner .nil)) (.swap _ _ _)
  have h := canonical_eq_iff ha hb
  exact ⟨ha, hb, h.1.2 hab, h.2 hab⟩

end Configuration

end EventPipeline
