import EventPipeline.Failure.Reading
import EventPipeline.Proofs.Json.Numbers
import EventPipeline.Proofs.Json.Strings

/-!
# Values in JSON text

A value that was written as JSON is read again (`read_write`), in every layout whose separators are a
comma and a colon with blanks around them. What is asked of the value is that its objects have names for
keys and no name twice: the reader cannot tell other keys from names, and it keeps one field of each
name.
-/

namespace EventPipeline

namespace Value

mutual

/-- The value can be told from its JSON text: the keys of each object are names, and no two of them
are the same. -/
def isJson : Value → Bool
  | .array items => areJson items
  | .object fields => haveJson fields
  | _ => true

/-- All values of a list can be told from their JSON text. -/
def areJson : List Value → Bool
  | [] => true
  | v :: vs => v.isJson && areJson vs

/-- The fields of an object can be told from their JSON text. -/
def haveJson : List (Key × Value) → Bool
  | [] => true
  | (k, v) :: fs => k != .surplus && v.isJson && haveJson fs && !fs.any fun f => f.1 == k

end

theorem areJson_iff {vs : List Value} : areJson vs = true ↔ ∀ v ∈ vs, v.isJson = true := by
  induction vs with
  | nil => simp [areJson]
  | cons v vs ih => simp [areJson, ih]

/-- The fields of an object that can be told from its text have distinct keys, which are names. -/
theorem haveJson_iff {fs : List (Key × Value)} :
    haveJson fs = true ↔ (fs.map Prod.fst).Nodup ∧ ∀ f ∈ fs, f.1 ≠ .surplus ∧ f.2.isJson = true := by
  induction fs with
  | nil => simp [haveJson]
  | cons f fs ih =>
    obtain ⟨k, v⟩ := f
    simp only [haveJson, Bool.and_eq_true, bne_iff_ne, Bool.not_eq_true', List.any_eq_false, beq_iff_eq, ih,
      List.map_cons, List.nodup_cons, List.mem_map, not_exists, not_and, List.forall_mem_cons]
    tauto

end Value

namespace Table

theorem set_of_notMem {κ α : Type} [DecidableEq κ] {t : Table κ α} {key : κ} (h : key ∉ t.keys) (a : α) :
    t.set key a = t ++ [(key, a)] := by
  induction t with
  | nil => rfl
  | cons entry rest ih =>
    obtain ⟨k, b⟩ := entry
    rw [keys, List.map_cons, List.mem_cons, not_or] at h
    rw [set, if_neg (Ne.symm h.1), ih h.2, List.cons_append]

end Table

namespace Json

/-! ### Blanks -/

theorem skipBlanks_append {b : Text} (hb : ∀ s ∈ b, isBlank s = true) (t : Text) :
    skipBlanks (b ++ t) = skipBlanks t := by
  induction b with
  | nil => rfl
  | cons s b ih =>
    rw [List.cons_append, skipBlanks, List.dropWhile_cons_of_pos (hb s List.mem_cons_self)]
    exact ih fun r hr => hb r (List.mem_cons_of_mem _ hr)

theorem skipBlanks_cons {s : Symbol} (hs : isBlank s = false) (t : Text) : skipBlanks (s :: t) = s :: t := by
  rw [skipBlanks, List.dropWhile_cons_of_neg (by rw [hs]; decide)]

/-- Blanks do not go on with a number. -/
theorem EndsNumber.append {b t : Text} (hb : ∀ s ∈ b, isBlank s = true) (ht : EndsNumber t) : EndsNumber (b ++ t) := by
  cases b with
  | nil => exact ht
  | cons r b =>
    rintro s hs
    cases hs
    have h := hb r List.mem_cons_self
    simp only [isBlank, Bool.or_eq_true, beq_iff_eq] at h
    rcases h with ((rfl | rfl) | rfl) | rfl <;> decide

theorem EndsNumber.cons {s : Symbol} (h : s = .char ',' ∨ s = .char ']' ∨ s = .char '\x7d') (t : Text) :
    EndsNumber (s :: t) := by
  intro r hr
  cases hr
  rcases h with rfl | rfl | rfl <;> decide

/-! ### Layouts -/

/-- A layout that can be read: a comma and a colon, each followed by spaces. -/
structure Style.Legible (style : Style) : Prop where
  /-- Between two items. -/
  separator : ∃ n, style.separator = .char ',' :: List.replicate n (.char ' ')
  /-- Between a key and its value. -/
  colon : ∃ n, style.colon = .char ':' :: List.replicate n (.char ' ')

theorem legible_compact : Style.compact.Legible := ⟨⟨0, rfl⟩, ⟨0, rfl⟩⟩

theorem legible_spaced : Style.spaced.Legible := ⟨⟨1, rfl⟩, ⟨1, rfl⟩⟩

theorem legible_indented : Style.indented.Legible := ⟨⟨0, rfl⟩, ⟨1, rfl⟩⟩

theorem isBlank_of_mem_replicate (n : Nat) : ∀ s ∈ List.replicate n (Symbol.char ' '), isBlank s = true := by
  intro s hs
  rw [List.eq_of_mem_replicate hs]
  rfl

theorem isBlank_of_mem_lineBreak (style : Style) (depth : Nat) : ∀ s ∈ style.lineBreak depth, isBlank s = true := by
  intro s hs
  rw [Style.lineBreak] at hs
  split at hs
  · cases hs
  · rcases List.mem_cons.1 hs with rfl | hs
    · rfl
    · exact isBlank_of_mem_replicate _ s hs

/-- What a value starts with. -/
theorem exists_cons_writeAt (style : Style) (depth : Nat) (v : Value) :
    ∃ s t, writeAt style depth v = s :: t ∧ isBlank s = false ∧ s ≠ .char ']' ∧ s ≠ .char '\uFEFF' := by
  have hnumber : ∀ n, ∃ s t, writeNumber n = s :: t ∧ isBlank s = false ∧ s ≠ .char ']' ∧ s ≠ .char '\uFEFF' := by
    intro n
    obtain ⟨c, t, h, hc⟩ := exists_cons_writeNumber n
    have hne : ∀ d : Char, d.isDigit = false → d ≠ '-' → d ≠ 'N' → d ≠ 'I' → Symbol.char c ≠ .char d := by
      rintro d h₁ h₂ h₃ h₄ h
      rw [← Symbol.char.inj h] at h₁ h₂ h₃ h₄
      rcases hc with hc | hc | hc | hc
      · rw [hc] at h₁
        cases h₁
      · exact h₂ hc
      · exact h₃ hc
      · exact h₄ hc
    refine ⟨_, t, h, ?_, hne _ rfl (by decide) (by decide) (by decide), hne _ rfl (by decide) (by decide) (by decide)⟩
    simp only [isBlank, Bool.or_eq_false_iff, beq_eq_false_iff_ne]
    refine ⟨⟨⟨?_, ?_⟩, ?_⟩, ?_⟩ <;> exact hne _ rfl (by decide) (by decide) (by decide)
  cases v with
  | null => exact ⟨_, _, rfl, by decide⟩
  | bool b => cases b <;> exact ⟨_, _, rfl, by decide⟩
  | number n => exact hnumber n
  | text t => exact ⟨_, _, rfl, by decide⟩
  | array items => cases items <;> exact ⟨_, _, by rw [writeAt]; rfl, by decide⟩
  | object fields =>
    rcases fields with _ | ⟨⟨k, v⟩, fs⟩ <;> exact ⟨_, _, by rw [writeAt]; rfl, by decide⟩

/-! ### Reading values -/

/-- What is not a container is a scalar. -/
theorem readValue_scalar {s : Symbol} (ha : s ≠ .char '[') (ho : s ≠ .char '\x7b') (t : Text) (fuel : Nat) :
    readValue (fuel + 1) (s :: t) = readScalar (s :: t) := by
  rw [readValue]
  · exact fun _ h => ha (List.cons.inj h).1
  · exact fun _ h => ho (List.cons.inj h).1

theorem readValue_items {s : Symbol} {more t : Text} (h : skipBlanks more = s :: t) (hs : s ≠ .char ']') (fuel : Nat) :
    readValue (fuel + 1) (.char '[' :: more) = readItems fuel [] (s :: t) := by
  rw [readValue, h]
  split
  · rename_i heq
    exact absurd (List.cons.inj heq).1 hs
  · rfl

theorem readValue_fields {s : Symbol} {more t : Text} (h : skipBlanks more = s :: t) (hs : s ≠ .char '\x7d')
    (fuel : Nat) : readValue (fuel + 1) (.char '\x7b' :: more) = readFields fuel [] (s :: t) := by
  rw [readValue, h]
  split
  · rename_i heq
    exact absurd (List.cons.inj heq).1 hs
  · rfl

/-- What comes after an item of an array: the next item or the end. -/
theorem readItems_of_value {fuel : Nat} {read : List Value} {t rest : Text} {v : Value}
    (h : readValue fuel t = .ok (v, rest)) :
    readItems (fuel + 1) read t =
      match skipBlanks rest with
      | .char ']' :: rest => .ok (.array (v :: read).reverse, rest)
      | .char ',' :: rest => readItems fuel (v :: read) (skipBlanks rest)
      | rest => .error ⟨.comma, rest⟩ := by
  rw [readItems, h]
  rfl

/-- What comes after a field of an object: the next field or the end. -/
theorem readFields_of_value {style : Style} (hs : style.Legible) {fuel : Nat} {read : Fields} {name t rest : Text}
    {v : Value} (h : readValue fuel t = .ok (v, rest)) (ht : skipBlanks t = t) :
    readFields (fuel + 1) read (writeKey (.name name) ++ (style.colon ++ t)) =
      match skipBlanks rest with
      | .char '\x7d' :: rest => .ok (.object (read.set (.name name) v), rest)
      | .char ',' :: rest => readFields fuel (read.set (.name name) v) (skipBlanks rest)
      | rest => .error ⟨.comma, rest⟩ := by
  obtain ⟨n, hcolon⟩ := hs.colon
  have hb := isBlank_of_mem_replicate n
  generalize List.replicate n (Symbol.char ' ') = b at *
  have hstring := readString_writeText name (style.colon ++ t)
  have hafter : skipBlanks (style.colon ++ t) = .char ':' :: (b ++ t) := by
    rw [hcolon]
    exact skipBlanks_cons rfl _
  rw [writeKey] at *
  have htext : writeText name ++ (style.colon ++ t) =
      .char '"' :: (name.flatMap escapeSymbol ++ [.char '"'] ++ (style.colon ++ t)) := rfl
  rw [htext] at hstring ⊢
  rw [readFields]
  simp only [hstring, hafter, skipBlanks_append hb, ht, h, bind, Except.bind]
  rfl

variable {style : Style}

theorem endsNumber_items (hs : style.Legible) (depth : Nat) (vs : List Value) {tail : Text} (ht : EndsNumber tail) :
    EndsNumber (writeItems style depth vs ++ tail) := by
  cases vs with
  | nil => exact ht
  | cons v vs =>
    obtain ⟨n, h⟩ := hs.separator
    rw [writeItems, h]
    exact EndsNumber.cons (.inl rfl) _

theorem endsNumber_fields (hs : style.Legible) (depth : Nat) (fs : List (Key × Value)) {tail : Text}
    (ht : EndsNumber tail) : EndsNumber (writeFields style depth fs ++ tail) := by
  rcases fs with _ | ⟨⟨k, v⟩, fs⟩
  · exact ht
  · obtain ⟨n, h⟩ := hs.separator
    rw [writeFields, h]
    exact EndsNumber.cons (.inl rfl) _

theorem skipBlanks_writeAt (depth : Nat) (v : Value) (t : Text) :
    skipBlanks (writeAt style depth v ++ t) = writeAt style depth v ++ t := by
  obtain ⟨s, u, h, hs, -⟩ := exists_cons_writeAt style depth v
  rw [h]
  exact skipBlanks_cons hs _

theorem haveJson_cons {k : Key} {v : Value} {fs : List (Key × Value)} (h : Value.haveJson ((k, v) :: fs) = true) :
    (∃ name, k = .name name) ∧ v.isJson = true ∧ Value.haveJson fs = true ∧ k ∉ fs.map Prod.fst := by
  simp only [Value.haveJson, Bool.and_eq_true, bne_iff_ne, ne_eq, Bool.not_eq_true', List.any_eq_false,
    beq_iff_eq] at h
  obtain ⟨⟨⟨hk, hv⟩, hfs⟩, hn⟩ := h
  refine ⟨?_, hv, hfs, fun hm => ?_⟩
  · cases k with
    | name name => exact ⟨name, rfl⟩
    | surplus => exact absurd rfl hk
  · obtain ⟨f, hf, hfk⟩ := List.mem_map.1 hm
    exact hn f hf hfk

mutual

/-- **A value is read again**, if there is fuel for its text and nothing follows that goes on with a
number. -/
theorem readValue_writeAt (hs : style.Legible) (depth : Nat) (v : Value) (hj : v.isJson = true) (fuel : Nat)
    (hf : 2 * (writeAt style depth v).length ≤ fuel) {rest : Text} (hr : EndsNumber rest) :
    readValue fuel (writeAt style depth v ++ rest) = .ok (v, rest) := by
  have hpos : 0 < (writeAt style depth v).length := by
    obtain ⟨s, t, h, -⟩ := exists_cons_writeAt style depth v
    rw [h]
    exact Nat.succ_pos _
  obtain ⟨fuel, rfl⟩ : ∃ n, fuel = n + 1 := ⟨fuel - 1, by omega⟩
  cases v with
  | null => rfl
  | bool b => cases b <;> rfl
  | number n =>
    obtain ⟨c, t, h, hc⟩ := exists_cons_writeNumber n
    have hread := readScalar_writeNumber n hr
    rw [writeAt]
    rw [h] at hread ⊢
    refine (readValue_scalar ?_ ?_ _ _).trans hread
    · rintro hc'
      rw [Symbol.char.inj hc'] at hc
      exact absurd hc (by decide)
    · rintro hc'
      rw [Symbol.char.inj hc'] at hc
      exact absurd hc (by decide)
  | text t =>
    rw [writeAt]
    refine (readValue_scalar (by decide) (by decide) _ _).trans ?_
    show (readString (writeText t ++ rest) >>= fun r => pure (Value.text r.1, r.2)) = _
    rw [readString_writeText]
    rfl
  | array items =>
    cases items with
    | nil => rfl
    | cons v vs =>
      rw [Value.isJson, Value.areJson, Bool.and_eq_true] at hj
      have hc : skipBlanks (style.lineBreak depth ++ .char ']' :: rest) = .char ']' :: rest := by
        rw [skipBlanks_append (isBlank_of_mem_lineBreak style depth)]
        exact skipBlanks_cons rfl _
      have he : EndsNumber (style.lineBreak depth ++ .char ']' :: rest) :=
        (EndsNumber.cons (.inr (.inl rfl)) _).append (isBlank_of_mem_lineBreak style depth)
      have htext : writeAt style depth (.array (v :: vs)) ++ rest =
          .char '[' :: (style.lineBreak (depth + 1) ++ (writeAt style (depth + 1) v ++
            (writeItems style (depth + 1) vs ++ (style.lineBreak depth ++ .char ']' :: rest)))) := by
        rw [writeAt]
        simp only [List.append_assoc]
        rfl
      have hlen := congrArg List.length htext
      simp only [List.length_append, List.length_cons] at hlen
      obtain ⟨fuel, rfl⟩ : ∃ n, fuel = n + 1 := ⟨fuel - 1, by omega⟩
      have hv := readValue_writeAt hs (depth + 1) v hj.1 fuel (by omega)
        (endsNumber_items hs (depth + 1) vs he)
      have hvs := readItems_writeItems hs (depth + 1) vs hj.2 fuel (by omega) [] hc he hv
      obtain ⟨s, u, hsu, -, hne, -⟩ := exists_cons_writeAt style (depth + 1) v
      have hskip : skipBlanks (style.lineBreak (depth + 1) ++ (writeAt style (depth + 1) v ++
          (writeItems style (depth + 1) vs ++ (style.lineBreak depth ++ .char ']' :: rest)))) =
          s :: (u ++ (writeItems style (depth + 1) vs ++ (style.lineBreak depth ++ .char ']' :: rest))) := by
        rw [skipBlanks_append (isBlank_of_mem_lineBreak style (depth + 1)), skipBlanks_writeAt, hsu]
        rfl
      rw [htext, readValue_items hskip hne]
      rw [hsu] at hvs
      exact hvs
  | object fields =>
    rcases fields with _ | ⟨⟨k, v⟩, fs⟩
    · rfl
    · obtain ⟨⟨name, rfl⟩, hjv, hjfs, hk⟩ := haveJson_cons hj
      have hc : skipBlanks (style.lineBreak depth ++ .char '\x7d' :: rest) = .char '\x7d' :: rest := by
        rw [skipBlanks_append (isBlank_of_mem_lineBreak style depth)]
        exact skipBlanks_cons rfl _
      have he : EndsNumber (style.lineBreak depth ++ .char '\x7d' :: rest) :=
        (EndsNumber.cons (.inr (.inr rfl)) _).append (isBlank_of_mem_lineBreak style depth)
      have htext : writeAt style depth (.object ((.name name, v) :: fs)) ++ rest =
          .char '\x7b' :: (style.lineBreak (depth + 1) ++ (writeKey (.name name) ++ (style.colon ++
            (writeAt style (depth + 1) v ++ (writeFields style (depth + 1) fs ++
              (style.lineBreak depth ++ .char '\x7d' :: rest)))))) := by
        rw [writeAt]
        simp only [List.append_assoc]
        rfl
      have hlen := congrArg List.length htext
      simp only [List.length_append, List.length_cons] at hlen
      obtain ⟨fuel, rfl⟩ : ∃ n, fuel = n + 1 := ⟨fuel - 1, by omega⟩
      have hv := readValue_writeAt hs (depth + 1) v hjv fuel (by omega)
        (endsNumber_fields hs (depth + 1) fs he)
      have hfs := readFields_writeFields hs (depth + 1) fs hjfs fuel (by omega) [] hk
        (fun _ _ h => by cases h) hc he hv
      rw [htext]
      refine (readValue_fields ?_ (by decide) fuel.succ).trans hfs
      rw [skipBlanks_append (isBlank_of_mem_lineBreak style (depth + 1))]
      exact skipBlanks_cons rfl _

/-- The items of an array after one that was read. -/
theorem readItems_writeItems (hs : style.Legible) (depth : Nat) (vs : List Value) (hj : Value.areJson vs = true)
    (fuel : Nat) (hf : 2 * (writeItems style depth vs).length ≤ fuel) (read : List Value) {v : Value} {t closing rest : Text}
    (hc : skipBlanks closing = .char ']' :: rest) (he : EndsNumber closing)
    (hv : readValue fuel t = .ok (v, writeItems style depth vs ++ closing)) :
    readItems (fuel + 1) read t = .ok (.array (read.reverse ++ v :: vs), rest) := by
  rw [readItems_of_value hv]
  cases vs with
  | nil =>
    rw [writeItems, List.nil_append, hc]
    simp only [List.reverse_cons]
  | cons w ws =>
    rw [Value.areJson, Bool.and_eq_true] at hj
    obtain ⟨n, hsep⟩ := hs.separator
    have hb := isBlank_of_mem_replicate n
    generalize List.replicate n (Symbol.char ' ') = b at *
    have hlb := isBlank_of_mem_lineBreak style depth
    have htext : writeItems style depth (w :: ws) ++ closing =
        .char ',' :: (b ++ (style.lineBreak depth ++ (writeAt style depth w ++ (writeItems style depth ws ++ closing)))) := by
      rw [writeItems, hsep]
      simp only [List.cons_append, List.append_assoc]
    have hlen := congrArg List.length htext
    simp only [List.length_append, List.length_cons] at hlen
    obtain ⟨fuel, rfl⟩ : ∃ n, fuel = n + 1 := ⟨fuel - 1, by omega⟩
    rw [htext, skipBlanks_cons rfl]
    simp only
    rw [skipBlanks_append hb, skipBlanks_append hlb, skipBlanks_writeAt]
    have hw := readValue_writeAt hs depth w hj.1 fuel (by omega) (endsNumber_items hs depth ws he)
    rw [readItems_writeItems hs depth ws hj.2 fuel (by omega) (v :: read) hc he hw, List.reverse_cons, List.append_assoc,
      List.singleton_append]

/-- The fields of an object from the one with a given key on. -/
theorem readFields_writeFields (hs : style.Legible) (depth : Nat) (fs : List (Key × Value))
    (hj : Value.haveJson fs = true) (fuel : Nat) (hf : 2 * (writeFields style depth fs).length ≤ fuel) (read : Fields)
    {name : Text} {v : Value} {closing rest : Text} (hk : .name name ∉ fs.map Prod.fst)
    (hread : ∀ k ∈ .name name :: fs.map Prod.fst, k ∉ read.keys) (hc : skipBlanks closing = .char '\x7d' :: rest) (he : EndsNumber closing)
    (hv : readValue fuel (writeAt style depth v ++ (writeFields style depth fs ++ closing)) =
      .ok (v, writeFields style depth fs ++ closing)) :
    readFields (fuel + 1) read (writeKey (.name name) ++ (style.colon ++
        (writeAt style depth v ++ (writeFields style depth fs ++ closing)))) =
      .ok (.object (read ++ (.name name, v) :: fs), rest) := by
  rw [readFields_of_value hs hv (skipBlanks_writeAt depth v _), Table.set_of_notMem (hread _ List.mem_cons_self)]
  rcases fs with _ | ⟨⟨k, w⟩, fs⟩
  · rw [writeFields, List.nil_append, hc]
    rfl
  · obtain ⟨⟨next, rfl⟩, hjw, hjfs, hnext⟩ := haveJson_cons hj
    obtain ⟨n, hsep⟩ := hs.separator
    have hb := isBlank_of_mem_replicate n
    generalize List.replicate n (Symbol.char ' ') = b at *
    have htext : writeFields style depth ((.name next, w) :: fs) ++ closing =
        .char ',' :: (b ++ (style.lineBreak depth ++ (writeKey (.name next) ++ (style.colon ++
          (writeAt style depth w ++ (writeFields style depth fs ++ closing)))))) := by
      rw [writeFields, hsep]
      simp only [List.cons_append, List.append_assoc]
    have hlen := congrArg List.length htext
    simp only [List.length_append, List.length_cons] at hlen
    obtain ⟨fuel, rfl⟩ : ∃ n, fuel = n + 1 := ⟨fuel - 1, by omega⟩
    have hw := readValue_writeAt hs depth w hjw fuel (by omega) (endsNumber_fields hs depth fs he)
    have hread' : ∀ k ∈ .name next :: fs.map Prod.fst, k ∉ Table.keys (read ++ [(.name name, v)]) := by
      intro k hm hk'
      rw [Table.keys, List.map_append, List.mem_append] at hk'
      rcases hk' with hk' | hk'
      · exact hread k (List.mem_cons_of_mem _ hm) hk'
      · rw [List.map_singleton, List.mem_singleton] at hk'
        rw [hk'] at hm
        exact hk hm
    rw [htext, skipBlanks_cons rfl]
    simp only
    rw [skipBlanks_append hb, skipBlanks_append (isBlank_of_mem_lineBreak style depth)]
    have hquote : ∀ t, skipBlanks (writeKey (.name next) ++ t) = writeKey (.name next) ++ t := fun t => skipBlanks_cons rfl _
    rw [hquote, readFields_writeFields hs depth fs hjfs fuel (by omega) _ hnext hread' hc he hw, List.append_assoc,
      List.singleton_append]

end

/-! ### Whole texts -/

/-- **What was written is read again.** -/
theorem read_write (hs : style.Legible) {v : Value} (hj : v.isJson = true) : read (write style v) = .ok v := by
  obtain ⟨s, t, h, hb, -, hbom⟩ := exists_cons_writeAt style 0 v
  have hend : EndsNumber [] := fun s hs => by cases hs
  have hv := readValue_writeAt hs 0 v hj (2 * (writeAt style 0 v).length + 2) (by omega) hend
  rw [List.append_nil] at hv
  rw [write, read]
  · rw [h] at hv ⊢
    rw [skipBlanks_cons hb, hv]
    rfl
  · rintro r hr
    rw [h] at hr
    exact hbom (List.cons.inj hr).1

end Json

end EventPipeline
