import EventPipeline.Json.Reader
import EventPipeline.Proofs.Fallible
import Mathlib.Tactic.Common

/-!
# A JSON text is longer than the text it denotes

A string literal takes its two quotes and at least one symbol of the input for each symbol of its content,
so no text is its own JSON (`length_lt_of_read`). Arrays and objects denote no text, whatever stands in them.
-/

namespace EventPipeline

namespace Json

/-! ### String literals -/

theorem length_readHex {t rest : Text} {n : Nat} (h : readHex t = .ok (n, rest)) : rest.length < t.length := by
  unfold readHex at h
  split at h
  · split at h
    · split_ifs at h
      cases h
      simp only [List.length_cons]
      omega
    · cases h
  · cases h

/-- An escape takes something from the text. -/
theorem length_readEscape {backslash t rest : Text} {s : Symbol} (h : readEscape backslash t = .ok (s, rest)) :
    rest.length < t.length := by
  unfold readEscape at h
  split at h
  · obtain ⟨⟨high, after⟩, hhex, h⟩ := ok_of_bind_ok h
    have hlen := length_readHex hhex
    dsimp only at h
    split_ifs at h
    · split at h
      · rename_i more
        split_ifs at h
        · obtain ⟨⟨low, last⟩, hlow, h⟩ := ok_of_bind_ok h
          have hlast := length_readHex hlow
          dsimp only at h
          simp only [List.length_cons] at hlen hlast ⊢
          split_ifs at h
          · rw [← (Prod.mk.inj (Except.ok.inj h)).2]
            omega
          · rw [← (Prod.mk.inj (Except.ok.inj h)).2]
            exact hlen
        · cases h
          exact hlen
      · cases h
        exact hlen
    · cases h
      exact hlen
  · split at h
    · cases h
      exact Nat.lt_succ_self _
    · cases h
  · cases h

theorem length_readStringRest {opening : Text} {fuel : Nat} {read t u rest : Text}
    (h : readStringRest opening fuel read t = .ok (u, rest)) : u.length + rest.length < read.length + t.length := by
  induction fuel generalizing read t with
  | zero => cases h
  | succ fuel ih =>
    rw [readStringRest.eq_def] at h
    dsimp only at h
    split at h
    · cases h
    · cases h
      simp
    · split_ifs at h
      obtain ⟨⟨s, after⟩, hescape, h⟩ := ok_of_bind_ok h
      have hlen := length_readEscape hescape
      have hrest := ih h
      simp only [List.length_cons] at hrest ⊢
      omega
    · split_ifs at h
      have hrest := ih h
      simp only [List.length_cons] at hrest ⊢
      omega

theorem length_readString {t u rest : Text} (h : readString t = .ok (u, rest)) : u.length < t.length := by
  have hlen := length_readStringRest h
  simp only [List.length_nil, List.length_drop] at hlen
  omega

/-! ### Values -/

/-- The literals that are words are no texts. -/
theorem readWord?_ne_text {t rest : Text} {v : Value} (h : readWord? t = some (v, rest)) (u : Text) : v ≠ .text u := by
  obtain ⟨⟨word, w⟩, hw, hfound⟩ := List.exists_of_findSome?_eq_some h
  obtain ⟨after, -, heq⟩ := Option.map_eq_some_iff.1 hfound
  obtain rfl := (Prod.mk.inj heq).1
  intro hu
  subst hu
  simp [words] at hw

theorem length_readScalar {t u rest : Text} (h : readScalar t = .ok (.text u, rest)) : u.length < t.length := by
  unfold readScalar at h
  split at h
  · obtain ⟨⟨s, after⟩, hstring, h⟩ := ok_of_bind_ok h
    cases h
    exact length_readString hstring
  · split at h
    · rename_i hword
      cases h
      exact absurd rfl (readWord?_ne_text hword u)
    · split at h <;> cases h

/-- What is read from the items of an array is an array. -/
theorem isArray_readItems {fuel : Nat} {read : List Value} {t rest : Text} {v : Value}
    (h : readItems fuel read t = .ok (v, rest)) : ∃ items, v = .array items := by
  induction fuel generalizing read t with
  | zero => cases h
  | succ fuel ih =>
    rw [readItems] at h
    obtain ⟨⟨w, after⟩, -, h⟩ := ok_of_bind_ok h
    dsimp only at h
    split at h
    · cases h
      exact ⟨_, rfl⟩
    · exact ih h
    · cases h

/-- What is read from the fields of an object is an object. -/
theorem isObject_readFields {fuel : Nat} {read : Fields} {t rest : Text} {v : Value}
    (h : readFields fuel read t = .ok (v, rest)) : ∃ fields, v = .object fields := by
  induction fuel generalizing read t with
  | zero => cases h
  | succ fuel ih =>
    rw [readFields.eq_def] at h
    dsimp only at h
    split at h
    · obtain ⟨⟨key, after⟩, -, h⟩ := ok_of_bind_ok h
      dsimp only at h
      split at h
      · obtain ⟨⟨w, after⟩, -, h⟩ := ok_of_bind_ok h
        dsimp only at h
        split at h
        · cases h
          exact ⟨_, rfl⟩
        · exact ih h
        · cases h
      · cases h
    · cases h

theorem length_readValue {fuel : Nat} {t u rest : Text} (h : readValue fuel t = .ok (.text u, rest)) :
    u.length < t.length := by
  cases fuel with
  | zero => cases h
  | succ fuel =>
    rw [readValue.eq_def] at h
    dsimp only at h
    split at h
    · split at h
      · cases h
      · obtain ⟨items, hitems⟩ := isArray_readItems h
        cases hitems
    · split at h
      · cases h
      · obtain ⟨fields, hfields⟩ := isObject_readFields h
        cases hfields
    · exact length_readScalar h

/-- **A JSON text is longer than the text that it denotes.** -/
theorem length_lt_of_read {t u : Text} (h : read t = .ok (.text u)) : u.length < t.length := by
  unfold read at h
  split at h
  · cases h
  · split at h
    · cases h
    · rename_i v rest hread
      split at h
      · cases h
        exact Nat.lt_of_lt_of_le (length_readValue hread) (List.dropWhile_suffix _).length_le
      · cases h

end Json

end EventPipeline
