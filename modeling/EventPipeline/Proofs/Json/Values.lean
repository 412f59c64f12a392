import EventPipeline.Proofs.Fallible
import EventPipeline.Proofs.Json.RoundTrip

/-!
# What JSON text can denote

Every value that is read from JSON text can be told from its JSON text again (`isJson_of_read`): the names of an
object are texts, and none of them occurs twice, however often the text has it. So a value that cannot be told from its
text is never read back as it was.
-/

namespace EventPipeline

theorem Table.nodup_keys_set {κ α : Type} [DecidableEq κ] {t : Table κ α} (h : t.keys.Nodup) (key : κ) (a : α) :
    (t.set key a).keys.Nodup := by
  rw [keys_set]
  split_ifs with hmem
  · exact h
  · refine List.nodup_append.2 ⟨h, List.nodup_singleton key, fun k hk k' hk' => ?_⟩
    rw [List.mem_singleton.1 hk']
    rintro rfl
    exact hmem hk

namespace Value

/-- A field may be set anew. -/
theorem haveJson_set {fs : Fields} (h : haveJson fs = true) (name : Text) {v : Value} (hv : v.isJson = true) :
    haveJson (Table.set fs (.name name) v) = true := by
  obtain ⟨hnodup, hfields⟩ := haveJson_iff.1 h
  have hnodup' : (Table.set fs (.name name) v).keys.Nodup := Table.nodup_keys_set hnodup _ v
  refine haveJson_iff.2 ⟨hnodup', fun f hf => ?_⟩
  have hfound := Table.find?_of_mem hnodup' hf
  rw [Table.find?_set] at hfound
  by_cases hk : Key.name name = f.1
  · rw [if_pos hk] at hfound
    rw [← hk, ← Option.some.inj hfound]
    exact ⟨by simp, hv⟩
  · rw [if_neg hk] at hfound
    exact hfields _ (Table.mem_of_find? hfound)

end Value

namespace Json

theorem isJson_of_readScalar {t rest : Text} {v : Value} (h : readScalar t = .ok (v, rest)) : v.isJson = true := by
  unfold readScalar at h
  split at h
  · obtain ⟨⟨s, after⟩, -, h⟩ := ok_of_bind_ok h
    cases h
    rfl
  · split at h
    · rename_i result hword
      cases h
      obtain ⟨⟨word, w⟩, hw, hfound⟩ := List.exists_of_findSome?_eq_some hword
      obtain ⟨after, -, heq⟩ := Option.map_eq_some_iff.1 hfound
      obtain rfl := (Prod.mk.inj heq).1
      simp only [words, List.mem_cons, Prod.mk.injEq, List.not_mem_nil, or_false] at hw
      rcases hw with ⟨-, rfl⟩ | ⟨-, rfl⟩ | ⟨-, rfl⟩ | ⟨-, rfl⟩ | ⟨-, rfl⟩ | ⟨-, rfl⟩ <;> rfl
    · split at h
      · cases h
        rfl
      · cases h

/-- What is read with some fuel can be told from its text: a value, the items of an array after others, and the fields
of an object after others. -/
theorem isJson_of_readers (fuel : Nat) :
    (∀ {t v rest}, readValue fuel t = .ok (v, rest) → v.isJson = true) ∧
      (∀ {read t v rest}, Value.areJson read = true → readItems fuel read t = .ok (v, rest) → v.isJson = true) ∧
      ∀ {read t v rest}, Value.haveJson read = true → readFields fuel read t = .ok (v, rest) → v.isJson = true := by
  induction fuel with
  | zero => simp [readValue, readItems, readFields]
  | succ fuel ih =>
    obtain ⟨ihvalue, ihitems, ihfields⟩ := ih
    refine ⟨fun {t v rest} h => ?_, fun {read t v rest} hread h => ?_, fun {read t v rest} hread h => ?_⟩
    · rw [readValue.eq_def] at h
      dsimp only at h
      split at h
      · split at h
        · cases h
          rfl
        · exact ihitems rfl h
      · split at h
        · cases h
          rfl
        · exact ihfields rfl h
      · exact isJson_of_readScalar h
    · rw [readItems] at h
      obtain ⟨⟨w, after⟩, hvalue, h⟩ := ok_of_bind_ok h
      have hread : Value.areJson (w :: read) = true := by
        rw [Value.areJson, ihvalue hvalue, hread, Bool.and_self]
      dsimp only at h
      split at h
      · cases h
        rw [Value.isJson, Value.areJson_iff]
        exact fun v hv => Value.areJson_iff.1 hread v (List.mem_reverse.1 hv)
      · exact ihitems hread h
      · cases h
    · rw [readFields.eq_def] at h
      dsimp only at h
      split at h
      · obtain ⟨⟨key, after⟩, -, h⟩ := ok_of_bind_ok h
        dsimp only at h
        split at h
        · obtain ⟨⟨w, after⟩, hvalue, h⟩ := ok_of_bind_ok h
          have hread := Value.haveJson_set hread key (ihvalue hvalue)
          dsimp only at h
          split at h
          · cases h
            exact hread
          · exact ihfields hread h
          · cases h
        · cases h
      · cases h

/-- **What a JSON text denotes can be told from its JSON text again.** -/
theorem isJson_of_read {t : Text} {v : Value} (h : read t = .ok v) : v.isJson = true := by
  unfold read at h
  split at h
  · cases h
  · split at h
    · cases h
    · rename_i w rest hread
      split at h
      · cases h
        exact (isJson_of_readers _).1 hread
      · cases h

end Json

end EventPipeline
