/-!
# Tables

A table keeps entries under keys, in the order in which the keys were first set. Setting a key
again changes its entry in place.
-/

namespace EventPipeline

/-- Entries under keys, in order. -/
abbrev Table (κ α : Type) := List (κ × α)

namespace Table

variable {κ α : Type} [DecidableEq κ]

/-- The entry under a key. -/
def find? : Table κ α → κ → Option α
  | [], _ => none
  | (k, a) :: rest, key => if k = key then some a else find? rest key

/-- Some entry has the key. -/
def contains (t : Table κ α) (key : κ) : Bool :=
  (t.find? key).isSome

/-- The table with an entry under a key: in its place if the key was there, at the end if not. -/
def set : Table κ α → κ → α → Table κ α
  | [], key, a => [(key, a)]
  | (k, b) :: rest, key, a => if k = key then (k, a) :: rest else (k, b) :: set rest key a

/-- The table with an entry under a key, unless it has one already. -/
def setDefault (t : Table κ α) (key : κ) (a : α) : Table κ α :=
  if t.contains key then t else t.set key a

/-- The table without a key. -/
def erase (t : Table κ α) (key : κ) : Table κ α :=
  t.filter fun entry => entry.1 ≠ key

/-- The table with all entries of `more` set, in order. -/
def setAll (t more : Table κ α) : Table κ α :=
  more.foldl (fun acc entry => acc.set entry.1 entry.2) t

/-- The keys, in order. -/
def keys (t : Table κ α) : List κ :=
  t.map (·.1)

theorem find?_set (t : Table κ α) (key other : κ) (a : α) :
    (t.set key a).find? other = if key = other then some a else t.find? other := by
  induction t with
  | nil => simp [set, find?]
  | cons entry rest ih =>
    obtain ⟨k, b⟩ := entry
    by_cases hk : k = key
    · subst hk
      by_cases ho : k = other <;> simp [set, find?, ho]
    · by_cases ho : k = other
      · subst ho
        have : ¬ key = k := fun h => hk h.symm
        simp [set, find?, hk, this]
      · simp [set, find?, hk, ho, ih]

theorem find?_eq_none_iff {t : Table κ α} {key : κ} : t.find? key = none ↔ key ∉ t.keys := by
  induction t with
  | nil => simp [find?, keys]
  | cons entry rest ih =>
    obtain ⟨k, b⟩ := entry
    by_cases hk : k = key
    · simp [find?, keys, hk]
    · have hk' : ¬ key = k := fun h => hk h.symm
      simpa [find?, keys, hk, hk'] using ih

theorem find?_of_mem {t : Table κ α} (hd : t.keys.Nodup) {entry : κ × α} (h : entry ∈ t) :
    t.find? entry.1 = some entry.2 := by
  induction t with
  | nil => cases h
  | cons other rest ih =>
    obtain ⟨k, b⟩ := other
    obtain ⟨hk, hd⟩ := List.nodup_cons.1 hd
    rcases List.mem_cons.1 h with rfl | h
    · simp [find?]
    · have hne : k ≠ entry.1 := fun he => hk (he ▸ List.mem_map.2 ⟨entry, h, rfl⟩)
      rw [find?, if_neg hne]
      exact ih hd h

theorem mem_of_find? {t : Table κ α} {key : κ} {a : α} (h : t.find? key = some a) : (key, a) ∈ t := by
  induction t with
  | nil => cases h
  | cons entry rest ih =>
    obtain ⟨k, b⟩ := entry
    unfold find? at h
    split at h
    · rename_i hk
      cases h
      exact hk ▸ List.mem_cons_self
    · exact List.mem_cons_of_mem _ (ih h)

theorem find?_erase (t : Table κ α) {key other : κ} (h : key ≠ other) :
    (t.erase key).find? other = t.find? other := by
  induction t with
  | nil => rfl
  | cons entry rest ih =>
    obtain ⟨k, b⟩ := entry
    unfold erase at ih ⊢
    rw [List.filter_cons]
    by_cases hk : k = key
    · subst hk
      simpa [find?, h] using ih
    · by_cases ho : k = other
      · subst ho
        simp [find?, hk]
      · simpa [find?, hk, ho] using ih

theorem keys_set (t : Table κ α) (key : κ) (a : α) :
    (t.set key a).keys = if key ∈ t.keys then t.keys else t.keys ++ [key] := by
  induction t with
  | nil => simp [set, keys]
  | cons entry rest ih =>
    obtain ⟨k, b⟩ := entry
    by_cases hk : k = key
    · simp [set, keys, hk]
    · have hk' : ¬ key = k := fun h => hk h.symm
      simp only [keys] at ih
      by_cases hm : key ∈ rest.map (·.1) <;> simp_all [set, keys]

end Table

end EventPipeline
