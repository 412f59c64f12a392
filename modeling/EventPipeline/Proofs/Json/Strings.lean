import EventPipeline.Json.Printer
import EventPipeline.Json.Reader
import Mathlib.Tactic.IntervalCases
import Mathlib.Tactic.SplitIfs

/-!
# Strings in JSON text

A text that was written as a JSON string is read again, whatever follows it (`readString_writeText`).
Each symbol is read back from its own escape (`readStringRest_escapeSymbol`); a control character needs
something to follow its escape, which the closing quote always provides.
-/

namespace EventPipeline

namespace Json

/-- A control character is read back from its number. -/
theorem readStringRest_control (opening read more : Text) (s : Symbol) (fuel : Nat) {n : Nat} (hn : n < 0x20) :
    readStringRest opening (fuel + 1) read (("\\u" : Text) ++ Text.hex 4 n ++ s :: more) =
      readStringRest opening fuel (.char (Char.ofNat n) :: read) (s :: more) := by
  interval_cases n <;> rfl

/-- Most symbols stand for themselves. -/
theorem readStringRest_plain (opening read more : Text) (fuel : Nat) {s : Symbol} (hq : s ≠ .char '"')
    (hb : s ≠ .char '\\') (hs : 0x20 ≤ s.code) :
    readStringRest opening (fuel + 1) read (s :: more) = readStringRest opening fuel (s :: read) more := by
  rw [readStringRest]
  · rw [if_neg (by omega)]
  · exact hq
  · exact hb

/-- **A symbol is read back from its escape.** -/
theorem readStringRest_escapeSymbol (opening read more : Text) (s next : Symbol) (fuel : Nat) :
    readStringRest opening (fuel + 1) read (escapeSymbol s ++ next :: more) =
      readStringRest opening fuel (s :: read) (next :: more) := by
  unfold escapeSymbol
  split
  iterate 7 rfl
  · rename_i c hq hb _ _ _ _ _
    split_ifs with hc
    · rw [readStringRest_control _ _ _ _ _ hc, Char.ofNat_toNat]
    · exact readStringRest_plain _ _ _ _ (fun h => hq (Symbol.char.inj h)) (fun h => hb (Symbol.char.inj h))
        (Nat.le_of_not_lt hc)
  · rename_i n
    refine readStringRest_plain _ _ _ _ (by simp) (by simp) ?_
    rw [Symbol.code]
    omega

theorem readStringRest_flatMap (opening read t rest : Text) {fuel : Nat} (h : t.length < fuel) :
    readStringRest opening fuel read (t.flatMap escapeSymbol ++ .char '"' :: rest) = .ok (read.reverse ++ t, rest) := by
  induction t generalizing read fuel with
  | nil =>
    obtain ⟨fuel, rfl⟩ := Nat.exists_eq_add_one_of_ne_zero (Nat.ne_zero_of_lt h)
    rw [List.append_nil]
    rfl
  | cons s t ih =>
    obtain ⟨fuel, rfl⟩ := Nat.exists_eq_add_one_of_ne_zero (Nat.ne_zero_of_lt h)
    obtain ⟨next, more, hmore⟩ := List.exists_cons_of_ne_nil
      (l := t.flatMap escapeSymbol ++ .char '"' :: rest) (by simp)
    rw [List.flatMap_cons, List.append_assoc, hmore, readStringRest_escapeSymbol, ← hmore,
      ih _ (Nat.lt_of_succ_lt_succ h), List.reverse_cons, List.append_assoc, List.singleton_append]

theorem length_le_flatMap_escapeSymbol (t : Text) : t.length ≤ (t.flatMap escapeSymbol).length := by
  induction t with
  | nil => exact Nat.zero_le _
  | cons s t ih =>
    have hs : 0 < (escapeSymbol s).length := by
      unfold escapeSymbol
      split
      iterate 7 decide
      · split_ifs
        · exact Nat.succ_pos _
        · exact Nat.one_pos
      · exact Nat.one_pos
    rw [List.flatMap_cons, List.length_append, List.length_cons]
    omega

/-- **A text is read back from its JSON string.** -/
theorem readString_writeText (t rest : Text) : readString (writeText t ++ rest) = .ok (t, rest) := by
  have hlen := length_le_flatMap_escapeSymbol t
  have htext : writeText t ++ rest = .char '"' :: (t.flatMap escapeSymbol ++ .char '"' :: rest) := by
    simp [writeText]
  rw [htext, readString]
  refine (readStringRest_flatMap _ [] t rest ?_).trans (by rw [List.reverse_nil, List.nil_append])
  rw [List.length_cons, List.length_append]
  omega

end Json

end EventPipeline
