import EventPipeline.Proofs.Json.Escapes

/-!
# JSON text in ASCII

A JSON text without lone surrogates denotes the same value when it is written in ASCII (`read_ascii`). Outside of
strings there is nothing to escape: numbers, words and the signs between values are read as before, and a symbol that
ends them does so as an escape, too. So a value whose texts have no lone surrogates is read again from what was written
of it in ASCII (`read_writeAscii`), which is made of printable ASCII characters only.
-/

namespace EventPipeline

namespace Json

/-! ### Scalars -/

open Binary64 (readSign readExponent readExponent_none)

theorem readWhole_ascii {t w rest : Text} (h : readWhole t = some (w, rest)) :
    readWhole (ascii t) = some (w, ascii rest) ∧ rest <:+ t := by
  unfold readWhole at h
  split at h
  · cases h
    exact ⟨rfl, List.suffix_cons _ _⟩
  · rename_i s tail hzero
    split_ifs at h with hdigit
    cases h
    obtain ⟨h₁, h₂⟩ := digits_ascii (s :: tail)
    refine ⟨?_, List.dropWhile_suffix _⟩
    rw [ascii_cons_narrow (code_of_isAsciiDigit hdigit)] at h₁ h₂ ⊢
    rw [readWhole, if_pos hdigit, h₁, h₂]
    exact hzero
  · cases h

theorem readFraction_ascii (t : Text) :
    readFraction (ascii t) = ((readFraction t).1, ascii (readFraction t).2) ∧ (readFraction t).2 <:+ t := by
  by_cases hpoint : ∃ r, t = .char '.' :: r
  · obtain ⟨r, rfl⟩ := hpoint
    obtain ⟨h₁, h₂⟩ := digits_ascii r
    rw [ascii_cons_narrow (by decide)]
    simp only [readFraction, h₁, h₂]
    split_ifs
    · exact ⟨rfl, List.suffix_refl _⟩
    · exact ⟨rfl, (List.dropWhile_suffix _).trans (List.suffix_cons _ _)⟩
  · have hnone : ∀ s, t.head? = some s → s ≠ .char '.' := by
      rintro s hs rfl
      exact hpoint ⟨_, List.eq_cons_of_mem_head? hs⟩
    have hnone' : ∀ s, (ascii t).head? = some s → s ≠ .char '.' := by
      rintro s hs rfl
      exact hnone _ (head?_of_ascii (by decide) hs) rfl
    rw [readFraction_none hnone, readFraction_none hnone']
    exact ⟨rfl, List.suffix_refl _⟩

theorem readSign_ascii (t : Text) :
    readSign (ascii t) = ((readSign t).1, ascii (readSign t).2) ∧ (readSign t).2 <:+ t := by
  by_cases hminus : ∃ r, t = .char '-' :: r
  · obtain ⟨r, rfl⟩ := hminus
    exact ⟨rfl, List.suffix_cons _ _⟩
  by_cases hplus : ∃ r, t = .char '+' :: r
  · obtain ⟨r, rfl⟩ := hplus
    exact ⟨rfl, List.suffix_cons _ _⟩
  have hnone : ∀ u : Text, (∀ r, u ≠ .char '-' :: r) → (∀ r, u ≠ .char '+' :: r) → readSign u = (false, u) := by
    intro u h₁ h₂
    rw [readSign]
    · exact h₁
    · exact h₂
  rw [hnone t (fun r hr => hminus ⟨r, hr⟩) fun r hr => hplus ⟨r, hr⟩, hnone (ascii t)]
  · exact ⟨rfl, List.suffix_refl _⟩
  · intro r hr
    obtain ⟨u, hu, -⟩ := ascii_eq_cons (by decide) hr
    exact hminus ⟨u, hu⟩
  · intro r hr
    obtain ⟨u, hu, -⟩ := ascii_eq_cons (by decide) hr
    exact hplus ⟨u, hu⟩

theorem readExponent_letter {c : Char} (hc : c = 'e' ∨ c = 'E') (rest : Text) :
    readExponent Symbol.isAsciiDigit (.char c :: rest) =
      if ((readSign rest).2.takeWhile Symbol.isAsciiDigit).isEmpty then (0, .char c :: rest)
      else (if (readSign rest).1 then -(digitsValue ((readSign rest).2.takeWhile Symbol.isAsciiDigit) : Int)
        else digitsValue ((readSign rest).2.takeWhile Symbol.isAsciiDigit),
        (readSign rest).2.dropWhile Symbol.isAsciiDigit) := by
  unfold readExponent
  exact if_pos hc

theorem readExponent_ascii (t : Text) :
    readExponent Symbol.isAsciiDigit (ascii t) =
        ((readExponent Symbol.isAsciiDigit t).1, ascii (readExponent Symbol.isAsciiDigit t).2) ∧
      (readExponent Symbol.isAsciiDigit t).2 <:+ t := by
  by_cases hletter : ∃ c r, t = .char c :: r ∧ (c = 'e' ∨ c = 'E')
  · obtain ⟨c, r, rfl, hc⟩ := hletter
    have hnarrow : (Symbol.char c).code < 0x7F := by rcases hc with rfl | rfl <;> decide
    obtain ⟨hsign, hsuffix⟩ := readSign_ascii r
    obtain ⟨h₁, h₂⟩ := digits_ascii (readSign r).2
    rw [ascii_cons_narrow hnarrow, readExponent_letter hc, readExponent_letter hc, hsign]
    simp only [h₁, h₂]
    split_ifs with hemp
    · exact ⟨by rw [ascii_cons_narrow hnarrow], List.suffix_refl _⟩
    all_goals exact ⟨rfl, ((List.dropWhile_suffix _).trans hsuffix).trans (List.suffix_cons _ _)⟩
  · have hnone : ∀ s, t.head? = some s → s ≠ .char 'e' ∧ s ≠ .char 'E' := by
      refine fun s hs => ⟨?_, ?_⟩
      · rintro rfl
        exact hletter ⟨_, _, List.eq_cons_of_mem_head? hs, .inl rfl⟩
      · rintro rfl
        exact hletter ⟨_, _, List.eq_cons_of_mem_head? hs, .inr rfl⟩
    have hnone' : ∀ s, (ascii t).head? = some s → s ≠ .char 'e' ∧ s ≠ .char 'E' := by
      refine fun s hs => ⟨?_, ?_⟩
      · rintro rfl
        exact (hnone _ (head?_of_ascii (by decide) hs)).1 rfl
      · rintro rfl
        exact (hnone _ (head?_of_ascii (by decide) hs)).2 rfl
    rw [readExponent_none hnone, readExponent_none hnone']
    exact ⟨rfl, List.suffix_refl _⟩

/-- What is left of a text is all of it just if this is so in ASCII. -/
theorem length_ascii_eq_iff {t u : Text} (h : u <:+ t) : (ascii u).length = (ascii t).length ↔ u.length = t.length := by
  obtain ⟨lead, rfl⟩ := h
  have hlead := length_le_ascii lead
  rw [ascii_append, List.length_append, List.length_append]
  constructor
  · intro heq
    omega
  · intro heq
    have hnil : lead = [] := List.eq_nil_of_length_eq_zero (by omega)
    rw [hnil]
    exact (Nat.zero_add _).symm

theorem readUnsigned?_ascii {negative : Bool} {t rest : Text} {n : Number}
    (h : readUnsigned? negative t = some (n, rest)) :
    readUnsigned? negative (ascii t) = some (n, ascii rest) ∧ rest <:+ t := by
  cases hw : readWhole t with
  | none =>
    rw [readUnsigned?, hw] at h
    cases h
  | some part =>
    obtain ⟨w, r₁⟩ := part
    obtain ⟨f, r₂, hf⟩ : ∃ f r, readFraction r₁ = (f, r) := ⟨_, _, rfl⟩
    obtain ⟨x, r₃, hx⟩ : ∃ x r, readExponent Symbol.isAsciiDigit r₂ = (x, r) := ⟨_, _, rfl⟩
    obtain ⟨hw', hs₁⟩ := readWhole_ascii hw
    obtain ⟨hf', hs₂⟩ := readFraction_ascii r₁
    obtain ⟨hx', hs₃⟩ := readExponent_ascii r₂
    rw [hf] at hf' hs₂
    rw [hx] at hx' hs₃
    have hs := hs₂.trans hs₁
    rw [readUnsigned?_eq negative hw hf hx] at h
    rw [readUnsigned?_eq negative hw' hf' hx']
    simp only [length_ascii_eq_iff hs₃]
    split_ifs at h ⊢
    all_goals cases h
    · exact ⟨rfl, hs⟩
    · exact ⟨rfl, hs⟩
    · exact ⟨rfl, hs₃.trans hs⟩

theorem readNumber?_ascii {t rest : Text} {n : Number} (h : readNumber? t = some (n, rest)) :
    readNumber? (ascii t) = some (n, ascii rest) ∧ rest <:+ t := by
  unfold readNumber? at h
  split at h
  · obtain ⟨hread, hs⟩ := readUnsigned?_ascii h
    exact ⟨hread, hs.trans (List.suffix_cons _ _)⟩
  · rename_i hminus
    obtain ⟨hread, hs⟩ := readUnsigned?_ascii h
    refine ⟨?_, hs⟩
    rw [readNumber?]
    · exact hread
    · intro r hr
      obtain ⟨u, hu, -⟩ := ascii_eq_cons (by decide) hr
      exact hminus u hu

theorem after?_ascii {lead : Text} (hlead : ∀ s ∈ lead, s.code < 0x7F ∧ s ≠ .char '\\') (t : Text) :
    (ascii t).after? lead = (t.after? lead).map ascii := by
  induction lead generalizing t with
  | nil => simp [Text.after?]
  | cons r lead ih =>
    obtain ⟨⟨hr, hback⟩, hlead⟩ := List.forall_mem_cons.1 hlead
    cases t with
    | nil => rfl
    | cons s t =>
      by_cases hsr : r = s
      · rw [← hsr, ascii_cons_narrow hr, after?_cons_self, after?_cons_self, ih hlead]
      · rw [after?_cons_ne hsr, Option.map_none]
        by_cases hs : s.code < 0x7F
        · rw [ascii_cons_narrow hs, after?_cons_ne hsr]
        · obtain ⟨more, hmore⟩ := exists_unicodeEscape s
          rw [ascii_cons_wide hs, hmore]
          exact after?_cons_ne hback _ _

theorem readWord?_ascii (t : Text) : readWord? (ascii t) = (readWord? t).map fun (v, rest) => (v, ascii rest) := by
  have hwords : ∀ entry ∈ words, ∀ s ∈ Text.ofString entry.1, s.code < 0x7F ∧ s ≠ .char '\\' := by decide
  rw [readWord?, readWord?, List.map_findSome?, ← List.head?_filterMap, ← List.head?_filterMap]
  refine congrArg List.head? (List.filterMap_congr fun entry hentry => ?_)
  have hafter := after?_ascii (hwords _ hentry) t
  obtain ⟨word, v⟩ := entry
  dsimp only [Function.comp_apply] at hafter ⊢
  rw [hafter, Option.map_map, Option.map_map]
  rfl

theorem suffix_of_readWord? {t rest : Text} {v : Value} (h : readWord? t = some (v, rest)) : rest <:+ t := by
  obtain ⟨⟨word, w⟩, -, hfound⟩ := List.exists_of_findSome?_eq_some h
  obtain ⟨after, hafter, heq⟩ := Option.map_eq_some_iff.1 hfound
  obtain rfl := (Prod.mk.inj heq).2
  unfold Text.after? at hafter
  split_ifs at hafter
  cases hafter
  exact List.drop_suffix _ _

theorem readScalar_ascii {t rest : Text} {v : Value} (h : readScalar t = .ok (v, rest)) (ht : t.isEncodable = true) :
    readScalar (ascii t) = .ok (v, ascii rest) ∧ rest.isEncodable = true := by
  unfold readScalar at h
  split at h
  · rename_i more
    obtain ⟨⟨u, after⟩, hstring, h⟩ := ok_of_bind_ok h
    cases h
    obtain ⟨hread, henc⟩ := readString_ascii hstring ht ⟨more, rfl⟩
    refine ⟨?_, henc⟩
    rw [ascii_cons_narrow (by decide)] at hread ⊢
    simp only [readScalar, hread, bind, Except.bind]
    rfl
  · rename_i hquote
    have hquote' : ∀ u, ascii t ≠ .char '"' :: u := by
      intro u hu
      obtain ⟨more, hmore, -⟩ := ascii_eq_cons (by decide) hu
      exact hquote more hmore
    have hword := readWord?_ascii t
    rw [readScalar]
    · split at h
      · rename_i result hresult
        obtain ⟨w, after⟩ := result
        cases h
        rw [hresult] at hword
        rw [hword]
        exact ⟨rfl, Text.isEncodable_of_suffix (suffix_of_readWord? hresult) ht⟩
      · rename_i hnone
        rw [hnone] at hword
        rw [hword]
        split at h
        · rename_i n after hnumber
          cases h
          obtain ⟨hread, hs⟩ := readNumber?_ascii hnumber
          rw [hread]
          exact ⟨rfl, Text.isEncodable_of_suffix hs ht⟩
        · cases h
    · exact hquote'

/-! ### Values -/

/-- The symbol after blanks is the same in ASCII text, unless it is a backslash. -/
theorem skipBlanks_ascii_cons {t u : Text} {c : Char} (hc : (Symbol.char c).code < 0x7F)
    (h : skipBlanks t = .char c :: u) : skipBlanks (ascii t) = .char c :: ascii u := by
  rw [skipBlanks_ascii, h]
  exact ascii_cons_narrow hc u

theorem skipBlanks_ascii_ne {t : Text} {c : Char} (hc : c ≠ '\\') (h : ∀ u, skipBlanks t ≠ .char c :: u) (u : Text) :
    skipBlanks (ascii t) ≠ .char c :: u := by
  rw [skipBlanks_ascii]
  intro hu
  obtain ⟨more, hmore, -⟩ := ascii_eq_cons hc hu
  exact h more hmore

theorem isEncodable_skipBlanks {t : Text} (ht : t.isEncodable = true) : (skipBlanks t).isEncodable = true :=
  Text.isEncodable_of_suffix (List.dropWhile_suffix _) ht

theorem isEncodable_of_skipBlanks {t u : Text} {s : Symbol} (h : skipBlanks t = s :: u) (ht : t.isEncodable = true) :
    u.isEncodable = true := by
  have hskip := isEncodable_skipBlanks ht
  rw [h] at hskip
  exact (Text.isEncodable_cons hskip).2

/-- A reader comes to the same in ASCII text, and leaves a text without lone surrogates, where it does not fail. -/
def Kept {α : Type} (r r' : Except Refusal (α × Text)) : Prop :=
  ∀ a rest, r = .ok (a, rest) → r' = .ok (a, ascii rest) ∧ rest.isEncodable = true

/-- What values, items and fields are read with some fuel, they are read with more of it in ASCII text. -/
structure Preserved (n : Nat) : Prop where
  /-- A value. -/
  value : ∀ {m t}, n ≤ m → t.isEncodable = true → Kept (readValue n t) (readValue m (ascii t))
  /-- The items of an array, after others. -/
  items : ∀ {m read t}, n ≤ m → t.isEncodable = true → Kept (readItems n read t) (readItems m read (ascii t))
  /-- The fields of an object, after others. -/
  fields : ∀ {m read t}, n ≤ m → t.isEncodable = true → Kept (readFields n read t) (readFields m read (ascii t))

section

variable {n m : Nat} (hn : Preserved n) (hnm : n ≤ m) {t : Text} (ht : t.isEncodable = true)

include hn hnm ht

theorem kept_readValue : Kept (readValue (n + 1) t) (readValue (m + 1) (ascii t)) := by
  intro v rest h
  rw [readValue.eq_def] at h
  dsimp only at h
  split at h
  · rename_i tail
    have htail := (Text.isEncodable_cons ht).2
    rw [ascii_cons_narrow (by decide), readValue]
    split at h
    · rename_i after hclose
      cases h
      rw [skipBlanks_ascii_cons (by decide) hclose]
      exact ⟨rfl, isEncodable_of_skipBlanks hclose htail⟩
    · rename_i hopen
      split
      · rename_i after hclose
        exact absurd hclose (skipBlanks_ascii_ne (by decide) hopen after)
      · rw [skipBlanks_ascii]
        exact hn.items hnm (isEncodable_skipBlanks htail) _ _ h
  · rename_i tail
    have htail := (Text.isEncodable_cons ht).2
    rw [ascii_cons_narrow (by decide), readValue]
    split at h
    · rename_i after hclose
      cases h
      rw [skipBlanks_ascii_cons (by decide) hclose]
      exact ⟨rfl, isEncodable_of_skipBlanks hclose htail⟩
    · rename_i hopen
      split
      · rename_i after hclose
        exact absurd hclose (skipBlanks_ascii_ne (by decide) hopen after)
      · rw [skipBlanks_ascii]
        exact hn.fields hnm (isEncodable_skipBlanks htail) _ _ h
  · rename_i harray hobject
    rw [readValue]
    · exact readScalar_ascii h ht
    · intro u hu
      obtain ⟨r, hr, -⟩ := ascii_eq_cons (by decide) hu
      exact harray r hr
    · intro u hu
      obtain ⟨r, hr, -⟩ := ascii_eq_cons (by decide) hu
      exact hobject r hr

theorem kept_readItems (read : List Value) : Kept (readItems (n + 1) read t) (readItems (m + 1) read (ascii t)) := by
  intro v rest h
  rw [readItems] at h
  obtain ⟨⟨w, after⟩, hvalue, h⟩ := ok_of_bind_ok h
  obtain ⟨hvalue', hafter⟩ := hn.value hnm ht _ _ hvalue
  rw [readItems_of_value hvalue']
  dsimp only at h
  split at h
  · rename_i last hclose
    cases h
    rw [skipBlanks_ascii_cons (by decide) hclose]
    exact ⟨rfl, isEncodable_of_skipBlanks hclose hafter⟩
  · rename_i last hcomma
    rw [skipBlanks_ascii_cons (by decide) hcomma]
    simp only [skipBlanks_ascii]
    exact hn.items hnm (isEncodable_skipBlanks (isEncodable_of_skipBlanks hcomma hafter)) _ _ h
  · cases h

theorem kept_readFields (read : Fields) : Kept (readFields (n + 1) read t) (readFields (m + 1) read (ascii t)) := by
  intro v rest h
  rw [readFields.eq_def] at h
  dsimp only at h
  split at h
  · rename_i tail
    obtain ⟨⟨key, after⟩, hkey, h⟩ := ok_of_bind_ok h
    obtain ⟨hkey', hafter⟩ := readString_ascii hkey ht ⟨tail, rfl⟩
    dsimp only at h
    split at h
    · rename_i colon hcolon
      obtain ⟨⟨w, last⟩, hvalue, h⟩ := ok_of_bind_ok h
      have hcolon' := isEncodable_skipBlanks (isEncodable_of_skipBlanks hcolon hafter)
      obtain ⟨hvalue', hlast⟩ := hn.value hnm hcolon' _ _ hvalue
      rw [ascii_cons_narrow (by decide)] at hkey' ⊢
      rw [readFields]
      simp only [hkey', skipBlanks_ascii_cons (by decide) hcolon, skipBlanks_ascii colon, hvalue', bind, Except.bind]
      dsimp only at h
      split at h
      · rename_i close hclose
        cases h
        rw [skipBlanks_ascii_cons (by decide) hclose]
        exact ⟨rfl, isEncodable_of_skipBlanks hclose hlast⟩
      · rename_i next hcomma
        rw [skipBlanks_ascii_cons (by decide) hcomma]
        simp only [skipBlanks_ascii]
        exact hn.fields hnm (isEncodable_skipBlanks (isEncodable_of_skipBlanks hcomma hlast)) _ _ h
      · cases h
    · cases h
  · cases h

end

theorem preserved (n : Nat) : Preserved n := by
  induction n with
  | zero =>
    constructor <;> intros <;> intro _ _ h
    · cases h
    · cases h
    · cases h
  | succ n ih =>
    have hpred : ∀ {m}, n + 1 ≤ m → ∃ k, n ≤ k ∧ m = k + 1 := fun {m} h => ⟨m - 1, by omega, by omega⟩
    constructor
    · intro m t hnm ht
      obtain ⟨k, hnk, rfl⟩ := hpred hnm
      exact kept_readValue ih hnk ht
    · intro m read t hnm ht
      obtain ⟨k, hnk, rfl⟩ := hpred hnm
      exact kept_readItems ih hnk ht read
    · intro m read t hnm ht
      obtain ⟨k, hnk, rfl⟩ := hpred hnm
      exact kept_readFields ih hnk ht read

/-- **A JSON text denotes the same value in ASCII**, if it has no lone surrogates. -/
theorem read_ascii {t : Text} {v : Value} (h : read t = .ok v) (ht : t.isEncodable = true) :
    read (ascii t) = .ok v := by
  have hlen := length_le_ascii t
  unfold read at h
  split at h
  · cases h
  · rename_i hmark
    split at h
    · cases h
    · rename_i w rest hread
      split at h
      · rename_i hrest
        cases h
        have hfuel : 2 * t.length + 2 ≤ 2 * (ascii t).length + 2 := by omega
        obtain ⟨hread', -⟩ := (preserved _).value hfuel (isEncodable_skipBlanks ht) _ _ hread
        rw [← skipBlanks_ascii] at hread'
        have hrest' : skipBlanks (ascii rest) = [] := by
          rw [skipBlanks_ascii, hrest]
          rfl
        rw [read]
        · rw [hread']
          dsimp only
          rw [hrest']
        · intro u hu
          obtain ⟨r, hr, -⟩ := ascii_eq_cons (by decide) hu
          exact hmark r hr
      · cases h

/-! ### Writing in ASCII -/

/-- A value as JSON in ASCII, with a blank after each comma and colon. -/
def writeAscii (v : Value) : Text := ascii (write .spaced v)

example : writeAscii (.object [(.name "é", .array [.text "😀", .null])]) =
    "\x7b\"\\u00e9\": [\"\\ud83d\\ude00\", null]\x7d" := by decide +kernel

/-- **What was written in ASCII is read again.** -/
theorem read_writeAscii {v : Value} (hj : v.isJson = true) (hs : v.symbols.isEncodable = true) :
    read (writeAscii v) = .ok v := read_ascii (read_write legible_spaced hj) ((drawn_write v).isEncodable hs)

theorem plain_codeUnit (n : Nat) : ∀ s ∈ codeUnit n, isPlain s = true := by
  intro s hs
  rcases List.mem_cons.1 hs with rfl | hs
  · decide
  · rcases List.mem_cons.1 hs with rfl | hs
    · decide
    · obtain ⟨d, hd⟩ := hexValue?_of_mem_hex hs
      exact isPlain_of_hexValue? hd

theorem plain_unicodeEscape (s : Symbol) : ∀ r ∈ unicodeEscape s, isPlain r = true := by
  intro r hr
  unfold unicodeEscape at hr
  split_ifs at hr
  · exact plain_codeUnit _ r hr
  · exact (List.mem_append.1 hr).elim (plain_codeUnit _ r) (plain_codeUnit _ r)

/-- JSON in ASCII is made of printable ASCII characters. -/
theorem plain_writeAscii (v : Value) : ∀ s ∈ writeAscii v, isPlain s = true := by
  intro s hs
  obtain ⟨r, hr, hs⟩ := List.mem_flatMap.1 hs
  have hcode := (drawn_write v).code_le r hr
  split_ifs at hs with hnarrow
  · rw [List.mem_singleton.1 hs]
    exact isPlain_iff.2 ⟨hcode, hnarrow⟩
  · exact plain_unicodeEscape r s hs

/-- An object stands in braces. -/
theorem writeAscii_object (fields : Fields) :
    ∃ inner, writeAscii (.object fields) = .char '\x7b' :: (inner ++ [.char '\x7d']) := by
  have hbraces : ∃ inner, write .spaced (.object fields) = .char '\x7b' :: (inner ++ [.char '\x7d']) := by
    rcases fields with _ | ⟨⟨k, v⟩, fs⟩
    · exact ⟨[], rfl⟩
    · exact ⟨_, by rw [write, writeAt]; rfl⟩
  obtain ⟨inner, h⟩ := hbraces
  exact ⟨ascii inner, by rw [writeAscii, h, ascii_cons_narrow (by decide), ascii_append]; rfl⟩

end Json

end EventPipeline
