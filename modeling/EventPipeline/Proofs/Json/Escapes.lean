import EventPipeline.Proofs.Fallible
import EventPipeline.Proofs.Json.Symbols
import EventPipeline.Proofs.Text.Utf8

/-!
# Escapes for symbols beyond ASCII

Every symbol beyond ASCII can be written as an escape of its code, or as the escapes of a surrogate pair (`ascii`). It
is read back from its escape, whatever precedes and follows it, so a string of a JSON text without lone surrogates is
the same when the text is written in ASCII (`readString_ascii`). The two halves of a pair are joined again, and nothing
else is: the escape of a high surrogate that stood in the text before is not followed by that of a low one, since no
symbol of the text is one (`readHex_first`).
-/

namespace EventPipeline

theorem Text.isEncodable_cons {s : Symbol} {t : Text} (h : isEncodable (s :: t) = true) :
    s.isEncodable = true ∧ t.isEncodable = true := by
  rwa [isEncodable, List.all_cons, Bool.and_eq_true] at h

theorem Text.isEncodable_of_suffix {t u : Text} (hu : u <:+ t) (ht : t.isEncodable = true) : u.isEncodable = true := by
  rw [isEncodable, List.all_eq_true] at ht ⊢
  exact fun s hs => ht s (hu.subset hs)

namespace Json

/-- One code unit as an escape. -/
def codeUnit (n : Nat) : Text := .char '\\' :: .char 'u' :: Text.hex 4 n

/-- A symbol as the escapes of its code units, of which it has two from `0x10000` on. -/
def unicodeEscape (s : Symbol) : Text :=
  if s.code < 0x10000 then codeUnit s.code
  else codeUnit (0xD800 + (s.code - 0x10000) / 0x400) ++ codeUnit (0xDC00 + (s.code - 0x10000) % 0x400)

/-- A JSON text with escapes for all symbols beyond the printable ASCII characters. -/
def ascii (t : Text) : Text := t.flatMap fun s => if s.code < 0x7F then [s] else unicodeEscape s

example : ascii "\"é\x7f\"" = "\"\\u00e9\\u007f\"" ∧ ascii "😀" = "\\ud83d\\ude00" := by decide +kernel

/-! ### ASCII text symbol by symbol -/

theorem codeUnit_append (n : Nat) (t : Text) : codeUnit n ++ t = .char '\\' :: .char 'u' :: (Text.hex 4 n ++ t) := rfl

theorem ascii_cons_narrow {s : Symbol} (hs : s.code < 0x7F) (t : Text) : ascii (s :: t) = s :: ascii t := by
  rw [ascii, List.flatMap_cons, if_pos hs]
  rfl

theorem ascii_cons_wide {s : Symbol} (hs : ¬ s.code < 0x7F) (t : Text) :
    ascii (s :: t) = unicodeEscape s ++ ascii t := by
  rw [ascii, List.flatMap_cons, if_neg hs]
  rfl

theorem ascii_append (t u : Text) : ascii (t ++ u) = ascii t ++ ascii u := List.flatMap_append

theorem exists_unicodeEscape (s : Symbol) : ∃ more, unicodeEscape s = .char '\\' :: .char 'u' :: more := by
  unfold unicodeEscape
  split_ifs
  · exact ⟨_, by rw [codeUnit]⟩
  · exact ⟨_, codeUnit_append _ _⟩

theorem length_le_ascii (t : Text) : t.length ≤ (ascii t).length := by
  induction t with
  | nil => exact Nat.zero_le _
  | cons s t ih =>
    by_cases hs : s.code < 0x7F
    · rw [ascii_cons_narrow hs, List.length_cons, List.length_cons]
      omega
    · obtain ⟨more, hmore⟩ := exists_unicodeEscape s
      rw [ascii_cons_wide hs, hmore, List.length_append, List.length_cons, List.length_cons]
      omega

theorem ascii_ne_nil {t : Text} (h : t ≠ []) : ascii t ≠ [] := by
  intro hnil
  have hlen := length_le_ascii t
  rw [hnil, List.length_nil] at hlen
  exact h (List.eq_nil_of_length_eq_zero (Nat.le_zero.1 hlen))

/-- ASCII text starts with a character other than the backslash just if the text does. -/
theorem ascii_eq_cons {t u : Text} {c : Char} (hc : c ≠ '\\') (h : ascii t = .char c :: u) :
    ∃ more, t = .char c :: more ∧ ascii more = u := by
  cases t with
  | nil => cases h
  | cons s t =>
    by_cases hs : s.code < 0x7F
    · rw [ascii_cons_narrow hs] at h
      obtain ⟨rfl, rfl⟩ := List.cons.inj h
      exact ⟨t, rfl, rfl⟩
    · obtain ⟨more, hmore⟩ := exists_unicodeEscape s
      rw [ascii_cons_wide hs, hmore] at h
      exact absurd (Symbol.char.inj (List.cons.inj h).1).symm hc

theorem head?_of_ascii {t : Text} {c : Char} (hc : c ≠ '\\') (h : (ascii t).head? = some (.char c)) :
    t.head? = some (.char c) := by
  obtain ⟨more, rfl, -⟩ := ascii_eq_cons hc (List.eq_cons_of_mem_head? h)
  rfl

/-- A run of ASCII characters other than the backslash is the same in ASCII text. -/
theorem takeWhile_ascii {p : Symbol → Bool} (hp : ∀ s, p s = true → s.code < 0x7F) (hb : p (.char '\\') = false)
    (t : Text) : (ascii t).takeWhile p = t.takeWhile p ∧ (ascii t).dropWhile p = ascii (t.dropWhile p) := by
  induction t with
  | nil => exact ⟨rfl, rfl⟩
  | cons s t ih =>
    by_cases hs : s.code < 0x7F
    · rw [ascii_cons_narrow hs]
      cases h : p s with
      | false => simp [h, ascii_cons_narrow hs]
      | true => simp [h, ih]
    · have hps : p s = false := Bool.eq_false_iff.2 fun h => hs (hp s h)
      obtain ⟨more, hmore⟩ := exists_unicodeEscape s
      simp [ascii_cons_wide hs, hmore, hb, hps]

theorem code_of_isBlank {s : Symbol} (h : isBlank s = true) : s.code < 0x7F := by
  simp only [isBlank, Bool.or_eq_true, beq_iff_eq] at h
  rcases h with ((rfl | rfl) | rfl) | rfl <;> decide

theorem skipBlanks_ascii (t : Text) : skipBlanks (ascii t) = ascii (skipBlanks t) :=
  (takeWhile_ascii (fun _ => code_of_isBlank) rfl t).2

theorem code_of_isAsciiDigit {s : Symbol} (h : s.isAsciiDigit = true) : s.code < 0x7F := by
  cases s with
  | char c =>
    have hc : c.toNat ≤ 57 := (Char.isDigit_iff_toNat.1 h).2
    show c.toNat < 0x7F
    omega
  | surrogate n => cases h

theorem digits_ascii (t : Text) : (ascii t).takeWhile Symbol.isAsciiDigit = t.takeWhile Symbol.isAsciiDigit ∧
    (ascii t).dropWhile Symbol.isAsciiDigit = ascii (t.dropWhile Symbol.isAsciiDigit) :=
  takeWhile_ascii (fun _ => code_of_isAsciiDigit) rfl t

/-! ### Code units -/

theorem isPlain_iff {s : Symbol} : isPlain s = true ↔ 0x20 ≤ s.code ∧ s.code < 0x7F := by
  cases s with
  | surrogate n =>
    have hcode : (Symbol.surrogate n).code = 0xD800 + n := rfl
    rw [hcode]
    constructor
    · intro h
      cases h
    · omega
  | char c =>
    have hspace : (Symbol.char c == .char ' ') = true ↔ c.toNat = 0x20 := by
      rw [beq_iff_eq, Symbol.char.injEq, ← Char.toNat_inj]
      rfl
    simp only [isPlain, Symbol.isVisible, Bool.or_eq_true, hspace, Bool.and_eq_true, decide_eq_true_eq, Symbol.code]
    omega

theorem isPlain_of_hexValue? {s : Symbol} {d : Nat} (h : s.hexValue? = some d) : isPlain s = true := by
  rw [isPlain_iff]
  cases s with
  | surrogate n => cases h
  | char c =>
    unfold Symbol.hexValue? at h
    dsimp only at h
    have hle : ∀ {a b : Char}, a ≤ b → a.toNat ≤ b.toNat := fun h => h
    show 0x20 ≤ c.toNat ∧ c.toNat < 0x7F
    split_ifs at h with h₁ h₂ h₃
    · have hc : 48 ≤ c.toNat ∧ c.toNat ≤ 57 := Char.isDigit_iff_toNat.1 h₁
      omega
    · have hc : 97 ≤ c.toNat ∧ c.toNat ≤ 102 := ⟨hle h₂.1, hle h₂.2⟩
      omega
    · have hc : 65 ≤ c.toNat ∧ c.toNat ≤ 70 := ⟨hle h₃.1, hle h₃.2⟩
      omega

theorem code_of_hexValue? {s : Symbol} {d : Nat} (h : s.hexValue? = some d) : s.code < 0x7F :=
  (isPlain_iff.1 (isPlain_of_hexValue? h)).2

/-- A code unit is read back from its escape, if something follows. -/
theorem readHex_hex {n : Nat} (hn : n < 0x10000) {rest : Text} (hrest : rest ≠ []) :
    readHex (.char 'u' :: (Text.hex 4 n ++ rest)) = .ok (n, rest) := by
  have hvalue := hexNumber_hex (m := 0) (.inl hn : n < 16 ^ 4 ∨ _) (by decide)
  have hlen : (Text.hex 4 n).length = 4 := length_hex hn (by decide)
  have hdigit := fun s => @hexValue?_of_mem_hex 4 n s
  generalize Text.hex 4 n = digits at *
  match digits, hlen with
  | [a, b, c, d], _ =>
    obtain ⟨w, hw⟩ := hdigit a (by simp)
    obtain ⟨x, hx⟩ := hdigit b (by simp)
    obtain ⟨y, hy⟩ := hdigit c (by simp)
    obtain ⟨z, hz⟩ := hdigit d (by simp)
    simp only [hexNumber, List.foldl_cons, List.foldl_nil, hw, hx, hy, hz, Option.map_some, Option.getD_some] at hvalue
    have hemp : rest.isEmpty = false := by simpa using hrest
    simp only [readHex, List.cons_append, List.nil_append, hw, hx, hy, hz, hemp, Bool.false_eq_true, if_false]
    refine congrArg (fun n => Except.ok (n, rest)) ?_
    omega

/-- The digits of a code unit are the same in ASCII text. -/
theorem readHex_ascii {t rest : Text} {n : Nat} (h : readHex (.char 'u' :: t) = .ok (n, rest))
    (ht : t.isEncodable = true) : readHex (.char 'u' :: ascii t) = .ok (n, ascii rest) ∧ rest.isEncodable = true := by
  unfold readHex at h
  split at h
  · rename_i a b c d more heq
    obtain rfl := (List.cons.inj heq).2
    split at h
    · rename_i w x y z hw hx hy hz
      split_ifs at h with hemp
      obtain ⟨rfl, rfl⟩ := Prod.mk.inj (Except.ok.inj h)
      have hmore : (ascii more).isEmpty = false := by
        simpa using ascii_ne_nil (by simpa using hemp : more ≠ [])
      simp only [Text.isEncodable, List.all_cons, Bool.and_eq_true] at ht
      refine ⟨?_, ht.2.2.2.2⟩
      rw [ascii_cons_narrow (code_of_hexValue? hw), ascii_cons_narrow (code_of_hexValue? hx),
        ascii_cons_narrow (code_of_hexValue? hy), ascii_cons_narrow (code_of_hexValue? hz)]
      simp only [readHex, hw, hx, hy, hz, hmore, Bool.false_eq_true, if_false]
    · cases h
  · cases h

/-! ### Strings -/

/-- A high surrogate stands alone unless the escape of a low one follows. -/
theorem readEscape_alone (backslash : Text) {t rest : Text} {n : Nat} (h : readHex (.char 'u' :: t) = .ok (n, rest))
    (halone : ∀ more, rest = .char '\\' :: .char 'u' :: more → 4 < more.length → 0xD800 ≤ n ∧ n < 0xDC00 →
      ∃ low after, readHex (.char 'u' :: more) = .ok (low, after) ∧ ¬ (0xDC00 ≤ low ∧ low < 0xE000)) :
    readEscape backslash (.char 'u' :: t) = .ok (Symbol.ofCode n, rest) := by
  simp only [readEscape, h, bind, Except.bind]
  split_ifs with hhigh
  · split
    · rename_i more
      split_ifs with hlen
      · obtain ⟨low, after, hlow, hno⟩ := halone more rfl hlen hhigh
        simp only [hlow, if_neg hno]
        rfl
      · rfl
    · rfl
  · rfl

/-- A high surrogate is joined with a low one that follows. -/
theorem readEscape_pair (backslash : Text) {high low : Nat} (hh : 0xD800 ≤ high ∧ high < 0xDC00)
    (hl : 0xDC00 ≤ low ∧ low < 0xE000) {rest : Text} (hrest : rest ≠ []) :
    readEscape backslash (.char 'u' :: (Text.hex 4 high ++ (codeUnit low ++ rest))) =
      .ok (Symbol.ofCode (0x10000 + (high - 0xD800) * 0x400 + (low - 0xDC00)), rest) := by
  have hmore : codeUnit low ++ rest ≠ [] := by simp [codeUnit]
  have hhigh := readHex_hex (n := high) (by omega) hmore
  have hlow := readHex_hex (n := low) (by omega) hrest
  have hlen : 4 < (Text.hex 4 low ++ rest).length := by
    have hpos := List.length_pos_of_ne_nil hrest
    rw [List.length_append, length_hex (by omega : low < 16 ^ 4) (by decide)]
    omega
  rw [codeUnit_append] at hhigh ⊢
  simp only [readEscape, hhigh, hlow, bind, Except.bind, if_pos hh, if_pos hlen, if_pos hl]
  rfl

/-- The code units of a character: its code, which is that of no surrogate, or a high surrogate and a low one. -/
theorem unicodeEscape_char (c : Char) :
    (∃ n, n = c.toNat ∧ n < 0x10000 ∧ ¬ (0xD800 ≤ n ∧ n < 0xE000) ∧ unicodeEscape (.char c) = codeUnit n) ∨
      ∃ high low, (0xD800 ≤ high ∧ high < 0xDC00) ∧ (0xDC00 ≤ low ∧ low < 0xE000) ∧
        0x10000 + (high - 0xD800) * 0x400 + (low - 0xDC00) = c.toNat ∧
          unicodeEscape (.char c) = codeUnit high ++ codeUnit low := by
  have hc := c.valid
  simp only [UInt32.isValidChar, Nat.isValidChar] at hc
  have hval : c.toNat = c.val.toNat := rfl
  have hcode : (Symbol.char c).code = c.toNat := rfl
  rw [unicodeEscape, hcode]
  split_ifs with hsmall
  · exact .inl ⟨_, rfl, hsmall, by omega, rfl⟩
  · exact .inr ⟨_, _, by omega, by omega, by omega, rfl⟩

/-- **A symbol is read back from the escapes of its code units**, if something follows. -/
theorem readEscape_unicodeEscape (backslash : Text) {s : Symbol} (hs : s.isEncodable = true) {rest : Text}
    (hrest : rest ≠ []) : readEscape backslash ((unicodeEscape s ++ rest).drop 1) = .ok (s, rest) := by
  cases s with
  | surrogate n => cases hs
  | char c =>
    rcases unicodeEscape_char c with ⟨n, hn, hsmall, hno, hunits⟩ | ⟨high, low, hhigh, hlow, hsum, hunits⟩
    · have h := readEscape_alone backslash (readHex_hex hsmall hrest) fun _ _ _ h => by omega
      rw [hunits]
      rw [hn, Symbol.ofCode_toNat, ← hn] at h
      exact h
    · have h := readEscape_pair backslash hhigh hlow hrest
      rw [hsum, Symbol.ofCode_toNat] at h
      rw [hunits, List.append_assoc]
      exact h

/-- Text that starts with an escaped unit only once it is in ASCII does not start with a low surrogate: the unit is the
first one of a symbol. -/
theorem readHex_first {t more : Text} (ht : t.isEncodable = true) (h : ascii t = .char '\\' :: .char 'u' :: more)
    (hno : ∀ u, t ≠ .char '\\' :: .char 'u' :: u) (hlen : 4 < more.length) :
    ∃ low after, readHex (.char 'u' :: more) = .ok (low, after) ∧ ¬ (0xDC00 ≤ low ∧ low < 0xE000) := by
  rcases t with _ | ⟨s, t⟩
  · cases h
  by_cases hs : s.code < 0x7F
  · rw [ascii_cons_narrow hs] at h
    obtain ⟨rfl, htail⟩ := List.cons.inj h
    obtain ⟨u, rfl, -⟩ := ascii_eq_cons (by decide) htail
    exact absurd rfl (hno u)
  · rw [ascii_cons_wide hs] at h
    cases s with
    | surrogate n => cases ht
    | char c =>
      rcases unicodeEscape_char c with ⟨n, -, hsmall, hno, hunits⟩ | ⟨high, low, hhigh, -, -, hunits⟩
      · rw [hunits, codeUnit_append] at h
        obtain rfl := (List.cons.inj (List.cons.inj h).2).2
        have hrest : ascii t ≠ [] := by
          rintro hnil
          rw [hnil, List.append_nil, length_hex (by omega : n < 16 ^ 4) (by decide)] at hlen
          exact Nat.lt_irrefl 4 hlen
        exact ⟨n, _, readHex_hex hsmall hrest, by omega⟩
      · rw [hunits, List.append_assoc, codeUnit_append] at h
        obtain rfl := (List.cons.inj (List.cons.inj h).2).2
        exact ⟨high, _, readHex_hex (by omega) (by simp [codeUnit]), by omega⟩

/-- What follows a high surrogate in ASCII text is no low one, if it was none in the text. -/
theorem readEscape_ascii {backslash t rest : Text} {s : Symbol} (backslash' : Text)
    (h : readEscape backslash t = .ok (s, rest)) (ht : t.isEncodable = true)
    (hlong : ∀ more, rest = .char '\\' :: .char 'u' :: more → 4 < more.length) :
    readEscape backslash' (ascii t) = .ok (s, ascii rest) ∧ rest.isEncodable = true := by
  unfold readEscape at h
  split at h
  · rename_i t
    obtain ⟨⟨n, after⟩, hhex, h⟩ := ok_of_bind_ok h
    obtain ⟨hhex', hafter⟩ := readHex_ascii hhex ht
    have alone := readEscape_alone backslash' hhex'
    dsimp only at h
    split_ifs at h with hhigh
    · split at h
      · rename_i more
        split_ifs at h with hlen
        · obtain ⟨⟨low, last⟩, hlow, h⟩ := ok_of_bind_ok h
          obtain ⟨hlow', hlast⟩ := readHex_ascii hlow hafter
          have hlen' : 4 < (ascii more).length := Nat.lt_of_lt_of_le hlen (length_le_ascii more)
          dsimp only at h
          split_ifs at h with hpair
          · obtain ⟨rfl, rfl⟩ := Prod.mk.inj (Except.ok.inj h)
            refine ⟨?_, hlast⟩
            have ht' : ascii (.char 'u' :: t) = .char 'u' :: ascii t := rfl
            have hafter' : ascii (.char '\\' :: .char 'u' :: more) = .char '\\' :: .char 'u' :: ascii more := rfl
            rw [hafter'] at hhex'
            rw [ht']
            simp only [readEscape, hhex', hlow', bind, Except.bind, if_pos hhigh, if_pos hlen', if_pos hpair]
            rfl
          · cases h
            refine ⟨alone fun more' heq _ _ => ?_, hafter⟩
            cases heq
            exact ⟨low, _, hlow', hpair⟩
        · cases h
          exact absurd (hlong more rfl) hlen
      · rename_i hno
        cases h
        exact ⟨alone fun more heq hlen _ => readHex_first hafter heq hno hlen, hafter⟩
    · cases h
      exact ⟨alone fun _ _ _ h => absurd h hhigh, hafter⟩
  · rename_i c rest' hu
    split at h
    · rename_i e he
      cases h
      refine ⟨?_, (Text.isEncodable_cons ht).2⟩
      unfold shortEscape? at he
      split at he <;> cases he <;> rfl
    · cases h
  · cases h

/-- An unfinished string is refused. -/
theorem readStringRest_nil {opening : Text} {fuel : Nat} {read : Text} {x : Text × Text} :
    readStringRest opening fuel read [] ≠ .ok x := by
  cases fuel <;> exact fun h => by cases h

/-- So is a string that breaks off within the escape of a unit. -/
theorem readStringRest_unit {opening : Text} {fuel : Nat} {read more : Text} {x : Text × Text}
    (h : readStringRest opening fuel read (.char '\\' :: .char 'u' :: more) = .ok x) : 4 < more.length := by
  cases fuel with
  | zero => cases h
  | succ fuel =>
    obtain ⟨_, hescape, -⟩ := ok_of_bind_ok h
    obtain ⟨_, hhex, -⟩ := ok_of_bind_ok hescape
    unfold readHex at hhex
    split at hhex
    · rename_i heq
      obtain rfl := (List.cons.inj heq).2
      split at hhex
      · split_ifs at hhex with hemp
        have hpos := List.length_pos_of_ne_nil (by simpa using hemp)
        simp only [List.length_cons]
        omega
      · cases hhex
    · cases hhex

theorem readStringRest_unicodeEscape (opening read : Text) (fuel : Nat) {s : Symbol} (hs : s.isEncodable = true)
    {rest : Text} (hrest : rest ≠ []) : readStringRest opening (fuel + 1) read (unicodeEscape s ++ rest) =
      readStringRest opening fuel (s :: read) rest := by
  have hescape := readEscape_unicodeEscape (unicodeEscape s ++ rest) hs hrest
  obtain ⟨more, hmore⟩ := exists_unicodeEscape s
  rw [hmore] at hescape ⊢
  simp only [List.cons_append, List.drop_succ_cons, List.drop_zero] at hescape ⊢
  simp only [readStringRest, hescape, bind, Except.bind]
  rfl

/-- **A string is the same in ASCII text.** -/
theorem readStringRest_ascii {opening opening' : Text} {n m : Nat} (hnm : n ≤ m) {read t u rest : Text}
    (h : readStringRest opening n read t = .ok (u, rest)) (ht : t.isEncodable = true) :
    readStringRest opening' m read (ascii t) = .ok (u, ascii rest) ∧ rest.isEncodable = true := by
  induction n generalizing m read t with
  | zero => cases h
  | succ n ih =>
    obtain ⟨m, rfl⟩ : ∃ k, m = k + 1 := ⟨m - 1, by omega⟩
    rw [readStringRest.eq_def] at h
    dsimp only at h
    split at h
    · cases h
    · cases h
      exact ⟨rfl, (Text.isEncodable_cons ht).2⟩
    · rename_i rest'
      split_ifs at h with hemp
      obtain ⟨⟨s, after⟩, hescape, h⟩ := ok_of_bind_ok h
      have hmore : (ascii rest').isEmpty = false := by
        simpa using ascii_ne_nil (by simpa using hemp : rest' ≠ [])
      have hlong : ∀ more, after = .char '\\' :: .char 'u' :: more → 4 < more.length := by
        rintro more rfl
        exact readStringRest_unit h
      obtain ⟨hescape', hafter⟩ :=
        readEscape_ascii (.char '\\' :: ascii rest') hescape (Text.isEncodable_cons ht).2 hlong
      obtain ⟨hrest, henc⟩ := ih (Nat.le_of_succ_le_succ hnm) h hafter
      refine ⟨?_, henc⟩
      rw [ascii_cons_narrow (by decide)]
      simp only [readStringRest, hmore, hescape', bind, Except.bind]
      exact hrest
    · rename_i s rest' hquote hbackslash
      split_ifs at h with hcode
      obtain ⟨hs, ht⟩ := Text.isEncodable_cons ht
      obtain ⟨hrest, henc⟩ := ih (Nat.le_of_succ_le_succ hnm) h ht
      refine ⟨?_, henc⟩
      by_cases hnarrow : s.code < 0x7F
      · rw [ascii_cons_narrow hnarrow, readStringRest_plain _ _ _ _ hquote hbackslash (Nat.le_of_not_lt hcode)]
        exact hrest
      · have hne : rest' ≠ [] := by
          rintro rfl
          exact readStringRest_nil h
        rw [ascii_cons_wide hnarrow, readStringRest_unicodeEscape _ _ _ hs (ascii_ne_nil hne)]
        exact hrest

theorem readString_ascii {t u rest : Text} (h : readString t = .ok (u, rest)) (ht : t.isEncodable = true)
    (hquote : ∃ more, t = .char '"' :: more) :
    readString (ascii t) = .ok (u, ascii rest) ∧ rest.isEncodable = true := by
  obtain ⟨more, rfl⟩ := hquote
  exact readStringRest_ascii (length_le_ascii _) h (Text.isEncodable_cons ht).2

end Json

end EventPipeline
