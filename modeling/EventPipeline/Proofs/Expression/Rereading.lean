import EventPipeline.Proofs.Expression.Printer
import EventPipeline.Proofs.Expression.Soundness
import EventPipeline.Proofs.Number.Reading
import EventPipeline.Proofs.Text.Visible

/-!
# Printed lexemes are lexed again

A lexeme is *plain* if it can be written down: a number without a sign, a name, any string, any punctuator.
All lexemes that are read from a text are plain (`isPlain_of_lex`), and plain lexemes are read again from the
text that they are printed as (`lex_printLexemes`). The space after a lexeme ends it, whatever it is.
-/

namespace EventPipeline

/-! ### Digits -/

namespace Symbol

theorem isDecimal_char (c : Char) (hc : c.isDigit = true) : isDecimal (.char c) = true := by
  rw [isDecimal, decimalValue?_char hc]
  rfl

theorem isDigit_char {c : Char} (hc : c.isDigit = true) : isDigit (.char c) = true := by
  obtain ⟨first, hfirst, -⟩ := Option.map_eq_some_iff.1 (decimalValue?_char hc)
  rw [isDigit, CodeRanges.contains, hfirst]
  rfl

/-- The letters are those from `A` to `Z` and from `a` to `z`. -/
theorem range_of_isAlpha {c : Char} (h : c.isAlpha = true) :
    (65 ≤ c.toNat ∧ c.toNat ≤ 90) ∨ (97 ≤ c.toNat ∧ c.toNat ≤ 122) := by
  have hupper : c.isUpper = decide (65 ≤ c.toNat ∧ c.toNat ≤ 90) := rfl
  have hlower : c.isLower = (decide (97 ≤ c.toNat) && decide (c.toNat ≤ 122)) := rfl
  have halpha : c.isAlpha = (c.isUpper || c.isLower) := rfl
  simpa [halpha, hupper, hlower] using h

/-- A character that can be seen is a digit only if it is one from `0` to `9`. -/
theorem isDigit_of_isVisible {c : Char} (hv : isVisible (.char c) = true) (hc : c.toNat < 48 ∨ 57 < c.toNat) :
    isDigit (.char c) = false := by
  simp only [isVisible, Bool.and_eq_true, decide_eq_true_eq] at hv
  have hloose : looseDigitRanges.contains c.toNat = false := by
    rw [CodeRanges.contains, looseDigitRanges, CodeRanges.start?, if_pos (by omega)]
    rfl
  have hdecimal : decimalRanges.contains c.toNat = false := by
    rw [CodeRanges.contains, decimalRanges, CodeRanges.start?]
    rcases hc with hc | hc
    · rw [if_pos hc]
      rfl
    · rw [if_neg (by omega), if_neg (by omega), CodeRanges.start?, if_pos (by omega)]
      rfl
  rw [isDigit, hdecimal, hloose]
  rfl

end Symbol

/-- The number has no sign, also no hidden one. -/
def Number.isUnsigned : Number → Bool
  | .int (.ofNat _) => true
  | .int (.negSucc _) => false
  | .float (.finite negative _) => !negative
  | .float (.infinite negative) => !negative
  | .float .nan => false

/-- A decimal numeral without a sign writes a number without a sign. -/
theorem Binary64.isUnsigned_ofDecimal (digits : Nat) (exponent : Int) :
    Number.isUnsigned (.float (ofDecimal false digits exponent)) = true := by
  have hratio : ∀ num den, Number.isUnsigned (.float (ofRatio false num den)) = true := by
    intro num den
    unfold ofRatio ofUnits ofRank
    split_ifs <;> rfl
  unfold ofDecimal
  split_ifs
  · rfl
  · rfl
  · rfl
  · split <;> exact hratio _ _

namespace Expression

open EventPipeline.Symbol (isVisible isDecimal_char)
open Binary64 (Parts Digits Numeral fractionPart exponentPart takeWhile_run forall_mem_textOf readExponent_none
  readExponent_exponentPart digits_toDigits exists_cons_of_parts)

/-! ### Plain lexemes -/

/-- The lexeme can be written down. -/
def Lexeme.isPlain : Lexeme → Bool
  | number n => n.isUnsigned
  | word t => isName t
  | string _ | punct _ => true

theorem continuesName_of_startsName {s : Symbol} (h : startsName s = true) : continuesName s = true := by
  cases s with
  | char c =>
    simp only [startsName, continuesName, Char.isAlphanum, Bool.or_eq_true] at h ⊢
    tauto
  | surrogate n => cases h

theorem isUnsigned_of_readNumeral? {t rest : Text} {n : Number} (h : readNumeral? t = some (n, rest)) :
    n.isUnsigned = true := by
  unfold readNumeral? at h
  dsimp only at h
  split_ifs at h <;> cases h
  · exact Binary64.isUnsigned_ofDecimal _ _
  · rfl

theorem isPlain_of_readLexeme {t rest : Text} {l : Lexeme} (h : readLexeme t = .ok (l, rest)) : l.isPlain = true := by
  have hliteral : ∀ quote u,
      (readLiteral quote t u).map (fun r => (Lexeme.string r.1, r.2)) = .ok (l, rest) → l.isPlain = true := by
    intro quote u hu
    cases hr : readLiteral quote t u <;> rw [hr] at hu <;> cases hu
    rfl
  unfold readLexeme at h
  split at h
  · cases h
  · rename_i s u
    split_ifs at h with hnumber hname
    · split at h <;> cases h
      exact isUnsigned_of_readNumeral? ‹_›
    · cases h
      rw [List.takeWhile_cons_of_pos (continuesName_of_startsName hname), Lexeme.isPlain, isName, hname, Bool.true_and,
        List.all_eq_true]
      exact fun r hr => List.mem_takeWhile_imp hr
    · dsimp only at h
      split at h
      · exact hliteral _ _ h
      · exact hliteral _ _ h
      · split at h <;> cases h
        rfl

/-- **All lexemes of a text are plain.** -/
theorem isPlain_of_lex {t : Text} {ts : List Token} (h : lex t = .ok ts) : ∀ l ∈ lexemes ts, l.isPlain = true := by
  have hfrom : ∀ total fuel t ts, lexFrom total fuel t = .ok ts → ∀ l ∈ lexemes ts, l.isPlain = true := by
    intro total fuel
    induction fuel with
    | zero =>
      rintro t ts h l hl
      cases h
      cases hl
    | succ fuel ih =>
      intro t ts h
      unfold lexFrom at h
      split at h
      · cases h
        simp
      · split_ifs at h
        · exact ih _ _ h
        · split at h
          · cases h
          · rename_i lexeme rest hlexeme
            split at h <;> cases h
            rw [lexemes_cons, List.forall_mem_cons]
            exact ⟨isPlain_of_readLexeme hlexeme, ih _ _ ‹_›⟩
  exact hfrom _ _ _ _ h

/-! ### What ends a lexeme -/

/-- A space follows, if anything does. -/
def EndsLexeme (rest : Text) : Prop := ∀ s, rest.head? = some s → s = .char ' '

theorem endsLexeme_nil : EndsLexeme [] := fun _ h => by cases h

theorem endsLexeme_space (t : Text) : EndsLexeme (.char ' ' :: t) := fun _ h => (Option.some.inj h).symm

theorem EndsLexeme.head {rest : Text} (h : EndsLexeme rest) {p : Symbol → Prop} (hp : p (.char ' ')) :
    ∀ s, rest.head? = some s → p s := by
  intro s hs
  rw [h s hs]
  exact hp

/-! ### Numbers -/

/-- Digits without a point after them. -/
theorem readNumeral?_whole {w : List Char} (hw : Digits w) {rest after : Text} {x : Int}
    (hdigit : ∀ s, rest.head? = some s → s.isDecimal = false) (hpoint : ∀ s, rest.head? = some s → s ≠ .char '.')
    (hx : Binary64.readExponent Symbol.isDecimal rest = (x, after)) :
    readNumeral? (textOf w ++ rest) =
      if after.length = rest.length then some (.int (digitsValue (textOf w)), after)
      else some (.float (Numeral.value false ⟨textOf w, [], x⟩), after) := by
  obtain ⟨h₁, h₂⟩ := takeWhile_run (forall_mem_textOf isDecimal_char hw.digits) hdigit
  have hne : (textOf w).isEmpty = false := by simpa [textOf] using hw.nonempty
  unfold readNumeral?
  simp only [h₁, h₂]
  split
  · exact absurd rfl (hpoint _ rfl)
  · simp [hne, hx]

/-- Digits with a point and more digits after them. -/
theorem readNumeral?_point {w f : List Char} (hw : Digits w) (hf : ∀ c ∈ f, c.isDigit = true) {rest after : Text} {x : Int}
    (hdigit : ∀ s, rest.head? = some s → s.isDecimal = false)
    (hx : Binary64.readExponent Symbol.isDecimal rest = (x, after)) :
    readNumeral? (textOf w ++ (.char '.' :: textOf f ++ rest)) =
      some (.float (Numeral.value false ⟨textOf w, textOf f, x⟩), after) := by
  have hpoint : ∀ s, (.char '.' :: textOf f ++ rest).head? = some s → s.isDecimal = false := by
    intro s hs
    cases hs
    rfl
  obtain ⟨h₁, h₂⟩ := takeWhile_run (forall_mem_textOf isDecimal_char hw.digits) hpoint
  obtain ⟨h₃, h₄⟩ := takeWhile_run (forall_mem_textOf isDecimal_char hf) hdigit
  have hne : (textOf w).isEmpty = false := by simpa [textOf] using hw.nonempty
  unfold readNumeral?
  simp only [h₁, h₂]
  simp [h₃, h₄, hne, hx]

/-- The parts of a numeral are found again. -/
theorem readNumeral?_parts {w f cs : List Char} {x : Int} (hp : Parts w f x cs) (hw : Digits w)
    (hf : ∀ c ∈ f, c.isDigit = true) {rest : Text} (hr : EndsLexeme rest) :
    readNumeral? (textOf cs ++ rest) = some (.float (Numeral.value false ⟨textOf w, textOf f, x⟩), rest) := by
  have hdigit : ∀ s, rest.head? = some s → s.isDecimal = false := hr.head rfl
  cases hp with
  | plain hne =>
    have htext : textOf (w ++ '.' :: f) ++ rest = textOf w ++ (.char '.' :: textOf f ++ rest) := by
      simp [textOf]
    rw [htext]
    exact readNumeral?_point hw hf hdigit (readExponent_none (hr.head (by decide)))
  | scientific x power hd hpow hx =>
    have htext : textOf (w ++ fractionPart f ++ exponentPart x power) ++ rest =
        textOf w ++ (textOf (fractionPart f) ++ (textOf (exponentPart x power) ++ rest)) := by
      simp [textOf]
    have hlen : rest.length ≠ (textOf (exponentPart x power) ++ rest).length := by
      rw [List.length_append, textOf, List.length_map, exponentPart, List.length_cons]
      omega
    have hexp := readExponent_exponentPart isDecimal_char hd hpow hx hdigit
    have hhead : ∀ s, (textOf (exponentPart x power) ++ rest).head? = some s → s = .char 'e' := by
      intro s hs
      exact (Option.some.inj hs).symm
    generalize textOf (exponentPart x power) ++ rest = tail at *
    have htail : ∀ s, tail.head? = some s → s.isDecimal = false := by
      intro s hs
      rw [hhead s hs]
      rfl
    rw [htext]
    by_cases hne : f = []
    · subst hne
      have hpoint : ∀ s, tail.head? = some s → s ≠ .char '.' := by
        intro s hs
        rw [hhead s hs]
        decide
      rw [fractionPart, if_pos rfl]
      exact (readNumeral?_whole hw htail hpoint hexp).trans (if_neg hlen)
    · rw [fractionPart, if_neg hne]
      exact readNumeral?_point hw hf htail hexp

/-- **A number without a sign is read again**; its text starts with a digit. -/
theorem readNumeral?_numeralText {n : Number} (hn : n.isUnsigned = true) {rest : Text} (hr : EndsLexeme rest) :
    (∃ c t, numeralText n = .char c :: t ∧ c.isDigit = true) ∧ readNumeral? (numeralText n ++ rest) = some (n, rest) := by
  have hparts : ∀ {w f cs x} (y : Binary64), Parts w f x cs → Digits w → (∀ c ∈ f, c.isDigit = true) →
      Binary64.ofDecimal false (Nat.ofDigitChars 10 (w ++ f) 0) (x - f.length) = y →
      (∃ c t, textOf cs = .char c :: t ∧ c.isDigit = true) ∧ readNumeral? (textOf cs ++ rest) = some (.float y, rest) := by
    intro w f cs x y hp hw hf hval
    refine ⟨exists_cons_of_parts hp hw, ?_⟩
    rw [readNumeral?_parts hp hw hf hr, Binary64.value_textOf false hw.digits hf, hval]
  rcases n with (k | k) | (_ | s | ⟨s, r⟩)
  · have hw := digits_toDigits k
    have htext : numeralText (.int (.ofNat k)) = textOf (Nat.toDigits 10 k) := rfl
    have hval : digitsValue (textOf (Nat.toDigits 10 k)) = k := digitsValue_ofNat k
    obtain ⟨c, cs, hcs⟩ := List.exists_cons_of_ne_nil hw.nonempty
    rw [htext]
    constructor
    · exact ⟨c, textOf cs, by rw [hcs]; rfl, hw.digits c (hcs ▸ List.mem_cons_self)⟩
    · rw [readNumeral?_whole hw (hr.head rfl) (hr.head (by decide)) (readExponent_none (hr.head (by decide))), if_pos rfl,
        hval]
      rfl
  · cases hn
  · cases hn
  · cases s with
    | true => cases hn
    | false =>
      have hp : Parts ['1'] [] 999 ['1', 'e', '+', '9', '9', '9'] :=
        .scientific 999 ['9', '9', '9'] (by simp) (by simp) rfl
      exact hparts (.infinite false) hp ⟨by simp, by simp, by simp⟩ (by simp) rfl
  · cases s with
    | true => cases hn
    | false =>
      obtain ⟨w, f, x, hp, hw, hf, hval⟩ := Binary64.parts_magnitude false r
      exact hparts _ hp hw hf hval

/-! ### String literals -/

/-- A symbol is a quote of a literal. -/
def IsQuote (quote : Char) : Prop := quote = '"' ∨ quote = '\''

/-- A backslash and a symbol that is not written by its number. -/
theorem readLiteral_escaped {s : Symbol} (hs : s ≠ .char 'u') (quote : Char) (opening t : Text) :
    readLiteral quote opening (.char '\\' :: s :: t) = prepend (resolveEscape s) (readLiteral quote opening t) := by
  rw [readLiteral]
  · intro a b c d rest hu
    exact absurd hu hs
  · exact hs

/-- The closing quote. -/
theorem readLiteral_quote {quote : Char} (hq : IsQuote quote) (opening t : Text) :
    readLiteral quote opening (.char quote :: t) = .ok ([], t) := by
  rcases hq with rfl | rfl <;> simp [readLiteral]

/-- A symbol that stands for itself. -/
theorem readLiteral_plain {quote : Char} {s : Symbol} (hq : s ≠ .char quote) (hb : s ≠ .char '\\')
    (hn : s ≠ .char '\n') (opening t : Text) :
    readLiteral quote opening (s :: t) = prepend s (readLiteral quote opening t) := by
  rw [readLiteral, if_neg hq, if_neg hn]
  all_goals simp [hb]

/-- The way a symbol is written in a literal: with a backslash before it if it is a backslash or a quote of the literal,
and as a letter behind one if it is the end of a line. -/
def escape (quote : Char) (s : Symbol) : Text :=
  if s = .char '\n' then [.char '\\', .char 'n']
  else if s = .char '\\' ∨ s = .char quote then [.char '\\', s]
  else [s]

/-- The way a text is written between the quotes of a literal. -/
def written (quote : Char) (t : Text) : Text := t.flatMap (escape quote)

/-- A symbol is read back from the way it is written. -/
theorem readLiteral_escape {quote : Char} (hq : IsQuote quote) (opening more : Text) (s : Symbol) :
    readLiteral quote opening (escape quote s ++ more) = prepend s (readLiteral quote opening more) := by
  unfold escape
  by_cases hbreak : s = .char '\n'
  · rw [if_pos hbreak, hbreak]
    exact readLiteral_escaped (by decide) quote opening more
  · rw [if_neg hbreak]
    by_cases hself : s = .char '\\' ∨ s = .char quote
    · rw [if_pos hself]
      have hs : s ≠ .char 'u' ∧ resolveEscape s = s := by
        rcases hq with rfl | rfl <;> rcases hself with rfl | rfl <;> exact ⟨by decide, rfl⟩
      have hread := readLiteral_escaped hs.1 quote opening more
      rwa [hs.2] at hread
    · rw [if_neg hself]
      rw [not_or] at hself
      exact readLiteral_plain hself.2 hself.1 hbreak opening more

/-- **A text is read back from its string literal.** -/
theorem readLiteral_written {quote : Char} (hq : IsQuote quote) (opening t rest : Text) :
    readLiteral quote opening (written quote t ++ .char quote :: rest) = .ok (t, rest) := by
  induction t with
  | nil => exact readLiteral_quote hq opening rest
  | cons s t ih =>
    rw [written] at ih ⊢
    rw [List.flatMap_cons, List.append_assoc, readLiteral_escape hq, ih, prepend]

/-- Printed literals stand between double quotes. -/
theorem flatMap_escapeSymbol (t : Text) : t.flatMap escapeSymbol = written '"' t := by
  have hescape : escapeSymbol = escape '"' := by
    funext s
    unfold escapeSymbol escape
    split
    · rfl
    · rfl
    · rfl
    · simp_all
  rw [hescape, written]

/-! ### Lexemes -/

/-- A number starts with a digit, unless it starts with a point. -/
theorem startsNumber_cons {s : Symbol} (hs : s ≠ .char '.') (t : Text) : startsNumber (s :: t) = s.isDigit := by
  unfold startsNumber
  split
  · rename_i heq
    exact absurd (List.cons.inj heq).1 hs
  · rename_i heq
    rw [(List.cons.inj heq).1]
  · rename_i heq
    cases heq

/-- What starts a name can be seen, and starts no number. -/
theorem starts_of_startsName {s : Symbol} (h : startsName s = true) (t : Text) :
    isVisible s = true ∧ startsNumber (s :: t) = false := by
  cases s with
  | surrogate n => cases h
  | char c =>
    have hrange : c.toNat = 36 ∨ c.toNat = 95 ∨ (65 ≤ c.toNat ∧ c.toNat ≤ 90) ∨ (97 ≤ c.toNat ∧ c.toNat ≤ 122) := by
      simp only [startsName, Bool.or_eq_true, beq_iff_eq] at h
      rcases h with (h | rfl) | rfl
      · exact .inr (.inr (Symbol.range_of_isAlpha h))
      · exact .inr (.inl rfl)
      · exact .inl rfl
    have hv : isVisible (.char c) = true := by
      simp only [isVisible, Bool.and_eq_true, decide_eq_true_eq]
      omega
    have hpoint : Symbol.char c ≠ .char '.' := by
      intro hc
      rw [Symbol.char.inj hc] at hrange
      exact absurd hrange (by decide)
    exact ⟨hv, (startsNumber_cons hpoint t).trans (Symbol.isDigit_of_isVisible hv (by omega))⟩

/-- **A plain lexeme is read again**, and its text does not start with a blank. -/
theorem readLexeme_print {l : Lexeme} (hl : l.isPlain = true) {rest : Text} (hr : EndsLexeme rest) :
    (∃ s t, l.print = s :: t ∧ s.isBlank = false) ∧ readLexeme (l.print ++ rest) = .ok (l, rest) := by
  cases l with
  | number n =>
    obtain ⟨⟨c, t, htext, hc⟩, hread⟩ := readNumeral?_numeralText hl hr
    have hpoint : Symbol.char c ≠ .char '.' := by
      rintro heq
      rw [Symbol.char.inj heq] at hc
      exact absurd hc (by decide)
    have hstart : startsNumber (.char c :: (t ++ rest)) = true :=
      (startsNumber_cons hpoint _).trans (Symbol.isDigit_char hc)
    rw [Lexeme.print]
    rw [htext, List.cons_append] at hread ⊢
    constructor
    · exact ⟨_, t, rfl, Symbol.isBlank_of_isVisible (Symbol.isVisible_of_isDigit hc)⟩
    · rw [readLexeme, if_pos hstart, hread]
  | string t =>
    constructor
    · exact ⟨_, _, rfl, rfl⟩
    · have hread := readLiteral_written (.inl rfl) (.char '"' :: (t.flatMap escapeSymbol ++ .char '"' :: rest)) t rest
      rw [← flatMap_escapeSymbol] at hread
      have htext : (Lexeme.string t).print ++ rest = .char '"' :: (t.flatMap escapeSymbol ++ .char '"' :: rest) := by
        simp [Lexeme.print]
      rw [htext, readLexeme, startsNumber_cons (by decide), if_neg (by decide), if_neg (by decide)]
      dsimp only
      rw [hread]
      rfl
  | word t =>
    cases t with
    | nil => cases hl
    | cons s t =>
      rw [Lexeme.isPlain, isName, Bool.and_eq_true, List.all_eq_true] at hl
      obtain ⟨hv, hstart⟩ := starts_of_startsName hl.1 (t ++ rest)
      have hall : ∀ r ∈ s :: t, continuesName r = true :=
        List.forall_mem_cons.2 ⟨continuesName_of_startsName hl.1, hl.2⟩
      obtain ⟨h₁, h₂⟩ := takeWhile_run hall (hr.head rfl)
      rw [Lexeme.print]
      constructor
      · exact ⟨s, t, rfl, Symbol.isBlank_of_isVisible hv⟩
      · rw [List.cons_append] at h₁ h₂ ⊢
        rw [readLexeme, hstart, if_neg (by decide), if_pos hl.1, h₁, h₂]
  | punct p =>
    constructor
    · cases p <;> exact ⟨_, _, rfl, by decide⟩
    · rcases rest with _ | ⟨s, rest⟩
      · cases p <;> rfl
      · rw [hr s rfl]
        cases p <;> rfl

/-! ### Texts -/

theorem printLexemes_cons (l : Lexeme) (used : List Lexeme) :
    printLexemes (l :: used) = l.print ++ (if used = [] then [] else .char ' ' :: printLexemes used) := by
  cases used with
  | nil => simp [printLexemes, Text.join]
  | cons l' used =>
    rw [if_neg (List.cons_ne_nil _ _), printLexemes, List.map_cons, List.map_cons, Text.join]
    · exact List.append_assoc _ _ _
    · exact List.cons_ne_nil _ _

/-- Lexing goes on after a lexeme that was printed. -/
theorem lexFrom_print {l : Lexeme} (hl : l.isPlain = true) {rest : Text} (hr : EndsLexeme rest) (total fuel : Nat)
    {ts : List Token} (hts : lexFrom total fuel rest = .ok ts) :
    ∃ position, lexFrom total (fuel + 1) (l.print ++ rest) = .ok (⟨l, position⟩ :: ts) := by
  obtain ⟨⟨s, t, htext, hs⟩, hread⟩ := readLexeme_print hl hr
  rw [htext, List.cons_append] at hread ⊢
  refine ⟨total - (s :: (t ++ rest)).length, ?_⟩
  rw [lexFrom, hs]
  simp only [hread, hts, Bool.false_eq_true, if_false]

/-- **Plain lexemes are read again from the text that they are printed as.** -/
theorem lex_printLexemes {used : List Lexeme} (h : ∀ l ∈ used, l.isPlain = true) :
    ∃ ts, lex (printLexemes used) = .ok ts ∧ lexemes ts = used := by
  have hfrom : ∀ total fuel, (printLexemes used).length ≤ fuel →
      ∃ ts, lexFrom total fuel (printLexemes used) = .ok ts ∧ lexemes ts = used := by
    intro total
    induction used with
    | nil =>
      intro fuel _
      refine ⟨[], ?_, rfl⟩
      cases fuel <;> rfl
    | cons l used ih =>
      intro fuel hfuel
      rw [List.forall_mem_cons] at h
      obtain ⟨s, t, htext, -⟩ := (readLexeme_print h.1 endsLexeme_nil).1
      rw [printLexemes_cons] at hfuel ⊢
      split_ifs at hfuel ⊢ with hnil
      · subst hnil
        rw [htext, List.append_nil, List.length_cons] at hfuel
        obtain ⟨fuel, rfl⟩ := Nat.exists_eq_add_of_le' (Nat.le_of_add_left_le hfuel)
        have hempty : lexFrom total fuel [] = .ok [] := by cases fuel <;> rfl
        obtain ⟨position, hlex⟩ := lexFrom_print h.1 endsLexeme_nil total fuel hempty
        exact ⟨_, hlex, rfl⟩
      · rw [List.length_append, List.length_cons, htext, List.length_cons] at hfuel
        obtain ⟨fuel, rfl⟩ : ∃ k, fuel = k + 2 := ⟨fuel - 2, by omega⟩
        obtain ⟨ts, hts, hused⟩ := ih h.2 fuel (by omega)
        have hspace : lexFrom total (fuel + 1) (.char ' ' :: printLexemes used) = .ok ts := by
          rw [lexFrom]
          exact hts
        obtain ⟨position, hlex⟩ := lexFrom_print h.1 (endsLexeme_space _) total (fuel + 1) hspace
        exact ⟨_, hlex, by rw [lexemes_cons, hused]⟩
  exact hfrom _ _ le_rfl

end Expression

end EventPipeline
