import EventPipeline.Proofs.Expression.Cursor
import EventPipeline.Proofs.Expression.Munching
import Mathlib

/-!
# Texts that do not compile

Every text compiles or is refused as the syntax of an expression, at a position in it or at its end (`compile_safe`).
There is one exception: a digit that is no decimal one starts a number for the lexer, which is then not there. Lexing
and parsing come to their end by themselves; for the parser that is said of the machine that works with a cursor.
-/

namespace EventPipeline

namespace Expression

/-! ### Signs that are digits and no numbers -/

/-- A digit that is no decimal one. -/
def IsLoose (s : Symbol) : Prop := s.isDigit = true ∧ s.isDecimal = false

theorem loose_of_readNumeral? {t : Text} (hstart : startsNumber t = true) (h : readNumeral? t = none) :
    ∃ s ∈ t, IsLoose s := by
  obtain ⟨hwhole, hfraction⟩ := readNumeral?_eq_none h
  have hfirst : ∀ {s : Symbol} {u : Text}, (s :: u).takeWhile Symbol.isDecimal = [] → s.isDecimal = false := by
    intro s u hu
    by_contra hs
    simp [List.takeWhile_cons, hs] at hu
  unfold startsNumber at hstart
  split at hstart
  · rename_i d u
    exact ⟨d, by simp, hstart, hfirst (hfraction _ rfl)⟩
  · rename_i s u _
    exact ⟨s, by simp, hstart, hfirst hwhole⟩
  · cases hstart

theorem readLiteral_ne_looseDigit {quote : Char} {opening t left : Text} :
    readLiteral quote opening t ≠ .error (.looseDigit left) := by
  have hprepend : ∀ {s : Symbol} {r : Except LexError (Text × Text)},
      r ≠ .error (.looseDigit left) → prepend s r ≠ .error (.looseDigit left) := by
    intro s r hr
    cases r with
    | error e => simpa [prepend] using hr
    | ok p => simp [prepend]
  fun_induction readLiteral quote opening t with
  | case3 _ _ _ _ _ _ _ ih => exact hprepend ih
  | case6 _ _ _ _ ih => exact hprepend ih
  | case9 _ _ _ _ _ _ _ _ ih => exact hprepend ih
  | _ => simp

theorem loose_of_readLexeme {t left : Text} (h : readLexeme t = .error (.looseDigit left)) : ∃ s ∈ t, IsLoose s := by
  have hliteral : ∀ {quote : Char} {opening u : Text},
      (readLiteral quote opening u).map (fun read => (Lexeme.string read.1, read.2)) ≠
        .error (.looseDigit left) := by
    intro quote opening u hmap
    cases hread : readLiteral quote opening u with
    | error e =>
      rw [hread] at hmap
      cases hmap
      exact readLiteral_ne_looseDigit hread
    | ok p => simp [hread, Except.map] at hmap
  unfold readLexeme at h
  cases t with
  | nil => cases h
  | cons s u =>
    dsimp only at h
    split_ifs at h with hnumber
    · cases hread : readNumeral? (s :: u) with
      | none => exact loose_of_readNumeral? hnumber hread
      | some p => simp [hread] at h
    · split at h
      · exact absurd h hliteral
      · exact absurd h hliteral
      · split at h <;> cases h

/-- Only a sign that is a digit and no decimal one can break the lexer. -/
theorem loose_of_lexFrom {total fuel : Nat} {t left : Text} (h : lexFrom total fuel t = .error (.looseDigit left)) :
    ∃ s ∈ t, IsLoose s := by
  fun_induction lexFrom total fuel t with
  | case1 => cases h
  | case2 => cases h
  | case3 fuel s rest hblank ih =>
    obtain ⟨s', hs', hloose⟩ := ih h
    exact ⟨s', List.mem_cons_of_mem _ hs', hloose⟩
  | case4 fuel s rest hblank e he =>
    rw [he] at h
    cases h
    exact loose_of_readLexeme he
  | case5 fuel s rest hblank lexeme more e he hread ih =>
    rw [hread] at h
    simp only [he] at h
    cases h
    obtain ⟨s', hs', hloose⟩ := ih he
    obtain ⟨spelled, -, hrest, -⟩ := readLexeme_spells hread
    rw [hrest]
    exact ⟨s', List.mem_append_right _ hs', hloose⟩
  | case6 fuel s rest hblank lexeme more tokens htokens hread =>
    rw [hread] at h
    simp only [htokens] at h
    cases h

/-- A text that does not compile has no tokens, or its tokens are no expression, or the tree is too high. -/
theorem compile_error {t : Text} {e : SyntaxError} (h : compile t = .error e) :
    (∃ l, lex t = .error l ∧ e = .lexical l) ∨
      (∃ tokens g, lex t = .ok tokens ∧ parseTokens tokens = .error g ∧ e = .grammatical g) ∨ e = .tooHigh := by
  unfold compile parse at h
  split at h
  · rename_i l hlex
    cases h
    exact .inl ⟨l, hlex, rfl⟩
  · rename_i tokens hlex
    split at h
    · rename_i g hparse
      cases h
      exact .inr (.inl ⟨tokens, g, hlex, hparse, rfl⟩)
    · split_ifs at h
      · cases h
        exact .inr (.inr rfl)
      · cases h

theorem compile_of_lex_error {t : Text} {e : LexError} (h : lex t = .error e) : compile t = .error (.lexical e) := by
  simp [compile, parse, h, Except.map]

/-! ### Where a failure is -/

variable {t : Text} {tokens : List Token}

theorem LexError.toFailure_eq {l : LexError} (h : ∀ left, l ≠ .looseDigit left) :
    ∃ message details position,
      l.toFailure t = syntaxFailure message details (some position) ∧ position ≤ t.length := by
  cases l with
  | badEscape left => exact ⟨_, _, _, rfl, Nat.sub_le ..⟩
  | unterminated left => exact ⟨_, _, _, rfl, Nat.sub_le ..⟩
  | unexpected s left => exact ⟨_, _, _, rfl, Nat.sub_le ..⟩
  | looseDigit left => exact absurd rfl (h left)

theorem ParseError.toFailure_eq {g : ParseError} (hg : g.LiesIn tokens) (hlex : lex t = .ok tokens) :
    ∃ message details position,
      g.toFailure t = syntaxFailure message details (some position) ∧ position ≤ t.length := by
  cases g with
  | unexpected complaint left =>
    refine ⟨_, _, _, rfl, ?_⟩
    cases left with
    | nil => exact le_rfl
    | cons token left => exact (position_lt_of_lex hlex token (hg.subset List.mem_cons_self)).le
  | arity f count position =>
    obtain ⟨token, hmem, rfl⟩ := hg
    exact ⟨_, _, _, rfl, (position_lt_of_lex hlex token hmem).le⟩

/-- **Every text compiles or is refused at a position in it**, if all its digits are decimal. The lexer and the parser
come to their end: the rounds of the lexer are enough, and a machine that parses with a cursor needs no more rounds and
calls than are said here. From any place and depth each form of an expression ends further on, not beyond the end, at
the same depth and with the tree that the parser gives, or in a complaint about the tokens, which is that of the parser;
so it never reads where no token is, gets past a complaint or runs on. -/
theorem compile_safe (hdigits : ∀ s ∈ t, ¬ IsLoose s) :
    ((∃ e, compile t = .ok e) ∨ ∃ e message details position, compile t = .error e ∧
      e.toFailure t = syntaxFailure message details (some position) ∧ position ≤ t.length) ∧
    (∀ fuel, t.length ≤ fuel → lexFrom t.length fuel t = lex t) ∧
    ∀ tokens, lex t = .ok tokens → ∀ rounds calls, tokens.length < rounds →
      (enoughCalls 0 ≤ calls →
        (Step.whole tokens rounds calls ⟨0, 0⟩).1 = (parseTokens tokens).mapError .raised) ∧
      ∀ (f : Form) (i depth : Nat), i ≤ tokens.length → enoughCalls depth ≤ calls →
        (∃ e j, i < j ∧ j ≤ tokens.length ∧ f.step tokens rounds calls ⟨i, depth⟩ = (.ok e, ⟨j, depth⟩) ∧
          f.parser (maxNesting - depth) (tokens.drop i) = .ok (e, tokens.drop j)) ∨
        ∃ g c, g.LiesIn tokens ∧ f.step tokens rounds calls ⟨i, depth⟩ = (.error (.raised g), c) ∧
          f.parser (maxNesting - depth) (tokens.drop i) = .error g := by
  refine ⟨?_, fun fuel hfuel => lexFrom_fuel hfuel le_rfl, fun tokens hlex rounds calls hrounds => ⟨?_, ?_⟩⟩
  · cases h : compile t with
    | ok e => exact .inl ⟨e, rfl⟩
    | error e =>
      refine .inr ⟨e, ?_⟩
      obtain ⟨l, hlex, rfl⟩ | ⟨tokens, g, hlex, hparse, rfl⟩ | rfl := compile_error h
      · have hloose : ∀ left, l ≠ .looseDigit left := by
          rintro left rfl
          obtain ⟨s, hs, hloose⟩ := loose_of_lexFrom hlex
          exact hdigits s hs hloose
        obtain ⟨message, details, position, hfailure, hle⟩ := LexError.toFailure_eq (t := t) hloose
        exact ⟨message, details, position, rfl, hfailure, hle⟩
      · have hg := (whole_eq (Nat.lt_succ_self _) (Nat.le_refl _)).2 g hparse
        obtain ⟨message, details, position, hfailure, hle⟩ := ParseError.toFailure_eq hg hlex
        exact ⟨message, details, position, rfl, hfailure, hle⟩
      · exact ⟨_, _, 0, rfl, rfl, Nat.zero_le _⟩
  · exact fun hcalls => (whole_eq hrounds hcalls).1
  · intro f i depth hi hcalls
    have hform := Form.tracks hrounds hcalls f i hi
    generalize f.step tokens rounds calls ⟨i, depth⟩ = out at hform ⊢
    generalize f.parser (maxNesting - depth) (tokens.drop i) = result at hform ⊢
    cases hform with
    | @ok e j hlow hj => exact .inl ⟨e, j, hlow, hj, rfl, rfl⟩
    | @error g c hg => exact .inr ⟨g, c, hg, rfl, rfl⟩

/-- A text that ends behind a point, with a decimal digit that is not one of ASCII. -/
theorem compile_safe_unfinished :
    (∀ s ∈ ("[٣, event." : Text), ¬ IsLoose s) ∧
    (∃ e message details position, compile "[٣, event." = .error e ∧
      e.toFailure "[٣, event." = syntaxFailure message details (some position) ∧ position ≤ 10) ∧
    ∃ tokens, lex "[٣, event." = .ok tokens ∧
      (Step.whole tokens 6 102 ⟨0, 0⟩).1 = .error (.raised (.unexpected .propertyName [])) := by
  have hdigits : ∀ s ∈ ("[٣, event." : Text), ¬ IsLoose s := by
    unfold IsLoose
    decide +kernel
  have hlex : lex "[٣, event." = .ok [⟨.punct .openBracket, 0⟩, ⟨.number (.int 3), 1⟩, ⟨.punct .comma, 2⟩,
      ⟨.word "event", 4⟩, ⟨.punct .dot, 9⟩] := by
    cbv
  have hparse : parseTokens [⟨.punct .openBracket, 0⟩, ⟨.number (.int 3), 1⟩, ⟨.punct .comma, 2⟩,
      ⟨.word "event", 4⟩, ⟨.punct .dot, 9⟩] = .error (.unexpected .propertyName []) := by
    rfl
  obtain ⟨⟨e, he⟩ | hrefused, -, hmachine⟩ := compile_safe hdigits
  · rw [compile, parse, hlex] at he
    simp only [hparse] at he
    cases he
  · have hwhole := (hmachine _ hlex 6 102 (by decide)).1 (by decide)
    rw [hparse] at hwhole
    exact ⟨hdigits, hrefused, _, hlex, hwhole⟩

end Expression

end EventPipeline
