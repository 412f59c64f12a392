import EventPipeline.Expression.Basic
import EventPipeline.Proofs.Expression.Numerals
import EventPipeline.Proofs.Expression.Rereading

/-!
# Lexemes as long as they can be

The tokens of a text stand one after the other in it, and between them are blanks only. Every lexeme is the longest text
of its syntax that the rest of the text starts with, and a literal is the only one there (`Spells`). The loop that cuts
the text is followed from position to position (`Chopped`): a blank takes it one position on, a lexeme takes it behind
its last symbol, and it ends at the end of the text. What is said of the whole text follows by induction on this
(`lex_munches`).
-/

namespace EventPipeline

namespace Expression

/-! ### String literals -/

/-- What stands between the quotes of a literal. A quote of its kind or the end of a line stands there only right behind
a backslash. -/
inductive Within (quote : Char) : Text → Prop where
  /-- Nothing. -/
  | nil : Within quote []
  /-- A symbol that stands for itself. -/
  | plain {s : Symbol} {body : Text} (hq : s ≠ .char quote) (hb : s ≠ .char '\\') (hn : s ≠ .char '\n') :
    Within quote body → Within quote (s :: body)
  /-- A backslash and any symbol. -/
  | escaped {s : Symbol} {body : Text} : Within quote body → Within quote (.char '\\' :: s :: body)

/-- A literal runs from a quote to the next one of its kind that is not escaped, on one line. -/
def IsLiteral (u : Text) : Prop :=
  ∃ quote body, IsQuote quote ∧ Within quote body ∧ u = .char quote :: (body ++ [.char quote])

/-- A hexadecimal digit stands for itself in a literal. -/
theorem plain_of_hexDigit {quote : Char} (hq : IsQuote quote) {s : Symbol} (h : s.hexValue?.isSome = true) :
    s ≠ .char quote ∧ s ≠ .char '\\' ∧ s ≠ .char '\n' := by
  have hother : ∀ c : Char, (Symbol.char c).hexValue?.isSome = false → s ≠ .char c := by
    intro c hc he
    rw [he, hc] at h
    cases h
  refine ⟨?_, hother '\\' (by decide), hother '\n' (by decide)⟩
  rcases hq with rfl | rfl
  · exact hother '"' (by decide)
  · exact hother '\'' (by decide)

theorem Within.hex {quote : Char} (hq : IsQuote quote) {s : Symbol} (h : s.hexValue?.isSome = true) {body : Text}
    (hbody : Within quote body) : Within quote (s :: body) :=
  have ⟨hquote, hslash, hbreak⟩ := plain_of_hexDigit hq h
  .plain hquote hslash hbreak hbody

theorem isSome_of_hexValue4? {a b c d : Symbol} {n : Nat} (h : hexValue4? a b c d = some n) :
    a.hexValue?.isSome ∧ b.hexValue?.isSome ∧ c.hexValue?.isSome ∧ d.hexValue?.isSome := by
  unfold hexValue4? at h
  split at h
  · simp [*]
  · cases h

theorem prepend_ok {s : Symbol} {r : Except LexError (Text × Text)} {content rest : Text}
    (h : prepend s r = .ok (content, rest)) : ∃ content', r = .ok (content', rest) ∧ s :: content' = content := by
  cases r with
  | error e => cases h
  | ok p =>
    cases h
    exact ⟨_, rfl, rfl⟩

/-- **A literal is read to its closing quote**, and what it says does not depend on what follows. -/
theorem readLiteral_within {quote : Char} (hq : IsQuote quote) {opening t content rest : Text}
    (h : readLiteral quote opening t = .ok (content, rest)) :
    ∃ body, t = body ++ .char quote :: rest ∧ Within quote body ∧
      ∀ opening' rest', readLiteral quote opening' (body ++ .char quote :: rest') = .ok (content, rest') := by
  fun_induction readLiteral quote opening t generalizing content with
  | case1 => cases h
  | case2 => cases h
  | case3 a b c d t n hn ih =>
    obtain ⟨content', hmore, rfl⟩ := prepend_ok h
    obtain ⟨body, rfl, hbody, hread⟩ := ih hmore
    obtain ⟨ha, hb, hc, hd⟩ := isSome_of_hexValue4? hn
    refine ⟨.char '\\' :: .char 'u' :: a :: b :: c :: d :: body, rfl, .escaped ?_, ?_⟩
    · exact .hex hq ha (.hex hq hb (.hex hq hc (.hex hq hd hbody)))
    · intro opening' rest'
      simp only [List.cons_append, readLiteral, hn, hread, prepend]
  | case4 => cases h
  | case5 => cases h
  | case6 s t _ hother ih =>
    obtain ⟨content', hmore, rfl⟩ := prepend_ok h
    obtain ⟨body, rfl, hbody, hread⟩ := ih hmore
    refine ⟨.char '\\' :: s :: body, rfl, .escaped hbody, ?_⟩
    intro opening' rest'
    rw [List.cons_append, List.cons_append, readLiteral_escaped hother, hread, prepend]
  | case7 s t =>
    cases h
    refine ⟨[], rfl, .nil, ?_⟩
    intro opening' rest'
    exact readLiteral_quote hq opening' rest'
  | case8 => cases h
  | case9 s t hend _ _ hescape hquote hbreak ih =>
    obtain ⟨content', hmore, rfl⟩ := prepend_ok h
    obtain ⟨body, rfl, hbody, hread⟩ := ih hmore
    have hslash : s ≠ .char '\\' := by
      intro hs
      cases hbody with
      | nil => exact hescape _ _ hs rfl
      | plain => exact hescape _ _ hs rfl
      | escaped => exact hescape _ _ hs rfl
    refine ⟨s :: body, rfl, .plain hquote hslash hbreak hbody, ?_⟩
    intro opening' rest'
    rw [List.cons_append, readLiteral_plain hquote hslash hbreak, hread, prepend]

/-- The content of a literal ends at the first quote that is not escaped. -/
theorem Within.eq_of_append {quote : Char} (hq : IsQuote quote) {b b' x y : Text} (hb : Within quote b)
    (hb' : Within quote b') (h : b ++ .char quote :: x = b' ++ .char quote :: y) : b = b' := by
  have hslash : Symbol.char quote ≠ .char '\\' := by
    rcases hq with rfl | rfl <;> decide
  induction hb generalizing b' with
  | nil =>
    cases hb' with
    | nil => rfl
    | plain hne => exact absurd (List.cons.inj h).1.symm hne
    | escaped => exact absurd (List.cons.inj h).1 hslash
  | plain hne hns _ _ ih =>
    cases hb' with
    | nil => exact absurd (List.cons.inj h).1 hne
    | plain _ _ _ hb' =>
      obtain ⟨rfl, hmore⟩ := List.cons.inj h
      rw [ih hb' hmore]
    | escaped => exact absurd (List.cons.inj h).1 hns
  | escaped _ ih =>
    cases hb' with
    | nil => exact absurd (List.cons.inj h).1.symm hslash
    | plain _ hns => exact absurd (List.cons.inj h).1.symm hns
    | escaped hb' =>
      obtain ⟨-, hmore⟩ := List.cons.inj h
      obtain ⟨rfl, hlast⟩ := List.cons.inj hmore
      rw [ih hb' hlast]

/-- A text starts with one literal at most. -/
theorem IsLiteral.eq_of_prefix {t u v : Text} (hu : IsLiteral u) (hut : u <+: t) (hv : IsLiteral v) (hvt : v <+: t) :
    v = u := by
  obtain ⟨quote, b, hq, hb, rfl⟩ := hu
  obtain ⟨quote', b', -, hb', rfl⟩ := hv
  obtain ⟨x, rfl⟩ := hut
  obtain ⟨y, hy⟩ := hvt
  simp only [List.cons_append, List.append_assoc, List.nil_append] at hy
  obtain ⟨hquote, hrest⟩ := List.cons.inj hy
  cases hquote
  rw [hb.eq_of_append hq hb' hrest.symm]

/-! ### What a lexeme is spelled as -/

/-- A lexeme is spelled as the longest text of its syntax that a text starts with. A number is an integer if and only if
there is neither a point nor an exponent in it; a literal is the only one there. -/
def Spells (t u : Text) : Lexeme → Prop
  | .number n => Longest IsNumeral t u ∧ ((∃ k, n = .int k) ↔ ∀ s ∈ u, s ≠ .char '.' ∧ ¬ IsLetter s)
  | .word w => w = u ∧ Longest (fun v => isName v = true) t u
  | .punct p => p.text = u ∧ Longest (fun v => ∃ q : Punct, q.text = v) t u
  | .string _ => IsLiteral u ∧ ∀ v, v <+: t → IsLiteral v → v = u

/-- **The longest name is read.** -/
theorem longest_name {s : Symbol} (hs : startsName s = true) (t : Text) :
    Longest (fun v => isName v = true) (s :: t) ((s :: t).takeWhile continuesName) := by
  refine ⟨List.takeWhile_prefix _, ?_, ?_⟩
  · rw [List.takeWhile_cons_of_pos (continuesName_of_startsName hs), isName, hs, Bool.true_and, List.all_eq_true]
    intro r hr
    exact List.mem_takeWhile_imp hr
  · intro v hv hname
    apply (prefix_takeWhile hv _).length_le
    cases v with
    | nil => simp
    | cons r v =>
      rw [isName, Bool.and_eq_true, List.all_eq_true] at hname
      exact List.forall_mem_cons.2 ⟨continuesName_of_startsName hname.1, hname.2⟩

/-- No punctuator is shorter than one that comes after it in the list. -/
theorem pairwise_all : Punct.all.Pairwise fun p q => q.text.length ≤ p.text.length := by
  decide

theorem after?_eq_some_iff {t lead rest : Text} : t.after? lead = some rest ↔ t = lead ++ rest := by
  unfold Text.after?
  by_cases h : lead.isPrefixOf t = true
  · obtain ⟨r, rfl⟩ := List.isPrefixOf_iff_prefix.1 h
    rw [if_pos h, List.drop_left, List.append_cancel_left_eq, Option.some.injEq]
  · rw [if_neg h]
    constructor
    · intro he
      cases he
    · rintro rfl
      exact absurd (List.isPrefixOf_iff_prefix.2 (List.prefix_append lead rest)) h

/-- **The longest punctuator is read.** -/
theorem readPunct?_longest {t rest : Text} {p : Punct} (h : readPunct? t = some (p, rest)) :
    t = p.text ++ rest ∧ Longest (fun v => ∃ q : Punct, q.text = v) t p.text := by
  obtain ⟨before, q, after, hall, hq, hbefore⟩ := List.findSome?_eq_some_iff.1 h
  obtain ⟨r, hr, hpair⟩ := Option.map_eq_some_iff.1 hq
  cases hpair
  have ht : t = p.text ++ rest := after?_eq_some_iff.1 hr
  refine ⟨ht, ⟨rest, ht.symm⟩, ⟨p, rfl⟩, ?_⟩
  rintro v hv ⟨q, rfl⟩
  have hmem := Punct.mem_all q
  have hsorted := pairwise_all
  rw [hall] at hmem hsorted
  rcases List.mem_append.1 hmem with hmem | hmem
  · -- an earlier one would have been taken
    obtain ⟨x, hx⟩ := hv
    have hnone := Option.map_eq_none_iff.1 (hbefore q hmem)
    rw [after?_eq_some_iff.2 hx.symm] at hnone
    cases hnone
  · rcases List.mem_cons.1 hmem with rfl | hmem
    · exact le_rfl
    · exact (List.pairwise_cons.1 (List.pairwise_append.1 hsorted).2.1).1 q hmem

/-- **What is read of a text is spelled there.** -/
theorem readLexeme_spells {t rest : Text} {l : Lexeme} (h : readLexeme t = .ok (l, rest)) :
    ∃ u, u ≠ [] ∧ t = u ++ rest ∧ Spells t u l := by
  have hliteral : ∀ {quote : Char} {v : Text}, IsQuote quote → t = .char quote :: v →
      ((readLiteral quote t v).map fun read => (Lexeme.string read.1, read.2)) = .ok (l, rest) →
      ∃ u, u ≠ [] ∧ t = u ++ rest ∧ Spells t u l := by
    intro quote v hq ht hread
    cases hr : readLiteral quote t v with
    | error e => simp [hr, Except.map] at hread
    | ok p =>
      rw [hr] at hread
      cases hread
      obtain ⟨body, rfl, hbody, -⟩ := readLiteral_within hq hr
      have hl : IsLiteral (.char quote :: (body ++ [.char quote])) := ⟨quote, body, hq, hbody, rfl⟩
      have ht' : t = .char quote :: (body ++ [.char quote]) ++ p.2 := by simp [ht]
      exact ⟨_, by simp, ht', hl, fun v hv hlv => hl.eq_of_prefix ⟨p.2, ht'.symm⟩ hlv hv⟩
  unfold readLexeme at h
  cases t with
  | nil => cases h
  | cons s v =>
    dsimp only at h
    split_ifs at h with hnumber hname
    · cases hread : readNumeral? (s :: v) with
      | none => simp [hread] at h
      | some p =>
        rw [hread] at h
        cases h
        obtain ⟨u, hu, hlong, hint⟩ := readNumeral?_longest hread
        exact ⟨u, hlong.wellFormed.ne_nil, hu, hlong, hint⟩
    · cases h
      have hlong := longest_name hname v
      have hne : (s :: v).takeWhile continuesName ≠ [] := by
        intro hnil
        have hform := hlong.wellFormed
        rw [hnil] at hform
        cases hform
      exact ⟨_, hne, by simp, rfl, hlong⟩
    · split at h
      · exact hliteral (.inl rfl) rfl h
      · exact hliteral (.inr rfl) rfl h
      · cases hread : readPunct? (s :: v) with
        | none => simp [hread] at h
        | some p =>
          rw [hread] at h
          cases h
          obtain ⟨ht, hlong⟩ := readPunct?_longest hread
          exact ⟨p.1.text, by cases p.1 <;> decide, ht, rfl, hlong⟩

/-! ### The loop -/

/-- A token of a text and the position behind its last symbol. -/
structure Span where
  /-- The token. -/
  token : Token
  /-- The position behind its last symbol. -/
  stop : Nat

namespace Span

/-- The position of the first symbol. -/
def start (c : Span) : Nat := c.token.position

/-- The position of a symbol of the lexeme. -/
def Covers (c : Span) (j : Nat) : Prop := c.start ≤ j ∧ j < c.stop

end Span

/-- The loop from a position on: blanks are passed over, lexemes are cut off, and it ends at the end of the text. -/
inductive Chopped (t : Text) : Nat → List Span → Prop where
  /-- The end of the text. -/
  | done : Chopped t t.length []
  /-- A blank. -/
  | blank {i : Nat} {s : Symbol} {spans : List Span} (hs : t[i]? = some s) (hb : s.isBlank = true) :
    Chopped t (i + 1) spans → Chopped t i spans
  /-- A lexeme. -/
  | lexeme {i stop : Nat} {l : Lexeme} {spans : List Span} (hlt : i < stop) (hle : stop ≤ t.length)
    (hl : Spells (t.drop i) (t.extract i stop) l) : Chopped t stop spans → Chopped t i (⟨⟨l, i⟩, stop⟩ :: spans)

/-- **The loop cuts the text to its end**, by induction on the rounds that are left. -/
theorem chopped_of_lexFrom {t : Text} {fuel : Nat} : ∀ {i : Nat} {tokens : List Token}, i ≤ t.length →
    t.length ≤ i + fuel → lexFrom t.length fuel (t.drop i) = .ok tokens →
    ∃ spans, Chopped t i spans ∧ spans.map Span.token = tokens := by
  induction fuel with
  | zero =>
    intro i tokens hi hfuel h
    cases h
    obtain rfl : i = t.length := by omega
    exact ⟨[], .done, rfl⟩
  | succ fuel ih =>
    intro i tokens hi hfuel h
    unfold lexFrom at h
    have hlen : (t.drop i).length = t.length - i := List.length_drop
    cases hdrop : t.drop i with
    | nil =>
      rw [hdrop] at h hlen
      cases h
      obtain rfl : i = t.length := by
        rw [List.length_nil] at hlen
        omega
      exact ⟨[], .done, rfl⟩
    | cons s rest =>
      rw [hdrop] at h hlen
      have hs : t[i]? = some s := by
        rw [← List.head?_drop, hdrop, List.head?_cons]
      dsimp only at h
      split_ifs at h with hblank
      · have hrest : t.drop (i + 1) = rest := by
          rw [← List.tail_drop, hdrop, List.tail_cons]
        rw [← hrest] at h
        rw [List.length_cons] at hlen
        obtain ⟨spans, hspans, htokens⟩ := ih (by omega) (by omega) h
        exact ⟨spans, .blank hs hblank hspans, htokens⟩
      · cases hread : readLexeme (s :: rest) with
        | error e => simp [hread] at h
        | ok p =>
          obtain ⟨l, after⟩ := p
          simp only [hread] at h
          cases hmore : lexFrom t.length fuel after with
          | error e => simp [hmore] at h
          | ok more =>
            simp only [hmore] at h
            cases h
            obtain ⟨u, hu, hcut, hspelled⟩ := readLexeme_spells hread
            have hpos : 0 < u.length := List.length_pos_iff.2 hu
            rw [hcut] at hdrop
            have hafter : t.drop (i + u.length) = after := by
              rw [← List.drop_drop, hdrop, List.drop_left]
            have htext : t.extract i (i + u.length) = u := by
              rw [List.extract_eq_take_drop, hdrop, Nat.add_sub_cancel_left, List.take_left]
            have hstop : u.length + after.length = t.length - i := by
              rw [← hlen, hcut, List.length_append]
            obtain ⟨spans, hspans, hmap⟩ := ih (i := i + u.length) (by omega) (by omega) (hafter.symm ▸ hmore)
            have hposition : t.length - (s :: rest).length = i := by omega
            refine ⟨⟨⟨l, i⟩, i + u.length⟩ :: spans, .lexeme (by omega) (by omega) ?_ hspans, ?_⟩
            · rwa [htext, hdrop, ← hcut]
            · rw [List.map_cons, hmap, hposition]

/-- More rounds than the text has symbols make no difference. -/
theorem lexFrom_fuel {total fuel : Nat} : ∀ {fuel' : Nat} {t : Text}, t.length ≤ fuel → t.length ≤ fuel' →
    lexFrom total fuel t = lexFrom total fuel' t := by
  induction fuel with
  | zero =>
    intro fuel' t h _
    obtain rfl := List.length_eq_zero_iff.1 (Nat.le_zero.1 h)
    cases fuel' <;> rfl
  | succ fuel ih =>
    intro fuel' t h h'
    cases t with
    | nil => cases fuel' <;> rfl
    | cons s rest =>
      cases fuel' with
      | zero => cases h'
      | succ fuel' =>
        rw [List.length_cons] at h h'
        rw [lexFrom, lexFrom]
        by_cases hb : s.isBlank = true
        · rw [if_pos hb, if_pos hb]
          exact ih (by omega) (by omega)
        · rw [if_neg hb, if_neg hb]
          cases hread : readLexeme (s :: rest) with
          | error e => rfl
          | ok p =>
            obtain ⟨u, hu, hcut, -⟩ := readLexeme_spells hread
            have hpos : 0 < u.length := List.length_pos_iff.2 hu
            have hlen := congrArg List.length hcut
            rw [List.length_cons, List.length_append] at hlen
            have hmore : lexFrom total fuel p.2 = lexFrom total fuel' p.2 := ih (by omega) (by omega)
            simp only [hmore]

/-! ### The whole text -/

namespace Chopped

variable {t : Text} {i : Nat} {spans : List Span}

theorem le_length (h : Chopped t i spans) : i ≤ t.length := by
  induction h with
  | done => exact le_rfl
  | blank _ _ _ ih => omega
  | lexeme hlt hle _ _ _ => omega

/-- Every lexeme lies behind the position, has a symbol at least and lies in the text. -/
theorem within (h : Chopped t i spans) : ∀ c ∈ spans, i ≤ c.start ∧ c.start < c.stop ∧ c.stop ≤ t.length := by
  induction h with
  | done => simp
  | blank _ _ _ ih =>
    intro c hc
    have hrest := ih c hc
    omega
  | @lexeme i stop l spans hlt hle _ _ ih =>
    intro c hc
    rcases List.mem_cons.1 hc with rfl | hc
    · exact ⟨le_rfl, hlt, hle⟩
    · have hrest := ih c hc
      omega

/-- Every lexeme ends before the next one starts. -/
theorem ordered (h : Chopped t i spans) : spans.Pairwise fun c d => c.stop ≤ d.start := by
  induction h with
  | done => exact .nil
  | blank _ _ _ ih => exact ih
  | lexeme _ _ _ hmore ih =>
    apply List.pairwise_cons.2
    refine ⟨?_, ih⟩
    intro d hd
    exact (hmore.within d hd).1

theorem spelled (h : Chopped t i spans) :
    ∀ c ∈ spans, Spells (t.drop c.start) (t.extract c.start c.stop) c.token.lexeme := by
  induction h with
  | done => simp
  | blank _ _ _ ih => exact ih
  | lexeme _ _ hl _ ih => exact List.forall_mem_cons.2 ⟨hl, ih⟩

/-- A symbol that no lexeme covers is a blank. -/
theorem covered (h : Chopped t i spans) {j : Nat} (hij : i ≤ j) {s : Symbol} (hs : t[j]? = some s)
    (hout : ∀ c ∈ spans, ¬ c.Covers j) : s.isBlank = true := by
  induction h with
  | done =>
    obtain ⟨hj, -⟩ := List.getElem?_eq_some_iff.1 hs
    omega
  | @blank i s' spans hi hb _ ih =>
    by_cases he : i = j
    · subst he
      rw [hi] at hs
      cases hs
      exact hb
    · exact ih (by omega) hout
  | @lexeme i stop l spans hlt hle _ _ ih =>
    rw [List.forall_mem_cons] at hout
    have hstop : stop ≤ j := by
      by_contra hj
      exact hout.1 ⟨hij, by simpa using hj⟩
    exact ih hstop hout.2

/-- What is left of the tokens starts behind the position, and so does the end. -/
theorem le_positionOf (h : Chopped t i spans) :
    ∀ left, left <:+ spans.map Span.token → i ≤ positionOf t.length left := by
  intro left hleft
  cases left with
  | nil => exact h.le_length
  | cons token left =>
    obtain ⟨c, hc, rfl⟩ := List.mem_map.1 (hleft.subset List.mem_cons_self)
    exact (h.within c hc).1

/-- The positions of the tokens rise, up to the end of the text. -/
theorem increasing (h : Chopped t i spans) :
    ((spans.map Span.token).tails.map (positionOf t.length)).Pairwise (· < ·) := by
  induction h with
  | done => simp
  | blank _ _ _ ih => exact ih
  | lexeme hlt _ _ hmore ih =>
    rw [List.map_cons, List.tails_cons, List.map_cons]
    apply List.pairwise_cons.2
    refine ⟨?_, ih⟩
    intro j hj
    obtain ⟨left, hleft, rfl⟩ := List.mem_map.1 hj
    exact lt_of_lt_of_le hlt (hmore.le_positionOf left ((List.mem_tails left _).1 hleft))

end Chopped

/-- Of spans one after the other only one covers a position. -/
theorem eq_of_covers {spans : List Span} (h : spans.Pairwise fun c d => c.stop ≤ d.start) {j : Nat} {c d : Span}
    (hc : c ∈ spans) (hd : d ∈ spans) (hcj : c.Covers j) (hdj : d.Covers j) : c = d := by
  have hapart : ∀ {a b : Span}, a.stop ≤ b.start → a.Covers j → ¬ b.Covers j := by
    intro a b hab ha hb
    have hlt := ha.2
    have hle := hb.1
    omega
  induction spans with
  | nil => cases hc
  | cons a spans ih =>
    obtain ⟨ha, hrest⟩ := List.pairwise_cons.1 h
    rcases List.mem_cons.1 hc with rfl | hc'
    · rcases List.mem_cons.1 hd with rfl | hd'
      · rfl
      · exact absurd hdj (hapart (ha d hd') hcj)
    · rcases List.mem_cons.1 hd with rfl | hd'
      · exact absurd hcj (hapart (ha c hc') hdj)
      · exact ih hrest hc' hd'

/-- The tokens of a text with the ends of their lexemes. -/
structure Munches (t : Text) (tokens : List Token) (spans : List Span) : Prop where
  /-- They are the tokens, in order. -/
  tokens_eq : spans.map Span.token = tokens
  /-- A lexeme has a symbol at least, and it lies in the text. -/
  within : ∀ c ∈ spans, c.start < c.stop ∧ c.stop ≤ t.length
  /-- Every symbol lies in just one lexeme, or it is a blank between lexemes. -/
  covered : ∀ j s, t[j]? = some s →
    (∃! c, c ∈ spans ∧ c.Covers j) ∨ ((∀ c ∈ spans, ¬ c.Covers j) ∧ s.isBlank = true)
  /-- What stands there is the lexeme, as long as it can be. -/
  spelled : ∀ c ∈ spans, Spells (t.drop c.start) (t.extract c.start c.stop) c.token.lexeme

theorem Chopped.munches {t : Text} {i : Nat} {spans : List Span} (h : Chopped t i spans) (hi : i = 0) :
    Munches t (spans.map Span.token) spans := by
  refine ⟨rfl, fun c hc => (h.within c hc).2, ?_, h.spelled⟩
  intro j s hs
  by_cases hin : ∃ c ∈ spans, c.Covers j
  · obtain ⟨c, hc, hcj⟩ := hin
    refine .inl ⟨c, ⟨hc, hcj⟩, ?_⟩
    rintro d ⟨hd, hdj⟩
    exact eq_of_covers h.ordered hd hc hdj hcj
  · simp only [not_exists, not_and] at hin
    exact .inr ⟨hin, h.covered (hi ▸ Nat.zero_le j) hs hin⟩

/-- A token starts within the text. -/
theorem position_lt_of_lex {t : Text} {tokens : List Token} (h : lex t = .ok tokens) :
    ∀ token ∈ tokens, token.position < t.length := by
  obtain ⟨spans, hspans, rfl⟩ := chopped_of_lexFrom (i := 0) (Nat.zero_le _) (by omega) h
  intro token hmem
  obtain ⟨c, hc, rfl⟩ := List.mem_map.1 hmem
  obtain ⟨-, hlt, hle⟩ := hspans.within c hc
  exact lt_of_lt_of_le hlt hle

/-- **Lossless lexing with lexemes as long as they can be.** The loop comes to its end: it needs no more rounds than the
text has symbols. The positions of what is left of the tokens rise, and the last one, that of the end, is the only one
at the end of the text. Every symbol lies in just one lexeme or is a blank between lexemes, and every lexeme is spelled
as the longest text of its syntax. -/
theorem lex_munches {t : Text} {tokens : List Token} (h : lex t = .ok tokens) :
    (∀ fuel, t.length ≤ fuel → lexFrom t.length fuel t = .ok tokens) ∧
      (tokens.tails.map (positionOf t.length)).Pairwise (· < ·) ∧
      (∀ left, left <:+ tokens → (positionOf t.length left = t.length ↔ left = [])) ∧
      ∃ spans, Munches t tokens spans := by
  have hpositions := position_lt_of_lex h
  obtain ⟨spans, hspans, rfl⟩ := chopped_of_lexFrom (i := 0) (Nat.zero_le _) (by omega) h
  refine ⟨?_, hspans.increasing, ?_, spans, hspans.munches rfl⟩
  · intro fuel hfuel
    rw [← h]
    exact lexFrom_fuel hfuel le_rfl
  · intro left hleft
    cases left with
    | nil => simp [positionOf]
    | cons token left =>
      have hlt : positionOf t.length (token :: left) < t.length := hpositions token (hleft.subset List.mem_cons_self)
      simp [hlt.ne]

/-- Lexemes that overlap in their first symbols: three points before a number with a point at its end, three signs of
equality before two, and a number before a name that starts like an exponent. -/
theorem lex_munches_overlapping :
    ∃ spans, Munches "...1.===== 2ea'\\''"
      [⟨.punct .ellipsis, 0⟩, ⟨.number (.float (Binary64.Numeral.value false ⟨"1", "", 0⟩)), 3⟩, ⟨.punct .strictEq, 5⟩,
        ⟨.punct .eq, 8⟩, ⟨.number (.int 2), 11⟩, ⟨.word "ea", 12⟩, ⟨.string "'", 14⟩] spans :=
  (lex_munches rfl).2.2.2

end Expression

end EventPipeline
