import EventPipeline.Proofs.Expression.Munching
import EventPipeline.Proofs.Expression.Recognition
import EventPipeline.Proofs.Text.Blanks
import Mathlib

/-!
# Blanks between tokens

Blanks between tokens change nothing but positions: they can be put before any token and at the end of a text, and those
around it can be taken off (`blanks_immaterial`). A token is decided with a look at what follows it, and this is
different once a blank stands there. But no syntax except that of literals has a blank in it, and a literal shows where
it ends; so of what follows only the symbols up to the first blank can matter (`readLexeme_follow`), and putting blanks
in makes these fewer.
-/

namespace EventPipeline

namespace Expression

/-! ### No blanks in lexemes -/

theorem IsNumeral.not_blank {u : Text} (h : IsNumeral u) : ∀ s ∈ u, s.isBlank = false := by
  obtain ⟨m, x, rfl, hm, hx⟩ := h
  have hletter : ∀ s, IsLetter s → s.isBlank = false := by
    rintro s (rfl | rfl) <;> decide
  intro s hs
  rcases List.mem_append.1 hs with hs | hs
  · rcases hm.mem hs with hd | rfl
    · exact Symbol.isBlank_of_isDecimal hd
    · decide
  · cases hx with
    | none => cases hs
    | power hl hsign hd =>
      rcases List.mem_cons.1 hs with rfl | hs
      · exact hletter s hl
      · rcases List.mem_append.1 hs with hs | hs
        · rcases hsign with rfl | rfl | rfl
          · cases hs
          · rw [List.mem_singleton.1 hs]
            decide
          · rw [List.mem_singleton.1 hs]
            decide
        · exact Symbol.isBlank_of_isDecimal (hd.2 s hs)

theorem isBlank_of_continuesName {s : Symbol} (h : continuesName s = true) : s.isBlank = false := by
  cases s with
  | surrogate n => rfl
  | char c =>
    simp only [continuesName, Char.isAlphanum, Bool.or_eq_true, beq_iff_eq] at h
    rcases h with ((h | h) | rfl) | rfl
    · have hrange := Symbol.range_of_isAlpha h
      apply Symbol.isBlank_of_isVisible
      simp only [Symbol.isVisible, Bool.and_eq_true, decide_eq_true_eq]
      omega
    · exact Symbol.isBlank_of_isVisible (Symbol.isVisible_of_isDigit h)
    · decide
    · decide

theorem not_blank_of_isName {u : Text} (h : isName u = true) : ∀ s ∈ u, s.isBlank = false := by
  cases u with
  | nil => cases h
  | cons s u =>
    rw [isName, Bool.and_eq_true, List.all_eq_true] at h
    rw [List.forall_mem_cons]
    exact ⟨isBlank_of_continuesName (continuesName_of_startsName h.1), fun r hr => isBlank_of_continuesName (h.2 r hr)⟩

theorem Punct.not_blank (p : Punct) : ∀ s ∈ p.text, s.isBlank = false := by
  cases p <;> decide

theorem Punct.text_injective {p q : Punct} (h : p.text = q.text) : p = q := by
  cases p <;> cases q <;> first | rfl | exact absurd h (by decide)

/-- A lexeme neither starts nor ends with a blank. -/
theorem Spells.ends {t u : Text} {l : Lexeme} (h : Spells t u l) :
    (∀ s, u.head? = some s → s.isBlank = false) ∧ ∀ s, u.getLast? = some s → s.isBlank = false := by
  have hends : ∀ {v : Text}, (∀ s ∈ v, s.isBlank = false) →
      (∀ s, v.head? = some s → s.isBlank = false) ∧ ∀ s, v.getLast? = some s → s.isBlank = false :=
    fun hv => ⟨fun s hs => hv s (List.mem_of_mem_head? hs), fun s hs => hv s (List.mem_of_mem_getLast? hs)⟩
  cases l with
  | number n => exact hends h.1.wellFormed.not_blank
  | word w => exact hends (not_blank_of_isName h.2.wellFormed)
  | punct p => exact hends (h.1 ▸ p.not_blank)
  | string c =>
    obtain ⟨⟨quote, body, hq, -, rfl⟩, -⟩ := h
    have hquote : (Symbol.char quote).isBlank = false := by
      rcases hq with rfl | rfl <;> decide
    constructor
    · rintro s ⟨⟩
      exact hquote
    · intro s hs
      rw [List.getLast?_cons, List.getLast?_append] at hs
      cases hs
      exact hquote

/-! ### What follows a lexeme -/

/-- What a text starts with, up to its first blank. -/
def upToBlank (t : Text) : Text := t.takeWhile fun s => !s.isBlank

theorem prefix_upToBlank {w y : Text} (hw : w <+: y) (hb : ∀ s ∈ w, s.isBlank = false) : w <+: upToBlank y := by
  apply prefix_takeWhile hw
  intro s hs
  rw [hb s hs]
  rfl

theorem Longest.unique {form : Text → Prop} {t u v : Text} (hu : Longest form t u) (hv : Longest form t v) : u = v := by
  have huv := hv.longest u hu.starts hu.wellFormed
  have hvu := hu.longest v hv.starts hv.wellFormed
  exact (List.prefix_of_prefix_length_le hu.starts hv.starts huv).eq_of_length (Nat.le_antisymm huv hvu)

/-- What is the longest stays so if no more follows up to the next blank, in a syntax without blanks. -/
theorem Longest.follow {form : Text → Prop} {u x y : Text} (h : Longest form (u ++ x) u)
    (hform : ∀ v, form v → ∀ s ∈ v, s.isBlank = false) (hy : upToBlank y <+: x) : Longest form (u ++ y) u := by
  refine ⟨List.prefix_append u y, h.wellFormed, ?_⟩
  intro v hv hf
  by_contra hlen
  obtain ⟨w, rfl⟩ : u <+: v := List.prefix_of_prefix_length_le (List.prefix_append u y) hv (by omega)
  have hw : w <+: y := (List.prefix_append_right_inj u).1 hv
  have hwx : w <+: x := (prefix_upToBlank hw fun s hs => hform _ hf s (List.mem_append_right u hs)).trans hy
  exact hlen (h.longest _ ((List.prefix_append_right_inj u).2 hwx) hf)

/-- A number starts with a look at two symbols: the second one counts if the first is a point. -/
theorem startsNumber_follow {s : Symbol} {v x y : Text} (hy : upToBlank y <+: x)
    (h : s = .char '.' → v = [] → startsNumber (s :: x) = false) :
    startsNumber (s :: (v ++ y)) = startsNumber (s :: (v ++ x)) := by
  by_cases hs : s = .char '.'
  · subst hs
    cases v with
    | cons d v => rfl
    | nil =>
      rw [List.nil_append, List.nil_append, h rfl rfl]
      cases y with
      | nil => decide
      | cons d y =>
        by_contra hdigit
        have hd : d.isDigit = true := by simpa [startsNumber] using hdigit
        have hb : d.isBlank = false := by
          rw [Bool.eq_false_iff]
          intro hb
          rw [Symbol.isDigit_of_isBlank hb] at hd
          cases hd
        obtain ⟨x, rfl⟩ := hy
        have hx := h rfl rfl
        simp [upToBlank, hb, startsNumber, hd] at hx
  · rw [startsNumber_cons hs, startsNumber_cons hs]

/-- A literal starts with its quote. -/
theorem readLexeme_quote {quote : Char} (hq : IsQuote quote) (t : Text) :
    readLexeme (.char quote :: t) =
      (readLiteral quote (.char quote :: t) t).map fun read => (.string read.1, read.2) := by
  rcases hq with rfl | rfl <;> rfl

/-- Where nothing else starts there is a punctuator, or nothing. -/
theorem readLexeme_other {s : Symbol} {t : Text} (hnumber : startsNumber (s :: t) = false)
    (hname : startsName s = false) (hquote : ∀ quote, IsQuote quote → s ≠ .char quote) :
    readLexeme (s :: t) =
      match readPunct? (s :: t) with
      | some (p, rest) => .ok (.punct p, rest)
      | none => .error (.unexpected s (s :: t)) := by
  rw [readLexeme, hnumber, hname, if_neg (by decide), if_neg (by decide)]
  split
  · exact absurd rfl (hquote '"' (.inl rfl))
  · exact absurd rfl (hquote '\'' (.inr rfl))
  · rfl

theorem exists_readPunct? (p : Punct) (t : Text) : ∃ q rest, readPunct? (p.text ++ t) = some (q, rest) := by
  cases h : readPunct? (p.text ++ t) with
  | some r => exact ⟨r.1, r.2, rfl⟩
  | none =>
    have hnone := List.findSome?_eq_none_iff.1 h p p.mem_all
    have hafter : (p.text ++ t).after? p.text = some t := after?_eq_some_iff.2 rfl
    rw [Option.map_eq_none_iff, hafter] at hnone
    cases hnone

theorem readNumeral?_follow {u x y : Text} {n : Number} (h : readNumeral? (u ++ x) = some (n, x))
    (hy : upToBlank y <+: x) : readNumeral? (u ++ y) = some (n, y) := by
  obtain ⟨u', hu, hlong, -⟩ := readNumeral?_longest h
  obtain rfl := List.append_cancel_right hu
  have hlong := hlong.follow (fun v hv => hv.not_blank) hy
  obtain ⟨m, rest, hm⟩ := exists_readNumeral? hlong.starts hlong.wellFormed
  obtain ⟨w, hw, hlong', -⟩ := readNumeral?_longest hm
  obtain rfl := hlong'.unique hlong
  obtain rfl := List.append_cancel_left hw
  have hvalue := readNumeral?_of_append h
  rw [readNumeral?_of_append hm] at hvalue
  cases hvalue
  exact hm

theorem readPunct?_follow {u x y : Text} {p : Punct} (h : readPunct? (u ++ x) = some (p, x))
    (hy : upToBlank y <+: x) : readPunct? (u ++ y) = some (p, y) := by
  have hblank : ∀ v, (∃ q : Punct, q.text = v) → ∀ s ∈ v, s.isBlank = false := by
    rintro _ ⟨q, rfl⟩
    exact q.not_blank
  obtain ⟨hu, hlong⟩ := readPunct?_longest h
  obtain rfl := List.append_cancel_right hu
  obtain ⟨q, rest, hq⟩ := exists_readPunct? p y
  obtain ⟨hw, hlong'⟩ := readPunct?_longest hq
  have htext := hlong'.unique (hlong.follow hblank hy)
  obtain rfl := Punct.text_injective htext
  obtain rfl := List.append_cancel_left hw
  exact hq

/-- A name ends where it ended before. -/
theorem name_follow {u x y : Text} (htake : (u ++ x).takeWhile continuesName = u)
    (hdrop : (u ++ x).dropWhile continuesName = x) (hy : upToBlank y <+: x) :
    (u ++ y).takeWhile continuesName = u ∧ (u ++ y).dropWhile continuesName = y := by
  apply Binary64.takeWhile_run
  · intro s hs
    rw [← htake] at hs
    exact List.mem_takeWhile_imp hs
  · intro s hs
    obtain ⟨y, rfl⟩ := List.head?_eq_some_iff.1 hs
    rw [Bool.eq_false_iff]
    intro hcontinues
    obtain ⟨z, rfl⟩ := hy
    rw [upToBlank, List.takeWhile_cons_of_pos (by rw [isBlank_of_continuesName hcontinues]; rfl), List.cons_append]
      at hdrop
    have hhead := List.head_dropWhile_not continuesName (by rw [hdrop]; simp)
    simp only [hdrop, List.head_cons, hcontinues] at hhead
    cases hhead

section

variable {s : Symbol} {v x y : Text} {l : Lexeme}

theorem readLexeme_number_follow (hnumber : startsNumber (s :: (v ++ x)) = true)
    (h : readLexeme (s :: (v ++ x)) = .ok (l, x)) (hy : upToBlank y <+: x) :
    readLexeme (s :: (v ++ y)) = .ok (l, y) := by
  cases hread : readNumeral? (s :: v ++ x) with
  | none =>
    rw [List.cons_append] at hread
    simp [readLexeme, hnumber, hread] at h
  | some p =>
    rw [readLexeme, if_pos hnumber, ← List.cons_append, hread] at h
    cases h
    have hstart : startsNumber (s :: (v ++ y)) = true := by
      rw [startsNumber_follow hy, hnumber]
      rintro rfl rfl
      cases readNumeral?_of_append hread
    rw [readLexeme, if_pos hstart, ← List.cons_append, readNumeral?_follow hread hy]

theorem readLexeme_word_follow (hnumber : startsNumber (s :: (v ++ x)) = false)
    (hnumber' : startsNumber (s :: (v ++ y)) = false) (hname : startsName s = true)
    (h : readLexeme (s :: (v ++ x)) = .ok (l, x)) (hy : upToBlank y <+: x) :
    readLexeme (s :: (v ++ y)) = .ok (l, y) := by
  rw [readLexeme, hnumber, if_neg (by decide), if_pos hname, Except.ok.injEq, Prod.mk.injEq] at h
  obtain ⟨rfl, hdrop⟩ := h
  have htake : (s :: v ++ x).takeWhile continuesName = s :: v := by
    have hall := List.takeWhile_append_dropWhile (p := continuesName) (l := s :: (v ++ x))
    rw [hdrop, ← List.cons_append] at hall
    exact List.append_cancel_right hall
  obtain ⟨htake', hdrop'⟩ := name_follow htake hdrop hy
  rw [List.cons_append] at htake htake' hdrop'
  rw [readLexeme, hnumber', if_neg (by decide), if_pos hname, htake, htake', hdrop']

/-- What follows a literal does not matter at all. -/
theorem readLexeme_literal_follow {quote : Char} (hq : IsQuote quote)
    (h : readLexeme (.char quote :: (v ++ x)) = .ok (l, x)) : readLexeme (.char quote :: (v ++ y)) = .ok (l, y) := by
  rw [readLexeme_quote hq] at h ⊢
  cases hread : readLiteral quote (.char quote :: (v ++ x)) (v ++ x) with
  | error e => simp [hread, Except.map] at h
  | ok read =>
    rw [hread] at h
    cases h
    obtain ⟨body, hbody, -, hagain⟩ := readLiteral_within hq hread
    have hv : v = body ++ [.char quote] := List.append_cancel_right (by rw [hbody, List.append_assoc]; rfl)
    rw [hv, List.append_assoc, List.singleton_append, hagain]
    rfl

theorem readLexeme_punct_follow (hnumber : startsNumber (s :: (v ++ x)) = false)
    (hnumber' : startsNumber (s :: (v ++ y)) = false) (hname : startsName s = false)
    (hquote : ∀ quote, IsQuote quote → s ≠ .char quote) (h : readLexeme (s :: (v ++ x)) = .ok (l, x))
    (hy : upToBlank y <+: x) : readLexeme (s :: (v ++ y)) = .ok (l, y) := by
  rw [readLexeme_other hnumber hname hquote] at h
  rw [readLexeme_other hnumber' hname hquote]
  cases hread : readPunct? (s :: v ++ x) with
  | none =>
    rw [List.cons_append] at hread
    simp [hread] at h
  | some p =>
    rw [← List.cons_append, hread] at h
    cases h
    rw [← List.cons_append, readPunct?_follow hread hy]

end

/-- **A lexeme is read again** if what follows it, up to its first blank, did so before. -/
theorem readLexeme_follow {u x y : Text} {l : Lexeme} (h : readLexeme (u ++ x) = .ok (l, x))
    (hy : upToBlank y <+: x) : readLexeme (u ++ y) = .ok (l, y) := by
  obtain ⟨u', hne, hu, -⟩ := readLexeme_spells h
  obtain rfl := List.append_cancel_right hu
  obtain ⟨s, v, rfl⟩ := List.exists_cons_of_ne_nil hne
  rw [List.cons_append] at h ⊢
  cases hnumber : startsNumber (s :: (v ++ x)) with
  | true => exact readLexeme_number_follow hnumber h hy
  | false =>
    have hnumber' : startsNumber (s :: (v ++ y)) = false := by
      rw [startsNumber_follow hy, hnumber]
      rintro - rfl
      exact hnumber
    cases hname : startsName s with
    | true => exact readLexeme_word_follow hnumber hnumber' hname h hy
    | false =>
      by_cases hquote : ∃ quote, IsQuote quote ∧ s = .char quote
      · obtain ⟨quote, hq, rfl⟩ := hquote
        exact readLexeme_literal_follow hq h
      · simp only [not_exists, not_and] at hquote
        exact readLexeme_punct_follow hnumber hnumber' hname hquote h hy

/-! ### The loop -/

/-- A lexeme starts with a symbol that is no blank. -/
theorem exists_cons_of_readLexeme {u rest : Text} {l : Lexeme} (h : readLexeme (u ++ rest) = .ok (l, rest)) :
    ∃ s v, u = s :: v ∧ s.isBlank = false := by
  obtain ⟨u', hne, hu, hspells⟩ := readLexeme_spells h
  obtain rfl := List.append_cancel_right hu
  obtain ⟨s, v, rfl⟩ := List.exists_cons_of_ne_nil hne
  exact ⟨s, v, rfl, hspells.ends.1 s rfl⟩

/-- The rounds of the loop that cuts a text, the last part of one of a given length. -/
inductive Scans (total : Nat) : Text → List Token → Prop where
  /-- The end of the text. -/
  | done : Scans total [] []
  /-- A blank. -/
  | blank {s : Symbol} {t : Text} {ts : List Token} (hs : s.isBlank = true) : Scans total t ts → Scans total (s :: t) ts
  /-- A lexeme. -/
  | lexeme {u rest : Text} {l : Lexeme} {ts : List Token} (h : readLexeme (u ++ rest) = .ok (l, rest)) :
    Scans total rest ts → Scans total (u ++ rest) (⟨l, total - (u ++ rest).length⟩ :: ts)

variable {total total' : Nat} {t : Text} {ts : List Token}

theorem scans_of_lexFrom {fuel : Nat} (hfuel : t.length ≤ fuel) (h : lexFrom total fuel t = .ok ts) :
    Scans total t ts := by
  fun_induction lexFrom total fuel t generalizing ts with
  | case1 t =>
    obtain rfl := List.length_eq_zero_iff.1 (Nat.le_zero.1 hfuel)
    cases h
    exact .done
  | case2 =>
    cases h
    exact .done
  | case3 fuel s rest hb ih =>
    rw [List.length_cons] at hfuel
    exact .blank hb (ih (by omega) h)
  | case4 fuel s rest hb e he => simp [he] at h
  | case5 fuel s rest hb l more e he hread ih => simp [hread, he] at h
  | case6 fuel s rest hb l more tokens htokens hread ih =>
    simp only [hread, htokens] at h
    cases h
    obtain ⟨u, hne, hu, -⟩ := readLexeme_spells hread
    have hlen := congrArg List.length hu
    have hpos := List.length_pos_iff.2 hne
    rw [List.length_append] at hlen
    rw [hu] at hread ⊢
    exact .lexeme hread (ih (by omega) htokens)

theorem Scans.lexFrom_eq (h : Scans total t ts) : ∀ fuel, t.length ≤ fuel → lexFrom total fuel t = .ok ts := by
  induction h with
  | done =>
    intro fuel _
    cases fuel <;> rfl
  | blank hs _ ih =>
    intro fuel hfuel
    cases fuel with
    | zero => cases hfuel
    | succ fuel =>
      rw [lexFrom, if_pos hs]
      exact ih fuel (by simpa using hfuel)
  | @lexeme u rest l ts hread _ ih =>
    obtain ⟨s, v, rfl, hs⟩ := exists_cons_of_readLexeme hread
    intro fuel hfuel
    cases fuel with
    | zero => cases hfuel
    | succ fuel =>
      simp only [List.cons_append, List.length_cons, List.length_append] at hfuel hread
      have hmore := ih fuel (by omega)
      rw [List.cons_append, lexFrom, hs, if_neg (by decide)]
      simp only [hread, hmore]

/-- The loop takes a text as its rounds do. -/
theorem lex_eq_ok_iff : lex t = .ok ts ↔ Scans t.length t ts :=
  ⟨fun h => scans_of_lexFrom le_rfl h, fun h => h.lexFrom_eq _ le_rfl⟩

theorem Scans.blanks {b : Text} (hb : ∀ s ∈ b, s.isBlank = true) (h : Scans total t ts) : Scans total (b ++ t) ts := by
  induction b with
  | nil => exact h
  | cons s b ih =>
    rw [List.forall_mem_cons] at hb
    exact .blank hb.1 (ih hb.2)

theorem Scans.of_blanks {b : Text} (hb : ∀ s ∈ b, s.isBlank = true) (h : Scans total (b ++ t) ts) :
    Scans total t ts := by
  induction b with
  | nil => exact h
  | cons s b ih =>
    rw [List.forall_mem_cons] at hb
    apply ih hb.2
    generalize hall : s :: b ++ t = whole at h
    cases h with
    | done => cases hall
    | blank _ h =>
      cases hall
      exact h
    | lexeme hread _ =>
      obtain ⟨r, v, rfl, hr⟩ := exists_cons_of_readLexeme hread
      obtain rfl := (List.cons.inj hall).1
      rw [hb.1] at hr
      cases hr

/-- The positions of the tokens are not before the place where the loop is. -/
theorem Scans.le_position (h : Scans total t ts) : ∀ token ∈ ts, total - t.length ≤ token.position := by
  induction h with
  | done => simp
  | blank _ _ ih =>
    intro token hmem
    have hle := ih token hmem
    rw [List.length_cons]
    omega
  | lexeme _ _ ih =>
    intro token hmem
    rcases List.mem_cons.1 hmem with rfl | hmem
    · exact le_rfl
    · have hle := ih token hmem
      rw [List.length_append]
      omega

/-! ### Blanks put in -/

/-- Blanks are put into a text at positions that are allowed; the text starts at position `i`. -/
inductive Spaced (allowed : Nat → Prop) : Nat → Text → Text → Prop where
  /-- The end of the text. -/
  | done {i : Nat} : Spaced allowed i [] []
  /-- A symbol of the text. -/
  | symbol {i : Nat} {s : Symbol} {t t' : Text} : Spaced allowed (i + 1) t t' → Spaced allowed i (s :: t) (s :: t')
  /-- A blank that is put in. -/
  | blank {i : Nat} {s : Symbol} {t t' : Text} (ha : allowed i) (hs : s.isBlank = true) :
    Spaced allowed i t t' → Spaced allowed i t (s :: t')

/-- The position is that of a token, or the end of the text. -/
def IsBoundary (t : Text) (tokens : List Token) (j : Nat) : Prop :=
  j = t.length ∨ ∃ token ∈ tokens, token.position = j

instance (t : Text) (tokens : List Token) (j : Nat) : Decidable (IsBoundary t tokens j) :=
  inferInstanceAs (Decidable (j = t.length ∨ ∃ token ∈ tokens, token.position = j))

namespace Spaced

variable {allowed : Nat → Prop} {i : Nat} {t' : Text}

theorem nil_cons_iff {s : Symbol} :
    Spaced allowed i [] (s :: t') ↔ (allowed i ∧ s.isBlank = true) ∧ Spaced allowed i [] t' := by
  constructor
  · rintro ⟨⟩
    exact ⟨⟨‹_›, ‹_›⟩, ‹_›⟩
  · rintro ⟨⟨ha, hs⟩, h⟩
    exact .blank ha hs h

theorem cons_cons_iff {r s : Symbol} : Spaced allowed i (r :: t) (s :: t') ↔
    (allowed i ∧ s.isBlank = true) ∧ Spaced allowed i (r :: t) t' ∨ r = s ∧ Spaced allowed (i + 1) t t' := by
  constructor
  · intro h
    cases h with
    | symbol h => exact .inr ⟨rfl, h⟩
    | blank ha hs h => exact .inl ⟨⟨ha, hs⟩, h⟩
  · rintro (⟨⟨ha, hs⟩, h⟩ | ⟨rfl, h⟩)
    · exact .blank ha hs h
    · exact .symbol h

instance decidable (allowed : Nat → Prop) [DecidablePred allowed] (i : Nat) :
    (t t' : Text) → Decidable (Spaced allowed i t t')
  | [], [] => isTrue .done
  | _ :: _, [] => isFalse nofun
  | [], _ :: t' =>
    have := decidable allowed i [] t'
    decidable_of_iff _ nil_cons_iff.symm
  | r :: t, _ :: t' =>
    have := decidable allowed i (r :: t) t'
    have := decidable allowed (i + 1) t t'
    decidable_of_iff _ cons_cons_iff.symm
termination_by structural _ t' => t'

theorem upToBlank_prefix (h : Spaced allowed i t t') : upToBlank t' <+: t := by
  induction h with
  | done => exact List.nil_prefix
  | @symbol i s t t' _ ih =>
    rw [upToBlank, List.takeWhile_cons]
    split_ifs
    · exact List.cons_prefix_cons.2 ⟨rfl, ih⟩
    · exact List.nil_prefix
  | blank _ hs _ _ => simp [upToBlank, hs]

theorem blanks_of_nil (h : Spaced allowed i [] t') : ∀ s ∈ t', s.isBlank = true := by
  generalize hnil : ([] : Text) = t at h
  induction h with
  | done => simp
  | symbol => cases hnil
  | blank _ hs _ ih => exact List.forall_mem_cons.2 ⟨hs, ih hnil⟩

/-- A symbol of the text is still there, behind blanks. -/
theorem cons {s : Symbol} (h : Spaced allowed i (s :: t) t') :
    ∃ b t'', t' = b ++ s :: t'' ∧ (∀ r ∈ b, r.isBlank = true) ∧ Spaced allowed (i + 1) t t'' := by
  generalize hall : s :: t = whole at h
  induction h with
  | done => cases hall
  | symbol h =>
    cases hall
    exact ⟨[], _, rfl, by simp, h⟩
  | @blank i r _ _ _ hr _ ih =>
    obtain ⟨b, t'', rfl, hb, h⟩ := ih hall
    exact ⟨r :: b, t'', rfl, List.forall_mem_cons.2 ⟨hr, hb⟩, h⟩

/-- Where no blank may be put in, none is. -/
theorem append {v : Text} (h : Spaced allowed i (v ++ t) t') (hv : ∀ j, i ≤ j → j < i + v.length → ¬ allowed j) :
    ∃ t'', t' = v ++ t'' ∧ Spaced allowed (i + v.length) t t'' := by
  induction v generalizing i t' with
  | nil => exact ⟨t', rfl, h⟩
  | cons s v ih =>
    rw [List.length_cons] at hv ⊢
    cases h with
    | symbol h =>
      obtain ⟨t'', rfl, hmore⟩ := ih h fun j hij hj => hv j (by omega) (by omega)
      refine ⟨t'', rfl, ?_⟩
      rwa [Nat.add_right_comm] at hmore
    | blank ha => exact absurd ha (hv i le_rfl (by omega))

end Spaced

/-- **Blanks in front of tokens and at the end are passed over.** -/
theorem Scans.spaced {allowed : Nat → Prop} (h : Scans total t ts) : ∀ {i : Nat} {t' : Text}, i + t.length = total →
    (∀ j, i ≤ j → allowed j → j = total ∨ ∃ token ∈ ts, token.position = j) → Spaced allowed i t t' →
    ∃ ts', Scans total' t' ts' ∧ lexemes ts' = lexemes ts := by
  induction h with
  | done =>
    intro i t' _ _ hspaced
    refine ⟨[], ?_, rfl⟩
    have hblanks := Scans.blanks hspaced.blanks_of_nil (.done : Scans total' [] [])
    rwa [List.append_nil] at hblanks
  | blank hs _ ih =>
    intro i t' hi hallowed hspaced
    rw [List.length_cons] at hi
    obtain ⟨b, t'', rfl, hb, hmore⟩ := hspaced.cons
    obtain ⟨ts', hts', hlexemes⟩ := ih (i := i + 1) (by omega) (fun j hj => hallowed j (by omega)) hmore
    exact ⟨ts', .blanks hb (.blank hs hts'), hlexemes⟩
  | @lexeme u rest l ts hread hscans ih =>
    intro i t' hi hallowed hspaced
    obtain ⟨s, v, rfl, -⟩ := exists_cons_of_readLexeme hread
    simp only [List.cons_append, List.length_cons, List.length_append] at hi
    obtain ⟨b, t₁, rfl, hb, hmore⟩ := hspaced.cons
    -- within the lexeme there is no boundary
    have hbetween : ∀ j, i + 1 ≤ j → j < i + 1 + v.length → ¬ allowed j := by
      intro j hj hlt ha
      rcases hallowed j (by omega) ha with rfl | ⟨token, hmem, rfl⟩
      · omega
      · rcases List.mem_cons.1 hmem with rfl | hmem
        · simp only [List.cons_append, List.length_cons, List.length_append] at hj hlt
          omega
        · have hle := hscans.le_position token hmem
          omega
    obtain ⟨t₂, rfl, hrest⟩ := hmore.append hbetween
    obtain ⟨ts', hts', hlexemes⟩ := ih (i := i + 1 + v.length) (by omega) (by
      intro j hj ha
      rcases hallowed j (by omega) ha with hj' | ⟨token, hmem, rfl⟩
      · exact .inl hj'
      · rcases List.mem_cons.1 hmem with rfl | hmem
        · simp only [List.cons_append, List.length_cons, List.length_append] at hj
          omega
        · exact .inr ⟨token, hmem, rfl⟩) hrest
    refine ⟨⟨l, _⟩ :: ts', .blanks hb (.lexeme (u := s :: v) (readLexeme_follow hread hrest.upToBlank_prefix) hts'), ?_⟩
    rw [lexemes_cons, lexemes_cons, hlexemes]

/-- **Blanks at the end can be left out.** -/
theorem Scans.of_append_blanks (h : Scans total t ts) : ∀ {core b : Text}, t = core ++ b → (∀ s ∈ b, s.isBlank = true) →
    ∃ ts', Scans total' core ts' ∧ lexemes ts' = lexemes ts := by
  induction h with
  | done =>
    intro core b hcore _
    obtain ⟨rfl, -⟩ := List.append_eq_nil_iff.1 hcore.symm
    exact ⟨[], .done, rfl⟩
  | @blank s t ts hs hscans ih =>
    intro core b hcore hb
    cases core with
    | nil =>
      subst hcore
      rw [List.forall_mem_cons] at hb
      exact ih (List.nil_append t).symm hb.2
    | cons r core =>
      cases hcore
      obtain ⟨ts', hts', hlexemes⟩ := ih rfl hb
      exact ⟨ts', .blank hs hts', hlexemes⟩
  | @lexeme u rest l ts hread hscans ih =>
    intro core b hcore hb
    obtain ⟨c, rfl, rfl⟩ : ∃ c, core = u ++ c ∧ rest = c ++ b := by
      rcases List.append_eq_append_iff.1 hcore with ⟨c, hc⟩ | ⟨c, rfl, rfl⟩
      · exact ⟨c, hc⟩
      -- a lexeme does not reach into the blanks
      · cases hlast : c.getLast? with
        | none =>
          obtain rfl := List.getLast?_eq_none_iff.1 hlast
          exact ⟨[], by simp⟩
        | some s =>
          have hs : s.isBlank = true := hb s (List.mem_append_left _ (List.mem_of_mem_getLast? hlast))
          obtain ⟨u, -, hu, hspells⟩ := readLexeme_spells hread
          obtain rfl := List.append_cancel_right hu
          rw [hspells.ends.2 s (by rw [List.getLast?_append, hlast]; rfl)] at hs
          cases hs
    obtain ⟨ts', hts', hlexemes⟩ := ih rfl hb
    have hfollow : upToBlank c <+: c ++ b := (List.takeWhile_prefix _).trans (List.prefix_append c b)
    refine ⟨⟨l, _⟩ :: ts', .lexeme (readLexeme_follow hread hfollow) hts', ?_⟩
    rw [lexemes_cons, lexemes_cons, hlexemes]

/-! ### Texts with the same lexemes -/

theorem exists_lex_spaced {t' : Text} {tokens : List Token} (h : lex t = .ok tokens)
    (hspaced : Spaced (IsBoundary t tokens) 0 t t') :
    ∃ tokens', lex t' = .ok tokens' ∧ lexemes tokens' = lexemes tokens := by
  obtain ⟨tokens', hscans, hlexemes⟩ : ∃ tokens', Scans t'.length t' tokens' ∧ lexemes tokens' = lexemes tokens :=
    (lex_eq_ok_iff.1 h).spaced (Nat.zero_add _) (fun j _ ha => ha) hspaced
  exact ⟨tokens', lex_eq_ok_iff.2 hscans, hlexemes⟩

theorem exists_lex_strip {tokens : List Token} (h : lex t = .ok tokens) :
    ∃ tokens', lex t.strip = .ok tokens' ∧ lexemes tokens' = lexemes tokens := by
  obtain ⟨a, b, ht, ha, hb⟩ := t.strip_spec
  have hscans : Scans t.length (a ++ (t.strip ++ b)) tokens := ht ▸ lex_eq_ok_iff.1 h
  obtain ⟨tokens', hscans', hlexemes⟩ :
      ∃ tokens', Scans t.strip.length t.strip tokens' ∧ lexemes tokens' = lexemes tokens :=
    (hscans.of_blanks ha).of_append_blanks rfl hb
  exact ⟨tokens', lex_eq_ok_iff.2 hscans', hlexemes⟩

theorem exists_lex_of_parse {e : Expr} (h : parse t = .ok e) : ∃ tokens, lex t = .ok tokens := by
  cases hlex : lex t with
  | ok tokens => exact ⟨tokens, rfl⟩
  | error err =>
    rw [parse, hlex] at h
    cases h

/-- The tree is that of the lexemes. -/
theorem parse_of_lexemes {t' : Text} {tokens tokens' : List Token} {e : Expr} (h : parse t = .ok e)
    (hlex : lex t = .ok tokens) (hlex' : lex t' = .ok tokens') (hsame : lexemes tokens' = lexemes tokens) :
    parse t' = .ok e := by
  rw [parse, hlex] at h
  rw [parse, hlex']
  dsimp only at h ⊢
  cases hparse : parseTokens tokens with
  | error err =>
    rw [hparse] at h
    cases h
  | ok tree =>
    have hparse' : parseTokens tokens' = .ok tree := by
      rw [parseTokens_eq_ok_iff, hsame]
      exact (parseTokens_eq_ok_iff tokens tree).1 hparse
    rw [hparse] at h
    rw [hparse']
    exact h

/-- **Blanks between tokens are immaterial.** A text that can be cut into tokens gives the same lexemes with blanks put
in before its tokens and at its end, and with those around it taken off. So an expression has the same tree with such
blanks, and its source is read as the expression itself. -/
theorem blanks_immaterial (t : Text) :
    (∀ tokens, lex t = .ok tokens →
      (∀ t', Spaced (IsBoundary t tokens) 0 t t' →
        ∃ tokens', lex t' = .ok tokens' ∧ lexemes tokens' = lexemes tokens) ∧
      ∃ tokens', lex t.strip = .ok tokens' ∧ lexemes tokens' = lexemes tokens) ∧
    ∀ e, compile t = .ok e →
      (∃ tokens, lex t = .ok tokens ∧
        ∀ t', Spaced (IsBoundary t tokens) 0 t t' → ∃ e', compile t' = .ok e' ∧ e'.tree = e.tree) ∧
      compile e.source = .ok e := by
  refine ⟨fun tokens hlex => ⟨fun t' => exists_lex_spaced hlex, exists_lex_strip hlex⟩, fun e he => ?_⟩
  obtain ⟨tree, hparse, rfl⟩ := compile_eq_ok_iff.1 he
  obtain ⟨tokens, hlex⟩ := exists_lex_of_parse hparse
  refine ⟨⟨tokens, hlex, fun t' hspaced => ?_⟩, ?_⟩
  · obtain ⟨tokens', hlex', hsame⟩ := exists_lex_spaced hlex hspaced
    exact ⟨⟨t'.strip, tree⟩, compile_eq_ok_iff.2 ⟨tree, parse_of_lexemes hparse hlex hlex' hsame, rfl⟩, rfl⟩
  · obtain ⟨tokens', hlex', hsame⟩ := exists_lex_strip hlex
    exact compile_eq_ok_iff.2 ⟨tree, parse_of_lexemes hparse hlex hlex' hsame, by rw [Text.strip_strip]⟩

/-- A point behind a name and one in front of a number, and blanks within the quotes. -/
theorem blanks_immaterial_spread :
    ∃ e, compile " event[' ']==.5e999 " = .ok e ∧
      (∃ e', compile " \nevent\t[\x0c' '] == \u2003.5e999 \n" = .ok e' ∧ e'.tree = e.tree) ∧
      compile "event[' ']==.5e999" = .ok e := by
  have hlex : lex " event[' ']==.5e999 " = .ok [⟨.word "event", 1⟩, ⟨.punct .openBracket, 6⟩, ⟨.string " ", 7⟩,
      ⟨.punct .closeBracket, 10⟩, ⟨.punct .eq, 11⟩, ⟨.number (.float (.infinite false)), 13⟩] := by
    cbv
  have hparse : parse " event[' ']==.5e999 " = .ok (.binary .eq (.member .event (.literal (.text " ")))
      (.literal (.number (.float (.infinite false))))) := by
    rw [parse, hlex]
    rfl
  have hstrip : Text.strip " event[' ']==.5e999 " = "event[' ']==.5e999" := by
    cbv
  have hcompile := compile_eq_ok_iff.2 ⟨_, hparse, rfl⟩
  obtain ⟨⟨tokens, hlex', hspaced⟩, hsource⟩ := (blanks_immaterial _).2 _ hcompile
  rw [hlex] at hlex'
  cases hlex'
  exact ⟨_, hcompile, hspaced _ (by decide +kernel), hstrip ▸ hsource⟩

end Expression

end EventPipeline
