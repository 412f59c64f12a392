import EventPipeline.Expression.Lexer
import EventPipeline.Proofs.Number.Reading

/-!
# The syntax of numbers

A number is digits, with a point among them or at one of their ends, and an exponent after them if there is one:

    (digits [. [digits]] | . digits) [(e | E) [+ | -] digits]

`readNumeral?` takes the longest text of this syntax that the rest starts with, and gives an integer if and only if
there is neither a point nor an exponent in it (`readNumeral?_longest`). The two parts of a number do not compete for
symbols: no letter of an exponent can stand before it. So each of them is as long as it can be. What number it is depends
on its own symbols only (`readNumeral?_of_append`).
-/

namespace EventPipeline

namespace Expression

/-! ### The longest text of a syntax -/

/-- The longest text of a syntax that a text starts with. -/
structure Longest (form : Text → Prop) (t u : Text) : Prop where
  /-- The text starts with it. -/
  starts : u <+: t
  /-- It has the syntax. -/
  wellFormed : form u
  /-- No longer one does. -/
  longest : ∀ v, v <+: t → form v → v.length ≤ u.length

/-- What a text starts with, if all its symbols are of one sort, is within the run of this sort. -/
theorem prefix_takeWhile {p : Symbol → Bool} {u t : Text} (hu : u <+: t) (hp : ∀ s ∈ u, p s = true) :
    u <+: t.takeWhile p := by
  obtain ⟨x, rfl⟩ := hu
  rw [List.takeWhile_append_of_pos hp]
  exact List.prefix_append u _

/-! ### The parts of a number -/

/-- One digit or more. -/
def IsDigits (ds : Text) : Prop := ds ≠ [] ∧ ∀ s ∈ ds, s.isDecimal = true

/-- What stands before an exponent. -/
inductive IsMantissa : Text → Prop where
  /-- Digits. -/
  | whole {w : Text} (hw : IsDigits w) : IsMantissa w
  /-- Digits and a point, with or without digits after it. -/
  | pointed {w f : Text} (hw : IsDigits w) (hf : ∀ s ∈ f, s.isDecimal = true) : IsMantissa (w ++ .char '.' :: f)
  /-- A point and digits. -/
  | fraction {f : Text} (hf : IsDigits f) : IsMantissa (.char '.' :: f)

/-- A sign, or none. -/
def IsSign (sign : Text) : Prop := sign = [] ∨ sign = [.char '+'] ∨ sign = [.char '-']

/-- The letter of an exponent. -/
def IsLetter (s : Symbol) : Prop := s = .char 'e' ∨ s = .char 'E'

/-- An exponent, or none. -/
inductive IsExponent : Text → Prop where
  /-- No exponent. -/
  | none : IsExponent []
  /-- A letter, a sign if there is one, and digits. -/
  | power {letter : Symbol} {sign ds : Text} (hl : IsLetter letter) (hs : IsSign sign) (hd : IsDigits ds) :
    IsExponent (letter :: (sign ++ ds))

/-- The syntax of numbers. -/
def IsNumeral (u : Text) : Prop := ∃ m x, u = m ++ x ∧ IsMantissa m ∧ IsExponent x

theorem isDigits_takeWhile {t : Text} (h : t.takeWhile Symbol.isDecimal ≠ []) :
    IsDigits (t.takeWhile Symbol.isDecimal) :=
  ⟨h, fun _ hs => List.mem_takeWhile_imp hs⟩

/-- A digit is neither a point nor the letter of an exponent. -/
theorem not_point_of_isDecimal {s : Symbol} (h : s.isDecimal = true) : s ≠ .char '.' ∧ ¬ IsLetter s := by
  constructor
  · rintro rfl
    revert h
    decide
  · rintro (rfl | rfl) <;> revert h <;> decide

/-- Only digits and points stand before an exponent. -/
theorem IsMantissa.mem {m : Text} (h : IsMantissa m) {s : Symbol} (hs : s ∈ m) :
    s.isDecimal = true ∨ s = .char '.' := by
  cases h with
  | whole hw => exact .inl (hw.2 s hs)
  | pointed hw hf =>
    rcases List.mem_append.1 hs with hs | hs
    · exact .inl (hw.2 s hs)
    · rcases List.mem_cons.1 hs with hs | hs
      · exact .inr hs
      · exact .inl (hf s hs)
  | fraction hf =>
    rcases List.mem_cons.1 hs with hs | hs
    · exact .inr hs
    · exact .inl (hf.2 s hs)

theorem IsMantissa.not_isLetter {m : Text} (h : IsMantissa m) {s : Symbol} (hs : s ∈ m) : ¬ IsLetter s := by
  rcases h.mem hs with hd | rfl
  · exact (not_point_of_isDecimal hd).2
  · simp [IsLetter]

theorem IsNumeral.ne_nil {u : Text} (h : IsNumeral u) : u ≠ [] := by
  obtain ⟨m, x, rfl, hm, -⟩ := h
  cases hm with
  | whole hw => simp [hw.1]
  | pointed => simp
  | fraction => simp

/-! ### Exponents -/

theorem IsDigits.not_sign {ds : Text} (h : IsDigits ds) {s : Symbol} {t : Text} (hs : s.isDecimal = false) :
    ¬ ds <+: s :: t := by
  intro hp
  cases ds with
  | nil => exact h.1 rfl
  | cons d ds =>
    obtain ⟨rfl, -⟩ := List.cons_prefix_cons.1 hp
    rw [h.2 d List.mem_cons_self] at hs
    cases hs

/-- The sign at the start of a text is the only one that digits can follow. -/
theorem readSign_spec (t : Text) :
    ∃ sign, IsSign sign ∧ t = sign ++ (Binary64.readSign t).2 ∧
      ∀ sign' ds, IsSign sign' → IsDigits ds → sign' ++ ds <+: t → sign' = sign ∧ ds <+: (Binary64.readSign t).2 := by
  unfold Binary64.readSign
  split
  · rename_i r
    refine ⟨[.char '-'], by simp [IsSign], rfl, ?_⟩
    rintro sign' ds (rfl | rfl | rfl) hd hp
    · exact absurd hp (hd.not_sign (by decide))
    · simp at hp
    · exact ⟨rfl, by simpa using hp⟩
  · rename_i r
    refine ⟨[.char '+'], by simp [IsSign], rfl, ?_⟩
    rintro sign' ds (rfl | rfl | rfl) hd hp
    · exact absurd hp (hd.not_sign (by decide))
    · exact ⟨rfl, by simpa using hp⟩
    · simp at hp
  · rename_i hminus hplus
    refine ⟨[], by simp [IsSign], rfl, ?_⟩
    rintro sign' ds (rfl | rfl | rfl) hd hp
    · exact ⟨rfl, hp⟩
    · obtain ⟨x, rfl⟩ := hp
      exact absurd rfl (hplus _)
    · obtain ⟨x, rfl⟩ := hp
      exact absurd rfl (hminus _)

/-- What an exponent at the start of a text looks like there. -/
theorem IsExponent.cases_of_prefix {t v : Text} (h : IsExponent v) (hv : v <+: t) :
    v = [] ∨ ∃ letter rest sign ds, IsLetter letter ∧ IsSign sign ∧ IsDigits ds ∧ t = letter :: rest ∧
      v = letter :: (sign ++ ds) ∧ sign ++ ds <+: rest := by
  cases h with
  | none => exact .inl rfl
  | @power letter sign ds hl hs hd =>
    obtain ⟨x, rfl⟩ := hv
    exact .inr ⟨letter, sign ++ ds ++ x, sign, ds, hl, hs, hd, rfl, rfl, List.prefix_append _ x⟩

theorem longest_no_exponent {t : Text} (h : ∀ v, v <+: t → IsExponent v → v = []) : Longest IsExponent t [] := by
  refine ⟨List.nil_prefix, .none, ?_⟩
  intro v hv hx
  rw [h v hv hx]

/-- A text that starts with no letter of an exponent has none. -/
theorem longest_of_no_letter {t : Text} (h : ∀ s rest, t = s :: rest → ¬ IsLetter s) : Longest IsExponent t [] := by
  apply longest_no_exponent
  intro v hv hx
  rcases hx.cases_of_prefix hv with hnil | ⟨letter, rest, -, -, hl, -, -, ht, -, -⟩
  · exact hnil
  · exact absurd hl (h letter rest ht)

/-- Behind the letter, the sign and all digits are taken, if there is a digit. -/
theorem longest_exponent {letter : Symbol} (hl : IsLetter letter) (rest : Text) :
    ((Binary64.readSign rest).2.takeWhile Symbol.isDecimal = [] → Longest IsExponent (letter :: rest) []) ∧
    ((Binary64.readSign rest).2.takeWhile Symbol.isDecimal ≠ [] →
      ∃ x, letter :: rest = x ++ (Binary64.readSign rest).2.dropWhile Symbol.isDecimal ∧
        Longest IsExponent (letter :: rest) x) := by
  obtain ⟨sign, hsign, hrest, honly⟩ := readSign_spec rest
  -- the digits of any exponent here are within the run after the sign
  have hwithin : ∀ v, v <+: letter :: rest → IsExponent v →
      v = [] ∨ ∃ ds, IsDigits ds ∧ v = letter :: (sign ++ ds) ∧
        ds <+: (Binary64.readSign rest).2.takeWhile Symbol.isDecimal := by
    intro v hv hx
    rcases hx.cases_of_prefix hv with hnil | ⟨l, r, sign', ds, -, hs, hd, ht, rfl, hp⟩
    · exact .inl hnil
    · obtain ⟨rfl, rfl⟩ := List.cons.inj ht
      obtain ⟨rfl, hds⟩ := honly sign' ds hs hd hp
      exact .inr ⟨ds, hd, rfl, prefix_takeWhile hds hd.2⟩
  constructor
  · intro hnone
    apply longest_no_exponent
    intro v hv hx
    rcases hwithin v hv hx with hnil | ⟨ds, hd, -, hp⟩
    · exact hnil
    · rw [hnone, List.prefix_nil] at hp
      exact absurd hp hd.1
  · intro hsome
    have hdigits := isDigits_takeWhile hsome
    refine ⟨letter :: (sign ++ (Binary64.readSign rest).2.takeWhile Symbol.isDecimal), ?_, ?_,
      .power hl hsign hdigits, ?_⟩
    · rw [List.cons_append, List.append_assoc, List.takeWhile_append_dropWhile, ← hrest]
    · apply List.cons_prefix_cons.2
      refine ⟨rfl, ?_⟩
      conv_rhs => rw [hrest]
      exact (List.prefix_append_right_inj sign).2 (List.takeWhile_prefix _)
    · intro v hv hx
      rcases hwithin v hv hx with rfl | ⟨ds, -, rfl, hp⟩
      · exact Nat.zero_le _
      · have hlen := hp.length_le
        simp only [List.length_cons, List.length_append]
        omega

/-- What follows an exponent, if its letter is there. -/
theorem readExponent_of_letter {c : Char} (hc : c = 'e' ∨ c = 'E') (rest : Text) :
    (Binary64.readExponent Symbol.isDecimal (.char c :: rest)).2 =
      if (Binary64.readSign rest).2.takeWhile Symbol.isDecimal = [] then .char c :: rest
      else (Binary64.readSign rest).2.dropWhile Symbol.isDecimal := by
  have hread : Binary64.readExponent Symbol.isDecimal (.char c :: rest) =
      if c = 'e' ∨ c = 'E' then
        let signed := Binary64.readSign rest
        let ds := signed.2.takeWhile Symbol.isDecimal
        if ds.isEmpty then (0, .char c :: rest)
        else (if signed.1 then -(digitsValue ds : Int) else digitsValue ds, signed.2.dropWhile Symbol.isDecimal)
      else (0, .char c :: rest) := rfl
  rw [hread, if_pos hc]
  by_cases hnone : (Binary64.readSign rest).2.takeWhile Symbol.isDecimal = [] <;> simp [hnone]

/-- **The longest exponent is read.** -/
theorem readExponent_longest (t : Text) :
    ∃ x, t = x ++ (Binary64.readExponent Symbol.isDecimal t).2 ∧ Longest IsExponent t x := by
  rcases t with _ | ⟨c | n, rest⟩
  · exact ⟨[], rfl, longest_of_no_letter fun _ _ ht => by cases ht⟩
  · by_cases hc : c = 'e' ∨ c = 'E'
    · have hl : IsLetter (.char c) := by simpa [IsLetter] using hc
      obtain ⟨hnone, hsome⟩ := longest_exponent hl rest
      rw [readExponent_of_letter hc]
      by_cases h : (Binary64.readSign rest).2.takeWhile Symbol.isDecimal = []
      · rw [if_pos h]
        exact ⟨[], rfl, hnone h⟩
      · rw [if_neg h]
        exact hsome h
    · refine ⟨[], ?_, longest_of_no_letter ?_⟩
      · simp [Binary64.readExponent, hc]
      · intro s r ht
        obtain ⟨rfl, -⟩ := List.cons.inj ht
        simpa [IsLetter] using hc
  · refine ⟨[], rfl, longest_of_no_letter ?_⟩
    intro s r ht
    obtain ⟨rfl, -⟩ := List.cons.inj ht
    simp [IsLetter]

/-! ### Digits and a point -/

/-- What a mantissa at the start of a text looks like there: it lies within the first run of digits, or it ends behind a
point right after this run. -/
theorem IsMantissa.cases_of_prefix {t v : Text} (h : IsMantissa v) (hv : v <+: t) :
    v <+: t.takeWhile Symbol.isDecimal ∨
      ∃ r f, t.dropWhile Symbol.isDecimal = .char '.' :: r ∧ v = t.takeWhile Symbol.isDecimal ++ .char '.' :: f ∧
        f <+: r.takeWhile Symbol.isDecimal := by
  have hpoint : ∀ r : Text, ∀ s, (Symbol.char '.' :: r).head? = some s → s.isDecimal = false := by
    intro r s hs
    cases hs
    decide
  cases h with
  | whole hw => exact .inl (prefix_takeWhile hv hw.2)
  | @pointed w f hw hf =>
    obtain ⟨x, rfl⟩ := hv
    obtain ⟨htake, hdrop⟩ := Binary64.takeWhile_run hw.2 (hpoint (f ++ x))
    have ht : w ++ Symbol.char '.' :: f ++ x = w ++ Symbol.char '.' :: (f ++ x) := by simp
    rw [ht, htake, hdrop]
    exact .inr ⟨f ++ x, f, rfl, rfl, prefix_takeWhile (List.prefix_append f x) hf⟩
  | @fraction f hf =>
    obtain ⟨x, rfl⟩ := hv
    have hnone : ∀ s ∈ ([] : Text), s.isDecimal = true := by simp
    obtain ⟨htake, hdrop⟩ := Binary64.takeWhile_run hnone (hpoint (f ++ x))
    rw [List.nil_append] at htake hdrop
    rw [List.cons_append, htake, hdrop]
    exact .inr ⟨f ++ x, f, rfl, rfl, prefix_takeWhile (List.prefix_append f x) hf.2⟩

/-- Digits that no point follows. -/
theorem longest_whole {t : Text} (hw : t.takeWhile Symbol.isDecimal ≠ [])
    (hr : ∀ r, t.dropWhile Symbol.isDecimal ≠ .char '.' :: r) :
    Longest IsMantissa t (t.takeWhile Symbol.isDecimal) := by
  refine ⟨List.takeWhile_prefix _, .whole (isDigits_takeWhile hw), ?_⟩
  intro v hv hm
  rcases hm.cases_of_prefix hv with hp | ⟨r, f, hdrop, -, -⟩
  · exact hp.length_le
  · exact absurd hdrop (hr r)

/-- Digits and a point, with a digit on one of its sides at least. -/
theorem longest_pointed {t r : Text} (hr : t.dropWhile Symbol.isDecimal = .char '.' :: r)
    (hd : t.takeWhile Symbol.isDecimal ≠ [] ∨ r.takeWhile Symbol.isDecimal ≠ []) :
    Longest IsMantissa t (t.takeWhile Symbol.isDecimal ++ .char '.' :: r.takeWhile Symbol.isDecimal) := by
  refine ⟨?_, ?_, ?_⟩
  · conv_rhs => rw [← List.takeWhile_append_dropWhile (p := Symbol.isDecimal) (l := t), hr]
    apply (List.prefix_append_right_inj _).2
    exact List.cons_prefix_cons.2 ⟨rfl, List.takeWhile_prefix _⟩
  · by_cases hw : t.takeWhile Symbol.isDecimal = []
    · rw [hw]
      exact .fraction (isDigits_takeWhile (hd.resolve_left (not_not_intro hw)))
    · exact .pointed (isDigits_takeWhile hw) fun s hs => List.mem_takeWhile_imp hs
  · intro v hv hm
    rcases hm.cases_of_prefix hv with hp | ⟨r', f, hdrop, rfl, hf⟩
    · have hlen := hp.length_le
      rw [List.length_append]
      omega
    · rw [hr] at hdrop
      obtain ⟨-, rfl⟩ := List.cons.inj hdrop
      have hlen := hf.length_le
      simp only [List.length_append, List.length_cons]
      omega

/-! ### Numbers -/

/-- **The parts of a number do not compete**: the longest exponent after the longest mantissa makes the longest
number. -/
theorem longest_numeral {t m r x : Text} (ht : t = m ++ r) (hm : Longest IsMantissa t m) (hx : Longest IsExponent r x) :
    Longest IsNumeral t (m ++ x) := by
  refine ⟨?_, ⟨m, x, rfl, hm.wellFormed, hx.wellFormed⟩, ?_⟩
  · rw [ht]
    exact (List.prefix_append_right_inj m).2 hx.starts
  · rintro v hv ⟨m', x', rfl, hm', hx'⟩
    have hstart : m' <+: t := (List.prefix_append m' x').trans hv
    have hlen := hm.longest m' hstart hm'
    rw [List.length_append, List.length_append]
    by_cases hshort : m'.length = m.length
    · -- the same mantissa
      have hsame : m' = m := (List.prefix_of_prefix_length_le hstart hm.starts hlen).eq_of_length hshort
      subst hsame
      have hfollow : x' <+: r := by
        rw [ht] at hv
        exact (List.prefix_append_right_inj m').1 hv
      have hlonger := hx.longest x' hfollow hx'
      omega
    · cases hx' with
      | none =>
        simp only [List.length_nil]
        omega
      | @power letter sign ds hl hs hd =>
        -- the letter would stand within the longest mantissa
        exfalso
        have hwithin : m' ++ [letter] <+: m := by
          apply List.prefix_of_prefix_length_le _ hm.starts
          · rw [List.length_append, List.length_singleton]
            omega
          · refine List.IsPrefix.trans ?_ hv
            exact (List.prefix_append_right_inj m').2 (List.cons_prefix_cons.2 ⟨rfl, List.nil_prefix⟩)
        exact hm.wellFormed.not_isLetter (hwithin.subset (by simp)) hl

/-- There is an exponent if its letter is there. -/
theorem IsExponent.eq_nil_iff {x : Text} (h : IsExponent x) : x = [] ↔ ∀ s ∈ x, ¬ IsLetter s := by
  constructor
  · rintro rfl
    simp
  · intro hx
    cases h with
    | none => rfl
    | power hl _ _ => exact absurd hl (hx _ List.mem_cons_self)

theorem IsExponent.not_point {x : Text} (h : IsExponent x) : ∀ s ∈ x, s ≠ .char '.' := by
  cases h with
  | none => simp
  | @power letter sign ds hl hs hd =>
    rintro s hmem rfl
    rcases List.mem_cons.1 hmem with hmem | hmem
    · rcases hl with rfl | rfl <;> cases hmem
    · rcases List.mem_append.1 hmem with hmem | hmem
      · rcases hs with rfl | rfl | rfl <;> simp at hmem
      · exact absurd rfl (not_point_of_isDecimal (hd.2 _ hmem)).1

/-- What is read of a number: digits, or digits and a point, and what follows the exponent. -/
theorem readNumeral?_cases {t rest : Text} {n : Number} (h : readNumeral? t = some (n, rest)) :
    (t.takeWhile Symbol.isDecimal ≠ [] ∧ (∀ r, t.dropWhile Symbol.isDecimal ≠ .char '.' :: r) ∧
        (Binary64.readExponent Symbol.isDecimal (t.dropWhile Symbol.isDecimal)).2 = rest ∧
        ((∃ k, n = .int k) ↔ rest.length = (t.dropWhile Symbol.isDecimal).length)) ∨
      ∃ r, t.dropWhile Symbol.isDecimal = .char '.' :: r ∧
        (t.takeWhile Symbol.isDecimal ≠ [] ∨ r.takeWhile Symbol.isDecimal ≠ []) ∧
        (Binary64.readExponent Symbol.isDecimal (r.dropWhile Symbol.isDecimal)).2 = rest ∧ ¬ ∃ k, n = .int k := by
  unfold readNumeral? at h
  dsimp only at h
  split at h
  · rename_i r hr
    refine .inr ⟨r, hr, ?_⟩
    by_cases hnone : t.takeWhile Symbol.isDecimal = [] ∧ r.takeWhile Symbol.isDecimal = []
    · simp [hnone] at h
    · have hsome : t.takeWhile Symbol.isDecimal ≠ [] ∨ r.takeWhile Symbol.isDecimal ≠ [] := by
        simpa [or_iff_not_imp_left] using hnone
      simp only [List.isEmpty_iff, Bool.and_eq_true, if_neg hnone, Bool.true_or, if_true] at h
      cases h
      exact ⟨hsome, rfl, by simp⟩
  · rename_i hpoint
    refine .inl ?_
    by_cases hw : t.takeWhile Symbol.isDecimal = []
    · simp [hw] at h
    · refine ⟨hw, hpoint, ?_⟩
      simp [hw] at h
      split_ifs at h with hlen <;> cases h
      · simp [hlen]
      · simp [hlen]

/-- **The longest number is read**, and it is an integer if and only if there is neither a point nor an exponent in
it. -/
theorem readNumeral?_longest {t rest : Text} {n : Number} (h : readNumeral? t = some (n, rest)) :
    ∃ u, t = u ++ rest ∧ Longest IsNumeral t u ∧
      ((∃ k, n = .int k) ↔ ∀ s ∈ u, s ≠ .char '.' ∧ ¬ IsLetter s) := by
  rcases readNumeral?_cases h with ⟨hw, hpoint, rfl, hint⟩ | ⟨r, hr, hd, rfl, hint⟩
  · have ht : t = t.takeWhile Symbol.isDecimal ++ t.dropWhile Symbol.isDecimal := by simp
    obtain ⟨x, hx, hlong⟩ := readExponent_longest (t.dropWhile Symbol.isDecimal)
    refine ⟨t.takeWhile Symbol.isDecimal ++ x, ?_, longest_numeral ht (longest_whole hw hpoint) hlong, ?_⟩
    · rw [List.append_assoc, ← hx, ← ht]
    · -- nothing was read after the digits if and only if there is no exponent
      have hlength : (Binary64.readExponent Symbol.isDecimal (t.dropWhile Symbol.isDecimal)).2.length =
          (t.dropWhile Symbol.isDecimal).length ↔ x = [] := by
        have hlen := congrArg List.length hx
        rw [List.length_append] at hlen
        rw [← List.length_eq_zero_iff]
        omega
      rw [hint, hlength, hlong.wellFormed.eq_nil_iff]
      constructor
      · intro hx s hs
        rcases List.mem_append.1 hs with hs | hs
        · exact not_point_of_isDecimal (List.mem_takeWhile_imp hs)
        · exact ⟨hlong.wellFormed.not_point s hs, hx s hs⟩
      · intro hu s hs
        exact (hu s (List.mem_append_right _ hs)).2
  · have ht : t = (t.takeWhile Symbol.isDecimal ++ .char '.' :: r.takeWhile Symbol.isDecimal) ++
        r.dropWhile Symbol.isDecimal := by
      conv_lhs => rw [← List.takeWhile_append_dropWhile (p := Symbol.isDecimal) (l := t), hr]
      simp
    obtain ⟨x, hx, hlong⟩ := readExponent_longest (r.dropWhile Symbol.isDecimal)
    refine ⟨_, ?_, longest_numeral ht (longest_pointed hr hd) hlong, ?_⟩
    · rw [List.append_assoc, ← hx, ← ht]
    · constructor
      · exact fun h => absurd h hint
      · intro hu
        exact absurd rfl (hu (.char '.') (by simp)).1

/-- Where no number is read, there is no digit to start one. -/
theorem readNumeral?_eq_none {t : Text} (h : readNumeral? t = none) :
    t.takeWhile Symbol.isDecimal = [] ∧ ∀ r, t = .char '.' :: r → r.takeWhile Symbol.isDecimal = [] := by
  constructor
  · by_contra hwhole
    unfold readNumeral? at h
    simp only [List.isEmpty_iff, hwhole, Bool.and_eq_true, false_and, if_false] at h
    split at h <;> split_ifs at h
  · rintro r rfl
    by_contra hfraction
    have hpoint : (Symbol.char '.').isDecimal = false := by decide
    unfold readNumeral? at h
    simp only [List.takeWhile_cons, List.dropWhile_cons, hpoint, Bool.false_eq_true, if_false, List.isEmpty_iff,
      hfraction, Bool.and_eq_true, and_false] at h
    split at h <;> cases h

/-- Where a number starts, one is read. -/
theorem exists_readNumeral? {t u : Text} (hu : u <+: t) (h : IsNumeral u) :
    ∃ n rest, readNumeral? t = some (n, rest) := by
  cases hread : readNumeral? t with
  | some p => exact ⟨p.1, p.2, rfl⟩
  | none =>
    exfalso
    obtain ⟨hwhole, hfraction⟩ := readNumeral?_eq_none hread
    obtain ⟨m, x, rfl, hm, -⟩ := h
    have hstart : m <+: t := (List.prefix_append m x).trans hu
    have hdigits : ∀ w, IsDigits w → ¬ w <+: t := by
      intro w hw hp
      have hrun := prefix_takeWhile hp hw.2
      rw [hwhole, List.prefix_nil] at hrun
      exact hw.1 hrun
    cases hm with
    | whole hw => exact hdigits _ hw hstart
    | pointed hw => exact hdigits _ hw ((List.prefix_append _ _).trans hstart)
    | fraction hf =>
      obtain ⟨r, rfl⟩ := hstart
      have hrun := prefix_takeWhile (List.prefix_append _ r) hf.2
      rw [hfraction _ (List.cons_append ..), List.prefix_nil] at hrun
      exact hf.1 hrun

/-! ### The number of a spelling -/

/-- What stands before a rest that is left is run through like the whole text. -/
theorem run_of_append {p : Symbol → Bool} {v x d : Text} (h : (v ++ x).dropWhile p = d ++ x) :
    v.takeWhile p = (v ++ x).takeWhile p ∧ v.dropWhile p = d := by
  have hv : v = (v ++ x).takeWhile p ++ d := by
    have hall := List.takeWhile_append_dropWhile (p := p) (l := v ++ x)
    rw [h, ← List.append_assoc] at hall
    exact (List.append_cancel_right hall).symm
  have hall : ∀ s ∈ (v ++ x).takeWhile p, p s = true := fun s hs => List.mem_takeWhile_imp hs
  have hstop : ∀ s, d.head? = some s → p s = false := by
    intro s hs
    cases d with
    | nil => cases hs
    | cons r d =>
      cases hs
      have hne : (v ++ x).dropWhile p ≠ [] := by simp [h]
      have hhead := List.head_dropWhile_not p hne
      simpa [h] using hhead
  have hrun := Binary64.takeWhile_run hall hstop
  rwa [← hv] at hrun

theorem readSign_append {v x : Text} (hv : v ≠ []) :
    Binary64.readSign (v ++ x) = ((Binary64.readSign v).1, (Binary64.readSign v).2 ++ x) := by
  obtain ⟨s, v, rfl⟩ := List.exists_cons_of_ne_nil hv
  unfold Binary64.readSign
  rw [List.cons_append]
  split <;> split <;> simp_all

/-- What an exponent at the start of a text is, if its letter is there. -/
theorem readExponent_letter {c : Char} (hc : c = 'e' ∨ c = 'E') (rest : Text) :
    Binary64.readExponent Symbol.isDecimal (.char c :: rest) =
      let signed := Binary64.readSign rest
      let ds := signed.2.takeWhile Symbol.isDecimal
      if ds.isEmpty then (0, .char c :: rest)
      else (if signed.1 then -(digitsValue ds : Int) else digitsValue ds, signed.2.dropWhile Symbol.isDecimal) := by
  have hread : Binary64.readExponent Symbol.isDecimal (.char c :: rest) =
      if c = 'e' ∨ c = 'E' then
        let signed := Binary64.readSign rest
        let ds := signed.2.takeWhile Symbol.isDecimal
        if ds.isEmpty then (0, .char c :: rest)
        else (if signed.1 then -(digitsValue ds : Int) else digitsValue ds, signed.2.dropWhile Symbol.isDecimal)
      else (0, .char c :: rest) := rfl
  rw [hread, if_pos hc]

theorem length_readSign (t : Text) : (Binary64.readSign t).2.length ≤ t.length := by
  unfold Binary64.readSign
  split <;> simp

/-- The value of an exponent depends on its own symbols only. -/
theorem readExponent_of_append {e x : Text} {k : Int}
    (h : Binary64.readExponent Symbol.isDecimal (e ++ x) = (k, x)) :
    Binary64.readExponent Symbol.isDecimal e = (k, []) := by
  obtain ⟨e', he', hlong⟩ := readExponent_longest (e ++ x)
  rw [h] at he'
  obtain rfl := List.append_cancel_right he'
  cases hlong.wellFormed with
  | none =>
    have hzero : k = 0 := by
      rcases x with _ | ⟨c | n, rest⟩
      · cases h
        rfl
      · by_cases hc : c = 'e' ∨ c = 'E'
        · rw [List.nil_append, readExponent_letter hc] at h
          dsimp only at h
          split_ifs at h with hnone
          · cases h
            rfl
          all_goals
            -- a sign and digits would have been taken
            have hlen := congrArg List.length (Prod.mk.inj h).2
            have hsign := length_readSign rest
            have hdrop := (List.dropWhile_suffix (l := (Binary64.readSign rest).2) Symbol.isDecimal).length_le
            rw [List.length_cons] at hlen
            omega
        · simp [Binary64.readExponent, hc] at h
          exact h.symm
      · cases h
        rfl
    subst hzero
    rfl
  | @power letter sign ds hl hs hd =>
    obtain ⟨c, rfl, hc⟩ : ∃ c, letter = .char c ∧ (c = 'e' ∨ c = 'E') := by
      rcases hl with rfl | rfl
      · exact ⟨_, rfl, .inl rfl⟩
      · exact ⟨_, rfl, .inr rfl⟩
    have hne : sign ++ ds ≠ [] := by simp [hd.1]
    rw [List.cons_append, readExponent_letter hc, readSign_append hne] at h
    rw [readExponent_letter hc]
    dsimp only at h ⊢
    by_cases hnone : ((Binary64.readSign (sign ++ ds)).2 ++ x).takeWhile Symbol.isDecimal = []
    · rw [hnone] at h
      have hlen := congrArg List.length (Prod.mk.inj h).2
      simp only [List.length_cons, List.length_append] at hlen
      omega
    · rw [if_neg (by simpa using hnone)] at h
      obtain ⟨hk, hrest⟩ := Prod.mk.inj h
      obtain ⟨htake, hdrop⟩ := run_of_append (d := []) hrest
      rw [htake, hdrop, if_neg (by simpa using hnone), hk]

/-- Digits that no point follows. -/
theorem readNumeral?_unpointed {t : Text} (hw : t.takeWhile Symbol.isDecimal ≠ [])
    (hr : ∀ r, t.dropWhile Symbol.isDecimal ≠ .char '.' :: r) :
    readNumeral? t =
      let exponent := Binary64.readExponent Symbol.isDecimal (t.dropWhile Symbol.isDecimal)
      if exponent.2.length = (t.dropWhile Symbol.isDecimal).length then
        some (.int (digitsValue (t.takeWhile Symbol.isDecimal)), exponent.2)
      else some (.float (Binary64.Numeral.value false ⟨t.takeWhile Symbol.isDecimal, [], exponent.1⟩), exponent.2) := by
  unfold readNumeral?
  dsimp only
  split
  · exact absurd ‹_› (hr _)
  · simp [hw]

/-- Digits and a point, with a digit on one of its sides at least. -/
theorem readNumeral?_pointed {t r : Text} (hr : t.dropWhile Symbol.isDecimal = .char '.' :: r)
    (hd : t.takeWhile Symbol.isDecimal ≠ [] ∨ r.takeWhile Symbol.isDecimal ≠ []) :
    readNumeral? t =
      let exponent := Binary64.readExponent Symbol.isDecimal (r.dropWhile Symbol.isDecimal)
      some (.float (Binary64.Numeral.value false
        ⟨t.takeWhile Symbol.isDecimal, r.takeWhile Symbol.isDecimal, exponent.1⟩), exponent.2) := by
  have hsome : ¬ (t.takeWhile Symbol.isDecimal = [] ∧ r.takeWhile Symbol.isDecimal = []) := by
    simpa [or_iff_not_imp_left] using hd
  unfold readNumeral?
  simp only [hr, List.isEmpty_iff, Bool.and_eq_true, if_neg hsome, Bool.true_or, if_true]

/-- **The value of a number depends on its own symbols only.** -/
theorem readNumeral?_of_append {u x : Text} {n : Number} (h : readNumeral? (u ++ x) = some (n, x)) :
    readNumeral? u = some (n, []) := by
  rcases readNumeral?_cases h with ⟨hw, hpoint, hx, -⟩ | ⟨r, hr, hd, hx, -⟩
  · obtain ⟨e, he, -⟩ := readExponent_longest ((u ++ x).dropWhile Symbol.isDecimal)
    rw [hx] at he
    obtain ⟨htake, hdrop⟩ := run_of_append he
    have hexponent : Binary64.readExponent Symbol.isDecimal (e ++ x) =
        ((Binary64.readExponent Symbol.isDecimal (e ++ x)).1, x) := by
      rw [he] at hx
      exact Prod.ext rfl hx
    rw [readNumeral?_unpointed hw hpoint, he, hexponent] at h
    rw [readNumeral?_unpointed (htake ▸ hw), htake, hdrop, readExponent_of_append hexponent]
    · dsimp only at h ⊢
      rw [List.length_append] at h
      rw [List.length_nil]
      split_ifs at h ⊢ <;> first | omega | (cases h; rfl)
    · intro r hr
      apply hpoint (r ++ x)
      rw [he, ← hdrop, hr, List.cons_append]
  · obtain ⟨e, he, -⟩ := readExponent_longest (r.dropWhile Symbol.isDecimal)
    rw [hx] at he
    obtain ⟨v, rfl⟩ : ∃ v, r = v ++ x := by
      refine ⟨r.takeWhile Symbol.isDecimal ++ e, ?_⟩
      rw [List.append_assoc, ← he, List.takeWhile_append_dropWhile]
    obtain ⟨hwhole, hrest⟩ := run_of_append (d := .char '.' :: v) hr
    obtain ⟨hfraction, hafter⟩ := run_of_append he
    have hexponent : Binary64.readExponent Symbol.isDecimal (e ++ x) =
        ((Binary64.readExponent Symbol.isDecimal (e ++ x)).1, x) := by
      rw [he] at hx
      exact Prod.ext rfl hx
    rw [readNumeral?_pointed hr hd, he, hexponent] at h
    rw [readNumeral?_pointed hrest (by rwa [hwhole, hfraction]), hwhole, hfraction, hafter,
      readExponent_of_append hexponent]
    cases h
    rfl

end Expression

end EventPipeline
