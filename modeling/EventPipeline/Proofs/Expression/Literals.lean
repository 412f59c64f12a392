import EventPipeline.Proofs.Expression.Spacing

/-!
# String literals

Every text can be written between quotes, wherever the literal stands, and is read back from there
(`readLiteral_written`). What the reader makes of any other text is said by its first symbol that is not `Quiet`: at a
quote of its kind the literal is closed, at the end of the line or of the text it is unterminated, and at a `\u` without
four digits the escape is refused (`readLiteral_ends`). Only symbols that are not escaped count, that is, those without
a backslash before them that is not escaped itself.
-/

namespace EventPipeline

namespace Expression

/-! ### Symbols that count -/

/-- The symbol at a position stands behind a backslash that is not escaped itself. -/
def Escaped (body : Text) : Nat → Prop
  | 0 => False
  | i + 1 => body[i]? = some (.char '\\') ∧ ¬ Escaped body i

/-- A character stands at a position and is not escaped. -/
def Bare (body : Text) (i : Nat) (c : Char) : Prop := body[i]? = some (.char c) ∧ ¬ Escaped body i

/-- At a position a backslash and a `u` stand, but no four hexadecimal digits behind them. -/
def Malformed (body : Text) (i : Nat) : Prop :=
  Bare body i '\\' ∧ body[i + 1]? = some (.char 'u') ∧
    ¬ ∀ k < 4, (body[i + 2 + k]?.any fun s => s.hexValue?.isSome) = true

/-- Nothing at a position ends a literal, in whichever way. -/
def Quiet (quote : Char) (body : Text) (i : Nat) : Prop :=
  ¬ Bare body i quote ∧ ¬ Bare body i '\n' ∧ ¬ Malformed body i

/-- The line or the text ends before the literal is closed, and before an escape in it is refused. -/
def Unclosed (quote : Char) (body : Text) : Prop :=
  ∃ stop, (Bare body stop '\n' ∨ stop = body.length) ∧ ∀ i < stop, Quiet quote body i

instance decidableEscaped (body : Text) : DecidablePred (Escaped body)
  | 0 => .isFalse id
  | i + 1 =>
    have := decidableEscaped body i
    inferInstanceAs (Decidable (body[i]? = some (.char '\\') ∧ ¬ Escaped body i))

instance (body : Text) (i : Nat) (c : Char) : Decidable (Bare body i c) :=
  inferInstanceAs (Decidable (_ ∧ _))

instance (body : Text) (i : Nat) : Decidable (Malformed body i) :=
  inferInstanceAs (Decidable (_ ∧ _ ∧ _))

instance (quote : Char) (body : Text) (i : Nat) : Decidable (Quiet quote body i) :=
  inferInstanceAs (Decidable (_ ∧ _ ∧ _))

/-! ### Behind a piece of the text -/

section Behind

variable {lead body : Text}

/-- Behind a piece after which nothing is escaped, the same symbols are escaped as without it. -/
theorem escaped_append_iff (hlead : ¬ Escaped (lead ++ body) lead.length) (i : Nat) :
    Escaped (lead ++ body) (lead.length + i) ↔ Escaped body i := by
  induction i with
  | zero => exact ⟨fun h => hlead h, fun h => h.elim⟩
  | succ i ih =>
    rw [← Nat.add_assoc, Escaped, Escaped, ih, List.getElem?_append_right (Nat.le_add_right ..), Nat.add_sub_cancel_left]

theorem getElem?_append_add (i : Nat) : (lead ++ body)[lead.length + i]? = body[i]? := by
  rw [List.getElem?_append_right (Nat.le_add_right ..), Nat.add_sub_cancel_left]

theorem bare_append_iff (hlead : ¬ Escaped (lead ++ body) lead.length) (i : Nat) (c : Char) :
    Bare (lead ++ body) (lead.length + i) c ↔ Bare body i c := by
  rw [Bare, Bare, escaped_append_iff hlead, getElem?_append_add]

theorem malformed_append_iff (hlead : ¬ Escaped (lead ++ body) lead.length) (i : Nat) :
    Malformed (lead ++ body) (lead.length + i) ↔ Malformed body i := by
  simp only [Malformed, bare_append_iff hlead, Nat.add_assoc, getElem?_append_add]

theorem quiet_append_iff {quote : Char} (hlead : ¬ Escaped (lead ++ body) lead.length) (i : Nat) :
    Quiet quote (lead ++ body) (lead.length + i) ↔ Quiet quote body i := by
  simp only [Quiet, bare_append_iff hlead, malformed_append_iff hlead]

end Behind

/-! ### Where a literal ends -/

/-- What the reader makes of the text behind the opening quote, if the literal ends at a position. -/
inductive EndsAt (quote : Char) (opening body : Text) (stop : Nat) : Except LexError (Text × Text) → Prop where
  /-- The literal is closed. -/
  | closed {content : Text} : Bare body stop quote → EndsAt quote opening body stop (.ok (content, body.drop (stop + 1)))
  /-- The line or the text is over. -/
  | unclosed : Bare body stop '\n' ∨ stop = body.length →
    EndsAt quote opening body stop (.error (.unterminated opening))
  /-- An escape is refused. -/
  | refused : Malformed body stop → EndsAt quote opening body stop (.error (.badEscape (body.drop stop)))

/-- The literal ends at the first position that is not quiet. -/
def Ends (quote : Char) (opening body : Text) (r : Except LexError (Text × Text)) : Prop :=
  ∃ stop, (∀ i < stop, Quiet quote body i) ∧ EndsAt quote opening body stop r

section Reading

variable {quote : Char} {opening body : Text} {r : Except LexError (Text × Text)}

theorem EndsAt.prepend {stop : Nat} (h : EndsAt quote opening body stop r) (s : Symbol) (lead : Text)
    (hlead : ¬ Escaped (lead ++ body) lead.length) :
    EndsAt quote opening (lead ++ body) (lead.length + stop) (prepend s r) := by
  cases h with
  | closed h =>
    have hdrop : body.drop (stop + 1) = (lead ++ body).drop (lead.length + stop + 1) :=
      (List.drop_length_add_append (stop + 1)).symm
    rw [hdrop]
    exact .closed ((bare_append_iff hlead stop quote).2 h)
  | unclosed h =>
    refine .unclosed (h.imp (bare_append_iff hlead stop '\n').2 fun hstop => ?_)
    rw [hstop, List.length_append]
  | refused h =>
    have hdrop : body.drop stop = (lead ++ body).drop (lead.length + stop) := (List.drop_length_add_append stop).symm
    rw [hdrop]
    exact .refused ((malformed_append_iff hlead stop).2 h)

/-- The reader goes on behind a quiet piece. -/
theorem Ends.prepend (h : Ends quote opening body r) (s : Symbol) (lead : Text)
    (hlead : ¬ Escaped (lead ++ body) lead.length) (hquiet : ∀ i < lead.length, Quiet quote (lead ++ body) i) :
    Ends quote opening (lead ++ body) (prepend s r) := by
  obtain ⟨stop, hfirst, hstop⟩ := h
  refine ⟨lead.length + stop, fun i hi => ?_, hstop.prepend s lead hlead⟩
  by_cases hin : i < lead.length
  · exact hquiet i hin
  · obtain ⟨k, rfl⟩ := Nat.exists_eq_add_of_le (Nat.le_of_not_lt hin)
    exact (quiet_append_iff hlead k).2 (hfirst k (by omega))

/-- A symbol that stands for itself is quiet. -/
theorem quiet_plain {i : Nat} {s : Symbol} (hs : body[i]? = some s) (hq : s ≠ .char quote) (hb : s ≠ .char '\\')
    (hn : s ≠ .char '\n') : Quiet quote body i := by
  have hbare : ∀ {c : Char}, s ≠ .char c → ¬ Bare body i c := by
    intro c hc h
    rw [Bare, hs] at h
    exact hc (Option.some.inj h.1)
  exact ⟨hbare hq, hbare hn, fun h => hbare hb h.1⟩

/-- A backslash is quiet unless a malformed escape starts with it. -/
theorem quiet_backslash (hq : IsQuote quote) {i : Nat} (hi : body[i]? = some (.char '\\')) (hform : ¬ Malformed body i) :
    Quiet quote body i := by
  refine ⟨fun h => ?_, fun h => ?_, hform⟩
  · rw [Bare, hi] at h
    rcases hq with rfl | rfl <;> cases h.1
  · rw [Bare, hi] at h
    cases h.1

/-- What is escaped is quiet. -/
theorem quiet_escaped {i : Nat} (h : Escaped body i) : Quiet quote body i :=
  ⟨fun hbare => hbare.2 h, fun hbare => hbare.2 h, fun hform => hform.1.2 h⟩

theorem not_escaped_of_ne {i : Nat} {s : Symbol} (hs : body[i]? = some s) (hb : s ≠ .char '\\') :
    ¬ Escaped body (i + 1) := by
  intro h
  rw [Escaped, hs] at h
  exact hb (Option.some.inj h.1)

/-- A `\u` is malformed exactly if four symbols behind it have no value together. -/
theorem malformed_unicode_iff {t : Text} :
    Malformed (.char '\\' :: .char 'u' :: t) 0 ↔
      ∀ a b c d rest, t = a :: b :: c :: d :: rest → hexValue4? a b c d = none := by
  constructor
  · rintro ⟨-, -, hdigits⟩ a b c d rest rfl
    cases hn : hexValue4? a b c d with
    | none => rfl
    | some n =>
      obtain ⟨ha, hb, hc, hd⟩ := isSome_of_hexValue4? hn
      exact absurd (fun
        | 0, _ => ha
        | 1, _ => hb
        | 2, _ => hc
        | 3, _ => hd) hdigits
  · intro hnone
    refine ⟨⟨rfl, id⟩, rfl, fun hdigits => ?_⟩
    obtain ⟨a, ha, ha'⟩ := (Option.any_eq_true _ _).1 (hdigits 0 (by omega))
    obtain ⟨b, hb, hb'⟩ := (Option.any_eq_true _ _).1 (hdigits 1 (by omega))
    obtain ⟨c, hc, hc'⟩ := (Option.any_eq_true _ _).1 (hdigits 2 (by omega))
    obtain ⟨d, hd, hd'⟩ := (Option.any_eq_true _ _).1 (hdigits 3 (by omega))
    obtain ⟨rest, rfl⟩ : ∃ rest, t = a :: b :: c :: d :: rest := by
      rcases t with _ | ⟨w, _ | ⟨x, _ | ⟨y, _ | ⟨z, rest⟩⟩⟩⟩
      · cases ha
      · cases hb
      · cases hc
      · cases hd
      · cases ha
        cases hb
        cases hc
        cases hd
        exact ⟨rest, rfl⟩
    have hvalue := hnone a b c d rest rfl
    obtain ⟨w, hw⟩ := Option.isSome_iff_exists.1 ha'
    obtain ⟨x, hx⟩ := Option.isSome_iff_exists.1 hb'
    obtain ⟨y, hy⟩ := Option.isSome_iff_exists.1 hc'
    obtain ⟨z, hz⟩ := Option.isSome_iff_exists.1 hd'
    rw [hexValue4?, hw, hx, hy, hz] at hvalue
    cases hvalue

/-- **The reader ends a literal at the first symbol that is not quiet**, and tells by it how. -/
theorem readLiteral_ends (hq : IsQuote quote) (opening body : Text) :
    Ends quote opening body (readLiteral quote opening body) := by
  have hnone {u : Text} : ∀ i < 0, Quiet quote u i := fun i hi => absurd hi (Nat.not_lt_zero i)
  fun_induction readLiteral quote opening body with
  | case1 => exact ⟨0, hnone, .unclosed (.inr rfl)⟩
  | case2 =>
    refine ⟨1, fun i hi => ?_, .unclosed (.inr rfl)⟩
    obtain rfl : i = 0 := by omega
    exact quiet_backslash hq rfl fun h => by cases h.2.1
  | case3 a b c d t n hn ih =>
    obtain ⟨ha, hb, hc, hd⟩ := isSome_of_hexValue4? hn
    have hdigit {i : Nat} {s : Symbol} (hs : (.char '\\' :: .char 'u' :: a :: b :: c :: d :: t : Text)[i]? = some s)
        (h : s.hexValue?.isSome = true) : Quiet quote (.char '\\' :: .char 'u' :: a :: b :: c :: d :: t) i := by
      obtain ⟨hquote, hslash, hbreak⟩ := plain_of_hexDigit hq h
      exact quiet_plain hs hquote hslash hbreak
    have hform : ¬ Malformed (.char '\\' :: .char 'u' :: a :: b :: c :: d :: t) 0 := by
      rw [malformed_unicode_iff]
      intro hnone
      rw [hnone a b c d t rfl] at hn
      cases hn
    refine ih.prepend (Symbol.ofCode n) [.char '\\', .char 'u', a, b, c, d] ?_ ?_
    · exact not_escaped_of_ne rfl (plain_of_hexDigit hq hd).2.1
    · intro i (hi : i < 6)
      interval_cases i
      · exact quiet_backslash hq rfl hform
      · exact quiet_escaped ⟨rfl, id⟩
      · exact hdigit rfl ha
      · exact hdigit rfl hb
      · exact hdigit rfl hc
      · exact hdigit rfl hd
  | case4 a b c d t hn =>
    refine ⟨0, hnone, .refused (malformed_unicode_iff.2 ?_)⟩
    rintro _ _ _ _ _ ⟨⟩
    exact hn
  | case5 t hshort =>
    exact ⟨0, hnone, .refused (malformed_unicode_iff.2 fun a b c d rest h => (hshort a b c d rest h).elim)⟩
  | case6 s t _ hother ih =>
    have hescaped : Escaped (.char '\\' :: s :: t) 1 := ⟨rfl, id⟩
    have hform : ¬ Malformed (.char '\\' :: s :: t) 0 := fun h => hother (Option.some.inj h.2.1)
    refine ih.prepend (resolveEscape s) [.char '\\', s] ?_ ?_
    · exact fun h => h.2 hescaped
    · intro i (hi : i < 2)
      interval_cases i
      · exact quiet_backslash hq rfl hform
      · exact quiet_escaped hescaped
  | case7 s t => exact ⟨0, hnone, .closed ⟨rfl, id⟩⟩
  | case8 s t => exact ⟨0, hnone, .unclosed (.inl ⟨rfl, id⟩)⟩
  | case9 s t hend _ _ hescape hquote hbreak ih =>
    have hslash : s ≠ .char '\\' := by
      intro hs
      cases t with
      | nil => exact hend hs rfl
      | cons s' t => exact hescape _ _ hs rfl
    refine ih.prepend s [s] ?_ ?_
    · exact not_escaped_of_ne rfl hslash
    · intro i hi
      obtain rfl := Nat.lt_one_iff.1 hi
      exact quiet_plain rfl hquote hslash hbreak

/-! ### Literals in a text -/

/-- The literal whose opening quote stands behind a piece of a text: its content and the position behind its closing
quote. -/
def readAt (lead : Text) (quote : Char) (body : Text) : Except Failure (Text × Nat) :=
  let text := lead ++ .char quote :: body
  match readLiteral quote (.char quote :: body) body with
  | .ok (content, rest) => .ok (content, text.length - rest.length)
  | .error e => .error (e.toFailure text)

/-- The failure of a literal that is not closed. -/
def unterminatedAt (position : Nat) : Failure := syntaxFailure "Unterminated string literal" [] (some position)

/-- The failure of an escape without its digits. -/
def badEscapeAt (position : Nat) : Failure := syntaxFailure "Invalid \\u escape in string" [] (some position)

/-- What comes of a literal in a text, if it ends at a position behind its opening quote. -/
inductive ReadTo (quote : Char) (lead body : Text) (stop : Nat) : Except Failure (Text × Nat) → Prop where
  /-- The literal is closed. -/
  | closed (content : Text) : Bare body stop quote → ReadTo quote lead body stop (.ok (content, lead.length + stop + 2))
  /-- The line or the text is over. -/
  | unclosed : Bare body stop '\n' ∨ stop = body.length →
    ReadTo quote lead body stop (.error (unterminatedAt lead.length))
  /-- An escape is refused. -/
  | refused : Malformed body stop → ReadTo quote lead body stop (.error (badEscapeAt (lead.length + 1 + stop)))

theorem Bare.eq {i : Nat} {c c' : Char} (h : Bare body i c) (h' : Bare body i c') : c = c' :=
  Symbol.char.inj (Option.some.inj (h.1.symm.trans h'.1))

theorem Bare.lt_length {i : Nat} {c : Char} (h : Bare body i c) : i < body.length :=
  (List.getElem?_eq_some_iff.1 h.1).1

/-- **A literal in a text ends at the first symbol that is not quiet**; positions are those in the whole text. -/
theorem readAt_ends (hq : IsQuote quote) (lead body : Text) :
    ∃ stop, (∀ i < stop, Quiet quote body i) ∧ ReadTo quote lead body stop (readAt lead quote body) := by
  obtain ⟨stop, hfirst, hstop⟩ := readLiteral_ends hq (.char quote :: body) body
  refine ⟨stop, hfirst, ?_⟩
  unfold readAt
  generalize readLiteral quote (.char quote :: body) body = r at hstop
  cases hstop with
  | closed h =>
    have hlt := h.lt_length
    have hposition : (lead ++ .char quote :: body).length - (body.drop (stop + 1)).length = lead.length + stop + 2 := by
      simp only [List.length_append, List.length_cons, List.length_drop]
      omega
    dsimp only
    rw [hposition]
    exact .closed _ h
  | unclosed h =>
    have hposition : (lead ++ .char quote :: body).length - (.char quote :: body : Text).length = lead.length := by
      rw [List.length_append, Nat.add_sub_cancel]
    dsimp only [LexError.toFailure]
    rw [hposition]
    exact .unclosed h
  | refused h =>
    have hlt := h.1.lt_length
    have hposition : (lead ++ .char quote :: body).length - (body.drop stop).length = lead.length + 1 + stop := by
      simp only [List.length_append, List.length_cons, List.length_drop]
      omega
    dsimp only [LexError.toFailure]
    rw [hposition]
    exact .refused h

/-- A literal that ends at a symbol of its line is not unclosed. -/
theorem not_unclosed {stop : Nat} (hfirst : ∀ i < stop, Quiet quote body i) (hstop : ¬ Quiet quote body stop)
    (hbreak : ¬ Bare body stop '\n') (hlt : stop < body.length) : ¬ Unclosed quote body := by
  rintro ⟨stop', hend, hfirst'⟩
  have hle : stop' ≤ stop := Nat.le_of_not_lt fun h => hstop (hfirst' stop h)
  have hnewline : Bare body stop' '\n' := hend.resolve_right (by omega)
  obtain rfl | h := Nat.eq_or_lt_of_le hle
  · exact hbreak hnewline
  · exact (hfirst stop' h).2.1 hnewline

/-- A literal is reported as unterminated exactly if it is not closed. -/
theorem readAt_eq_unterminated_iff (hq : IsQuote quote) (lead body : Text) :
    readAt lead quote body = .error (unterminatedAt lead.length) ↔ Unclosed quote body := by
  obtain ⟨stop, hfirst, hread⟩ := readAt_ends hq lead body
  generalize readAt lead quote body = r at hread
  cases hread with
  | closed content h =>
    constructor
    · intro heq
      cases heq
    · intro hopen
      have hbreak : ¬ Bare body stop '\n' := by
        intro h'
        rcases hq with rfl | rfl <;> exact absurd (h.eq h') (by decide)
      exact absurd hopen (not_unclosed hfirst (fun hquiet => hquiet.1 h) hbreak h.lt_length)
  | unclosed h => exact ⟨fun _ => ⟨stop, h, hfirst⟩, fun _ => rfl⟩
  | refused h =>
    constructor
    · intro heq
      injection heq with heq
      unfold badEscapeAt unterminatedAt syntaxFailure at heq
      injection heq with _ hmessage
      exact absurd hmessage (by decide)
    · intro hopen
      have hbreak : ¬ Bare body stop '\n' := fun h' => absurd (h.1.eq h') (by decide)
      exact absurd hopen (not_unclosed hfirst (fun hquiet => hquiet.2.2 h) hbreak h.1.lt_length)

/-- **Every text can be written as a literal, with either quote and anywhere**: behind any piece of a text and before any
other it is read back, up to the position behind its closing quote. **A literal is unterminated exactly if its line or
the text ends first**, before a quote of its kind that is not escaped and before an escape without its digits. There is
no other outcome than these two and the refusal of an escape, each told by the first symbol that ends the literal. -/
theorem literal_anywhere (hq : IsQuote quote) (lead : Text) :
    (∀ t suffix, readAt lead quote (written quote t ++ .char quote :: suffix) =
      .ok (t, lead.length + (written quote t).length + 2)) ∧
    (∀ body, readAt lead quote body = .error (unterminatedAt lead.length) ↔ Unclosed quote body) ∧
    ∀ body, ∃ stop, (∀ i < stop, Quiet quote body i) ∧ ReadTo quote lead body stop (readAt lead quote body) := by
  refine ⟨fun t suffix => ?_, readAt_eq_unterminated_iff hq lead, readAt_ends hq lead⟩
  have hposition : (lead ++ .char quote :: (written quote t ++ .char quote :: suffix)).length - suffix.length =
      lead.length + (written quote t).length + 2 := by
    simp only [List.length_append, List.length_cons]
    omega
  rw [readAt, readLiteral_written hq]
  dsimp only
  rw [hposition]

end Reading

/-- A literal between single quotes, with everything in it that is written with a backslash. -/
theorem literal_anywhere_single :
    IsQuote '\'' ∧ readAt "1+" '\'' "it\\'s\\\\\"\\n' + 2" = .ok ("it's\\\"\n", 14) ∧
      readAt "1+" '\'' "it\\'s" = .error (unterminatedAt 2) := by
  have hquote : IsQuote '\'' := .inr rfl
  have hopen : Unclosed '\'' "it\\'s" := ⟨5, .inr rfl, by decide⟩
  exact ⟨hquote, (literal_anywhere hquote "1+").1 "it's\\\"\n" " + 2",
    ((literal_anywhere hquote "1+").2.1 "it\\'s").2 hopen⟩

end Expression

end EventPipeline
