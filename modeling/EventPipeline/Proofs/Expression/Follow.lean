import EventPipeline.Proofs.Expression.Soundness

/-!
# Where phrases begin and end

The parser decides where it stands by the next punctuator alone. What a form or an element can begin with
(`Form.begins`) tells the ways to read it apart, and what goes on with one (`Form.goesOn`) tells whether it
has ended. The grammar bears this out: whatever it derives begins as it should (`Derives.begins`), and an
operator of a level ends an operand of that level.
-/

namespace EventPipeline

namespace Expression

variable {n : Nat}

/-! ### What a phrase begins with -/

/-- Lexemes begin with one that is no punctuator, or with a punctuator of a certain kind. -/
def Begins (kind : Punct → Bool) (used : List Lexeme) : Prop :=
  ∃ first more, used = first :: more ∧ ∀ p, first = .punct p → kind p = true

theorem Begins.append {kind : Punct → Bool} {used : List Lexeme} (h : Begins kind used) (more : List Lexeme) :
    Begins kind (used ++ more) := by
  obtain ⟨first, more', rfl, hfirst⟩ := h
  exact ⟨first, more' ++ more, rfl, hfirst⟩

theorem Begins.mono {kind kind' : Punct → Bool} {used : List Lexeme} (h : Begins kind used)
    (hk : ∀ p, kind p = true → kind' p = true) : Begins kind' used := by
  obtain ⟨first, more, rfl, hfirst⟩ := h
  exact ⟨first, more, rfl, fun p hp => hk p (hfirst p hp)⟩

theorem begins_punct {kind : Punct → Bool} {p : Punct} (h : kind p = true) (more : List Lexeme) :
    Begins kind (.punct p :: more) := by
  refine ⟨_, _, rfl, ?_⟩
  intro q hq
  cases hq
  exact h

theorem begins_other {kind : Punct → Bool} {first : Lexeme} (h : ∀ p, first ≠ .punct p) (more : List Lexeme) :
    Begins kind (first :: more) :=
  ⟨_, _, rfl, fun p hp => absurd hp (h p)⟩

/-- The kind of punctuator that a form can begin with. -/
def Form.begins : Form → Punct → Bool
  | primary, p | accessed, p => p == .openParen || p == .openBracket || p == .openBrace
  | _, p => p == .openParen || p == .openBracket || p == .openBrace || (UnaryOp.ofPunct? p).isSome

/-- The kind of punctuator that an element can begin with. -/
def Element.begins : Element → Punct → Bool
  | argument, p => Form.expression.begins p
  | item, p => Form.expression.begins p || p == .ellipsis
  | entry, p => p == .ellipsis

theorem Level.operands_begins (l : Level) : l.operands.begins = Form.operand.begins := by
  cases l <;> rfl

/-- What is known of the beginning of a phrase; a list may be empty. -/
def Category.Begins : Category → List Lexeme → Prop
  | form f, used => Expression.Begins f.begins used
  | element k, used => Expression.Begins k.begins used
  | list _, _ => True

/-- **Every form and every element has a first lexeme, of the kind it can begin with.** -/
theorem Derives.begins {c : Category} {used : List Lexeme} {x : c.Tree} (h : Derives n c used x) :
    c.Begins used := by
  have hoperand : ∀ p, Form.accessed.begins p = true → Form.operand.begins p = true := by
    intro p hp
    exact Bool.or_eq_true_iff.2 (.inl hp)
  have hitem : ∀ p, Form.expression.begins p = true → Element.item.begins p = true := by
    intro p hp
    exact Bool.or_eq_true_iff.2 (.inl hp)
  induction h with
  | plain _ ih => exact ih
  | conditional _ _ _ ih _ _ => exact Begins.append ih _
  | single _ ih =>
    rw [Category.Begins, Level.operands_begins] at ih
    exact ih
  | operation _ _ _ ih _ => exact Begins.append ih _
  | unsigned _ ih => exact Begins.mono ih hoperand
  | signed hop _ _ => exact begins_punct (by simp [Form.begins, hop]) _
  | unaccessed _ ih => exact ih
  | member _ ih => exact Begins.append ih _
  | index _ _ ih _ => exact Begins.append ih _
  | number => exact begins_other (by simp) _
  | string => exact begins_other (by simp) _
  | constant _ => exact begins_other (by simp) _
  | event => exact begins_other (by simp) _
  | call _ _ _ => exact begins_other (by simp) _
  | parentheses _ _ => exact begins_punct rfl _
  | array _ _ => exact begins_punct rfl _
  | object _ _ => exact begins_punct rfl _
  | argument _ ih => exact ih
  | item _ ih => exact Begins.mono ih hitem
  | spreadItem _ _ => exact begins_punct rfl _
  | entry hkey _ _ =>
    refine begins_other ?_ _
    rintro p rfl
    cases hkey
  | shorthand => exact begins_other (by simp) _
  | spreadEntry _ _ => exact begins_punct rfl _
  | none => trivial
  | last _ _ => trivial
  | more _ _ _ _ => trivial

/-- The next punctuator where tokens begin that are derived from a form or an element. -/
theorem Begins.nextPunct? {kind : Punct → Bool} {ts : List Token} (h : Begins kind (lexemes ts)) {rest : List Token}
    {p : Punct} (hp : nextPunct? (ts ++ rest) = some p) : kind p = true := by
  obtain ⟨first, more, hts, hfirst⟩ := h
  cases ts with
  | nil => cases hts
  | cons t ts =>
    obtain ⟨position, rest', hrest⟩ := nextPunct?_eq_some hp
    cases hrest
    cases hts
    exact hfirst p rfl

/-! ### What goes on with a phrase -/

/-- The punctuators that are operators of a level. -/
def Level.operates (l : Level) (p : Punct) : Bool := (l.operator? p).isSome

/-- The punctuators that go on with a form. -/
def Form.goesOn : Form → Punct → Bool
  | primary, _ => false
  | accessed, p | operand, p => p == .dot || p == .openBracket
  | level l, p => p == .dot || p == .openBracket || l.onwards.any (·.operates p)
  | expression, p =>
    p == .dot || p == .openBracket || Level.all.any (·.operates p) || p == .question

/-- The punctuators that go on with an element. -/
def Element.goesOn : Element → Punct → Bool
  | entry, p => Form.expression.goesOn p || p == .colon
  | _, p => Form.expression.goesOn p

/-- Tokens do not begin with a punctuator of a certain kind. -/
def Stops (kind : Punct → Bool) (ts : List Token) : Prop := ∀ p, nextPunct? ts = some p → kind p = false

theorem stops_nil (kind : Punct → Bool) : Stops kind [] := by
  intro p hp
  cases hp

theorem stops_punct {kind : Punct → Bool} {p : Punct} (h : kind p = false) (position : Nat) (ts : List Token) :
    Stops kind (⟨.punct p, position⟩ :: ts) := by
  intro q hq
  cases hq
  exact h

theorem Stops.mono {kind kind' : Punct → Bool} {ts : List Token} (h : Stops kind ts)
    (hk : ∀ p, kind' p = true → kind p = true) : Stops kind' ts := by
  intro p hp
  have hkind := h p hp
  rw [Bool.eq_false_iff] at hkind ⊢
  exact fun hp' => hkind (hk p hp')

/-- An operator of a level ends an operand of it, as no punctuator is an operator of two levels. -/
theorem Level.operator_ends {l : Level} {p : Punct} (h : l.operates p = true) :
    l.operands.goesOn p = false := by
  cases l <;> cases p <;> first | rfl | cases h

/-- What goes on with a level are its own operators and what goes on with its operands. -/
theorem Level.goesOn_eq (l : Level) (p : Punct) :
    (Form.level l).goesOn p = (l.operands.goesOn p || l.operates p) := by
  cases l <;> cases p <;> rfl

end Expression

end EventPipeline
