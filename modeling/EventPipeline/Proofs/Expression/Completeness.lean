import EventPipeline.Proofs.Expression.Follow

/-!
# The parser takes what the grammar derives

Tokens that are derived from a category are taken by its parser, with the tree of the derivation, whatever
follows them, as long as that does not go on with the category.

Levels of operators and member accesses are left-recursive in the grammar and loops in the parser. For
these two the induction says what the loop has come to when the tokens are used up (`Form.Reads`). There
is one lemma for each rule of the grammar, and the induction on derivations puts them together
(`Derives.reads`).
-/

namespace EventPipeline

namespace Expression

variable {n : Nat}

/-! ### Tokens of a phrase in parts -/

theorem lexemes_eq_append {ts : List Token} {used more : List Lexeme} (h : lexemes ts = used ++ more) :
    ∃ ts₁ ts₂, ts = ts₁ ++ ts₂ ∧ lexemes ts₁ = used ∧ lexemes ts₂ = more :=
  List.map_eq_append_iff.1 h

theorem lexemes_eq_cons {ts : List Token} {first : Lexeme} {more : List Lexeme} (h : lexemes ts = first :: more) :
    ∃ position ts', ts = ⟨first, position⟩ :: ts' ∧ lexemes ts' = more := by
  obtain ⟨t, ts', rfl, rfl, hmore⟩ := List.map_eq_cons_iff.1 h
  exact ⟨t.position, ts', rfl, hmore⟩

theorem lexemes_eq_singleton {ts : List Token} {first : Lexeme} (h : lexemes ts = [first]) :
    ∃ position, ts = [⟨first, position⟩] := by
  obtain ⟨position, ts', rfl, hnil⟩ := lexemes_eq_cons h
  obtain rfl := List.map_eq_nil_iff.1 hnil
  exact ⟨position, rfl⟩

/-- Tokens between two punctuators. -/
theorem lexemes_eq_between {ts : List Token} {p q : Punct} {used : List Lexeme}
    (h : lexemes ts = .punct p :: (used ++ [.punct q])) :
    ∃ position ts' position', ts = ⟨.punct p, position⟩ :: (ts' ++ [⟨.punct q, position'⟩]) ∧
      lexemes ts' = used := by
  obtain ⟨position, ts₁, rfl, h₁⟩ := lexemes_eq_cons h
  obtain ⟨ts', ts₂, rfl, hused, h₂⟩ := lexemes_eq_append h₁
  obtain ⟨position', rfl⟩ := lexemes_eq_singleton h₂
  exact ⟨position, ts', position', rfl, hused⟩

/-! ### Loops -/

theorem expect_punct (p : Punct) (position : Nat) (ts : List Token) :
    expect p (⟨.punct p, position⟩ :: ts) = .ok ((), ts) := by
  rw [expect, nextPunct?, if_pos rfl]
  rfl

section Operations

variable {l : Level} {operand : Parser Expr}

theorem operations_stop {ts : List Token} (h : Stops l.operates ts) (fuel : Nat) (e : Expr) :
    operations l operand fuel e ts = .ok (e, ts) := by
  have hnone : (nextPunct? ts).bind l.operator? = none := by
    cases hp : nextPunct? ts with
    | none => rfl
    | some p => simpa [Level.operates] using h p hp
  cases fuel with
  | zero => rfl
  | succ fuel =>
    rw [operations]
    simp only [hnone]

theorem operations_step {p : Punct} {build : Expr → Expr → Expr} (hb : l.operator? p = some build) {right : Expr}
    {ts rest : List Token} (hr : operand ts = .ok (right, rest)) (position fuel : Nat) (left : Expr) :
    operations l operand (fuel + 1) left (⟨.punct p, position⟩ :: ts) =
      operations l operand fuel (build left right) rest := by
  rw [operations]
  simp only [nextPunct?, Option.bind_some, hb, List.drop_one, List.tail_cons, hr]
  rfl

/-- More steps than there are tokens make no difference. -/
theorem operations_fuel (ho : Sound n (.form l.operands) operand) {fuel fuel' : Nat} {ts : List Token}
    (hfuel : ts.length ≤ fuel) (hfuel' : ts.length ≤ fuel') (e : Expr) :
    operations l operand fuel e ts = operations l operand fuel' e ts := by
  induction fuel generalizing fuel' ts e with
  | zero =>
    obtain rfl := List.length_eq_zero_iff.1 (Nat.le_zero.1 hfuel)
    rw [operations_stop (stops_nil _), operations_stop (stops_nil _)]
  | succ fuel ih =>
    cases hnext : (nextPunct? ts).bind l.operator? with
    | none =>
      have hstop : Stops l.operates ts := by
        intro p hp
        rw [hp, Option.bind_some] at hnext
        rw [Level.operates, hnext]
        rfl
      rw [operations_stop hstop, operations_stop hstop]
    | some build =>
      obtain ⟨p, hp, hbuild⟩ := Option.bind_eq_some_iff.1 hnext
      obtain ⟨position, ts, rfl⟩ := nextPunct?_eq_some hp
      rw [List.length_cons] at hfuel hfuel'
      obtain ⟨extra, rfl⟩ := Nat.exists_eq_add_of_le hfuel'
      rw [Nat.add_right_comm]
      cases hright : operand ts with
      | error err =>
        rw [operations, operations]
        simp only [hnext, List.drop_one, List.tail_cons, hright]
        rfl
      | ok r =>
        obtain ⟨right, rest⟩ := r
        have hlen := ho.length_le hright
        rw [operations_step hbuild hright, operations_step hbuild hright]
        exact ih (by omega) (by omega) _

end Operations

section Accesses

variable {expression : Parser Expr}

theorem accesses_stop {ts : List Token} (h : Stops Form.accessed.goesOn ts) (fuel : Nat) (e : Expr) :
    accesses expression fuel e ts = .ok (e, ts) := by
  cases fuel with
  | zero => rfl
  | succ fuel =>
    unfold accesses
    split
    · cases h .dot rfl
    · cases h .dot rfl
    · cases h .openBracket rfl
    · rfl

theorem accesses_member (fuel : Nat) (e : Expr) (position position' : Nat) (name : Text) (ts : List Token) :
    accesses expression (fuel + 1) e (⟨.punct .dot, position⟩ :: ⟨.word name, position'⟩ :: ts) =
      accesses expression fuel (.member e (.literal (.text name))) ts := rfl

theorem accesses_index {ts rest : List Token} {key : Expr} {position' : Nat}
    (hk : expression ts = .ok (key, ⟨.punct .closeBracket, position'⟩ :: rest)) (fuel : Nat) (e : Expr)
    (position : Nat) :
    accesses expression (fuel + 1) e (⟨.punct .openBracket, position⟩ :: ts) =
      accesses expression fuel (.member e key) rest := by
  rw [accesses, hk]
  rfl

/-- More steps than there are tokens make no difference. -/
theorem accesses_fuel (he : Sound n (.form .expression) expression) {fuel fuel' : Nat} {ts : List Token}
    (hfuel : ts.length ≤ fuel) (hfuel' : ts.length ≤ fuel') (e : Expr) :
    accesses expression fuel e ts = accesses expression fuel' e ts := by
  induction fuel generalizing fuel' ts e with
  | zero =>
    obtain rfl := List.length_eq_zero_iff.1 (Nat.le_zero.1 hfuel)
    rw [accesses_stop (stops_nil _), accesses_stop (stops_nil _)]
  | succ fuel ih =>
    cases fuel' with
    | zero =>
      obtain rfl := List.length_eq_zero_iff.1 (Nat.le_zero.1 hfuel')
      rw [accesses_stop (stops_nil _), accesses_stop (stops_nil _)]
    | succ fuel' =>
      unfold accesses
      split
      · simp only [List.length_cons] at hfuel hfuel'
        exact ih (by omega) (by omega) _
      · rfl
      case h_3 position ts =>
        simp only [List.length_cons] at hfuel hfuel'
        cases hkey : expression ts with
        | error err => rfl
        | ok r =>
          obtain ⟨key, ts₁⟩ := r
          have hlen := he.length_le hkey
          cases hclose : expect .closeBracket ts₁ with
          | error err =>
            simp only [bind, Except.bind, hclose]
          | ok r =>
            obtain ⟨⟨⟩, rest⟩ := r
            obtain ⟨position', rfl⟩ := expect_ok hclose
            rw [List.length_cons] at hlen
            simp only [bind, Except.bind, hclose]
            exact ih (by omega) (by omega) _
      · rfl

end Accesses

/-! ### Reading a category -/

theorem Level.parser_eq (n : Nat) (l : Level) :
    (Form.level l).parser n = chain l (l.operands.parser n) := by
  cases l <;> rfl

/-- The parser of an element. -/
def Element.parser (n : Nat) : (k : Element) → Parser k.Tree
  | argument => (nest n).expression
  | item => Expression.item (nest n).expression
  | entry => Expression.entry (nest n).expression

/-- The parser takes exactly the given lexemes from the front of tokens, if what follows does not go on with
them. -/
def Takes {α : Type} (p : Parser α) (goesOn : Punct → Bool) (used : List Lexeme) (x : α) : Prop :=
  ∀ ⦃ts rest⦄, lexemes ts = used → Stops goesOn rest → p (ts ++ rest) = .ok (x, rest)

/-- What the parser of a form has come to when the lexemes are used up: a loop goes on from there, anything
else has ended. -/
def Form.Reads (n : Nat) : Form → List Lexeme → Expr → Prop
  | level l, used, e => ∀ ⦃ts rest⦄, lexemes ts = used → Stops l.operands.goesOn rest →
      (level l).parser n (ts ++ rest) = operations l (l.operands.parser n) rest.length e rest
  | accessed, used, e => ∀ ⦃ts rest⦄, lexemes ts = used →
      accessed.parser n (ts ++ rest) = accesses (nest n).expression rest.length e rest
  | f, used, e => Takes (f.parser n) f.goesOn used e

/-- The same for any category; the elements of a list are read up to the punctuator that closes it. -/
def Category.Reads (n : Nat) : (c : Category) → List Lexeme → c.Tree → Prop
  | form f, used, e => f.Reads n used e
  | element k, used, x => Takes (k.parser n) k.goesOn used x
  | list k, used, xs => ∀ ⦃ts rest fuel⦄, lexemes ts = used → nextPunct? rest = some k.close → ts.length < fuel →
      elements k.close (k.parser n) fuel (ts ++ rest) = .ok (xs, rest)

/-- If what follows does not go on with a form, its parser has ended. -/
theorem Form.Reads.takes {f : Form} {used : List Lexeme} {e : Expr} (h : f.Reads n used e) :
    Takes (f.parser n) f.goesOn used e := by
  intro ts rest hts hstops
  cases f with
  | level l =>
    have hoperands : Stops l.operands.goesOn rest := by
      refine hstops.mono fun p hp => ?_
      rw [Level.goesOn_eq, hp, Bool.true_or]
    have hoperates : Stops l.operates rest := by
      refine hstops.mono fun p hp => ?_
      rw [Level.goesOn_eq, hp, Bool.or_true]
    rw [h hts hoperands, operations_stop hoperates]
  | accessed => rw [h hts, accesses_stop hstops]
  | expression => exact h hts hstops
  | operand => exact h hts hstops
  | primary => exact h hts hstops

/-! ### Expressions -/

theorem conditional_plain {branch test : Parser Expr} {ts rest : List Token} {t : Expr}
    (ht : test ts = .ok (t, rest)) (hq : nextPunct? rest ≠ some .question) :
    conditional branch test ts = .ok (t, rest) := by
  rw [conditional, ht]
  exact if_neg hq

theorem conditional_branches {branch test : Parser Expr} {ts ts₁ ts₂ rest : List Token} {t yes no : Expr}
    {position position' : Nat} (ht : test ts = .ok (t, ⟨.punct .question, position⟩ :: ts₁))
    (hy : branch ts₁ = .ok (yes, ⟨.punct .colon, position'⟩ :: ts₂)) (hn : branch ts₂ = .ok (no, rest)) :
    conditional branch test ts = .ok (.conditional t yes no, rest) := by
  rw [conditional, ht]
  simp only [bind, Except.bind, nextPunct?, if_true, List.drop_one, List.tail_cons, hy, expect_punct, hn]
  rfl

theorem reads_plain {used : List Lexeme} {e : Expr} (h : (Form.level .or).Reads n used e) :
    Form.expression.Reads (n + 1) used e := by
  intro ts rest hts hstops
  have hor : Stops (Form.level .or).goesOn rest :=
    hstops.mono fun p hp => Bool.or_eq_true_iff.2 (.inl hp)
  exact conditional_plain (h.takes hts hor) fun hp => Bool.noConfusion (hstops _ hp)

theorem reads_conditional {test yes no : List Lexeme} {t a b : Expr} (ht : (Form.level .or).Reads n test t)
    (hy : Form.expression.Reads n yes a) (hn : Form.expression.Reads n no b) :
    Form.expression.Reads (n + 1) (test ++ .punct .question :: (yes ++ .punct .colon :: no))
      (.conditional t a b) := by
  intro ts rest hts hstops
  obtain ⟨ts₁, ts', rfl, hts₁, h₁⟩ := lexemes_eq_append hts
  obtain ⟨position, ts', rfl, h₂⟩ := lexemes_eq_cons h₁
  obtain ⟨ts₂, ts', rfl, hts₂, h₃⟩ := lexemes_eq_append h₂
  obtain ⟨position', ts₃, rfl, hts₃⟩ := lexemes_eq_cons h₃
  simp only [List.append_assoc, List.cons_append]
  exact conditional_branches (ht.takes hts₁ (stops_punct rfl _ _)) (hy hts₂ (stops_punct rfl _ _)) (hn hts₃ hstops)

/-! ### Operators -/

theorem reads_single {l : Level} {used : List Lexeme} {e : Expr} (h : l.operands.Reads n used e) :
    (Form.level l).Reads n used e := by
  intro ts rest hts hstops
  rw [Level.parser_eq, chain, h.takes hts hstops]
  rfl

theorem reads_operation {l : Level} {left right : List Lexeme} {p : Punct} {build : Expr → Expr → Expr} {a b : Expr}
    (hb : l.operator? p = some build) (hl : (Form.level l).Reads n left a) (hr : l.operands.Reads n right b) :
    (Form.level l).Reads n (left ++ .punct p :: right) (build a b) := by
  intro ts rest hts hstops
  obtain ⟨ts₁, ts', rfl, hts₁, h₁⟩ := lexemes_eq_append hts
  obtain ⟨position, ts₂, rfl, hts₂⟩ := lexemes_eq_cons h₁
  have hends : l.operands.goesOn p = false := Level.operator_ends (by rw [Level.operates, hb]; rfl)
  rw [List.append_assoc, List.cons_append, hl hts₁ (stops_punct hends _ _), List.length_cons,
    operations_step hb (hr.takes hts₂ hstops)]
  refine operations_fuel (Form.parser_sound n l.operands) ?_ (Nat.le_refl _) _
  rw [List.length_append]
  exact Nat.le_add_left ..

/-- The parser of operands goes on to member accesses if no prefix operator comes next. -/
theorem operand_parser_unsigned {ts : List Token} (h : (nextPunct? ts).bind UnaryOp.ofPunct? = none) :
    Form.operand.parser n ts = Form.accessed.parser n ts := by
  cases n with
  | zero => exact prefixed_unsigned h
  | succ n => exact prefixed_unsigned h

theorem reads_unsigned {used : List Lexeme} {e : Expr} (hb : Begins Form.accessed.begins used)
    (h : Form.accessed.Reads n used e) : Form.operand.Reads n used e := by
  intro ts rest hts hstops
  have hunsigned : (nextPunct? (ts ++ rest)).bind UnaryOp.ofPunct? = none := by
    cases hp : nextPunct? (ts ++ rest) with
    | none => rfl
    | some p =>
      have hbegins : Form.accessed.begins p = true := Begins.nextPunct? (hts ▸ hb) hp
      cases p <;> first | rfl | cases hbegins
  rw [operand_parser_unsigned hunsigned]
  exact h.takes hts hstops

theorem reads_signed {used : List Lexeme} {p : Punct} {op : UnaryOp} {e : Expr} (hop : UnaryOp.ofPunct? p = some op)
    (h : Form.operand.Reads n used e) : Form.operand.Reads (n + 1) (.punct p :: used) (.unary op e) := by
  intro ts rest hts hstops
  obtain ⟨position, ts, rfl, hts₁⟩ := lexemes_eq_cons hts
  refine (prefixed_signed hop position (ts ++ rest)).trans ?_
  rw [show (nest n).operand (ts ++ rest) = .ok (e, rest) from h hts₁ hstops]
  rfl

/-! ### Member accesses -/

theorem reads_unaccessed {used : List Lexeme} {e : Expr} (h : Form.primary.Reads n used e) :
    Form.accessed.Reads n used e := by
  intro ts rest hts
  have hprimary : Form.primary.parser n (ts ++ rest) = .ok (e, rest) := h hts fun _ _ => rfl
  rw [Form.parser] at hprimary
  rw [Form.parser, accessed, hprimary]
  rfl

theorem reads_member {used : List Lexeme} {e : Expr} {name : Text} (h : Form.accessed.Reads n used e) :
    Form.accessed.Reads n (used ++ [.punct .dot, .word name]) (.member e (.literal (.text name))) := by
  intro ts rest hts
  obtain ⟨ts₁, ts', rfl, hts₁, h₁⟩ := lexemes_eq_append hts
  obtain ⟨position, ts', rfl, h₂⟩ := lexemes_eq_cons h₁
  obtain ⟨position', rfl⟩ := lexemes_eq_singleton h₂
  rw [List.append_assoc, h hts₁]
  simp only [List.cons_append, List.nil_append, List.length_cons]
  rw [accesses_member]
  exact accesses_fuel (nest_sound n).1 (Nat.le_succ _) (Nat.le_refl _) _

theorem reads_index {used key : List Lexeme} {e k : Expr} (h : Form.accessed.Reads n used e)
    (hk : Form.expression.Reads n key k) :
    Form.accessed.Reads n (used ++ .punct .openBracket :: (key ++ [.punct .closeBracket])) (.member e k) := by
  intro ts rest hts
  obtain ⟨ts₁, ts', rfl, hts₁, h₁⟩ := lexemes_eq_append hts
  obtain ⟨position, ts₂, position', rfl, hts₂⟩ := lexemes_eq_between h₁
  have hkey : (nest n).expression (ts₂ ++ ⟨.punct .closeBracket, position'⟩ :: rest) =
      .ok (k, ⟨.punct .closeBracket, position'⟩ :: rest) := hk hts₂ (stops_punct rfl _ _)
  rw [List.append_assoc, h hts₁]
  simp only [List.cons_append, List.append_assoc, List.nil_append, List.length_cons]
  rw [accesses_index hkey]
  refine accesses_fuel (nest_sound n).1 ?_ (Nat.le_refl _) _
  simp only [List.length_append, List.length_cons]
  omega

/-! ### Lists -/

theorem Element.begins_close (k : Element) : k.begins k.close = false := by
  cases k <;> rfl

theorem Element.goesOn_close (k : Element) : k.goesOn k.close = false := by
  cases k <;> rfl

theorem Element.goesOn_comma (k : Element) : k.goesOn .comma = false := by
  cases k <;> rfl

theorem Element.close_ne_comma (k : Element) : k.close ≠ .comma := by
  cases k <;> decide

section Lists

variable {α : Type} {close : Punct} {element : Parser α}

theorem elements_none {ts : List Token} (hc : nextPunct? ts = some close) (fuel : Nat) :
    elements close element (fuel + 1) ts = .ok ([], ts) := by
  rw [elements, if_pos hc]

theorem elements_last {ts rest : List Token} {x : α} (hc : nextPunct? ts ≠ some close)
    (hx : element ts = .ok (x, rest)) (hcomma : nextPunct? rest ≠ some .comma) (fuel : Nat) :
    elements close element (fuel + 1) ts = .ok ([x], rest) := by
  rw [elements, if_neg hc, hx]
  exact if_neg hcomma

theorem elements_more {ts ts₁ rest : List Token} {x : α} {xs : List α} {position fuel : Nat}
    (hc : nextPunct? ts ≠ some close) (hx : element ts = .ok (x, ⟨.punct .comma, position⟩ :: ts₁))
    (hxs : elements close element fuel ts₁ = .ok (xs, rest)) :
    elements close element (fuel + 1) ts = .ok (x :: xs, rest) := by
  rw [elements, if_neg hc, hx]
  simp only [bind, Except.bind, nextPunct?, if_true, List.drop_one, List.tail_cons, hxs]
  rfl

end Lists

/-- No element begins with the punctuator that closes the list. -/
theorem not_closed {k : Element} {ts : List Token} (h : Begins k.begins (lexemes ts)) (rest : List Token) :
    nextPunct? (ts ++ rest) ≠ some k.close := by
  intro hp
  have hbegins := h.nextPunct? hp
  rw [k.begins_close] at hbegins
  cases hbegins

theorem reads_none (k : Element) : (Category.list k).Reads n [] [] := by
  intro ts rest fuel hts hclose hfuel
  obtain rfl := List.map_eq_nil_iff.1 hts
  obtain ⟨extra, rfl⟩ := Nat.exists_eq_add_of_lt hfuel
  exact elements_none hclose _

theorem reads_last {k : Element} {used : List Lexeme} {x : k.Tree} (hb : Begins k.begins used)
    (h : (Category.element k).Reads n used x) : (Category.list k).Reads n used [x] := by
  intro ts rest fuel hts hclose hfuel
  obtain ⟨extra, rfl⟩ := Nat.exists_eq_add_of_lt hfuel
  have hstops : Stops k.goesOn rest := by
    intro p hp
    obtain rfl := Option.some.inj (hclose.symm.trans hp)
    exact k.goesOn_close
  have hcomma : nextPunct? rest ≠ some .comma := by
    rw [hclose]
    exact fun hp => k.close_ne_comma (Option.some.inj hp)
  exact elements_last (not_closed (hts ▸ hb) rest) (h hts hstops) hcomma _

theorem reads_more {k : Element} {used others : List Lexeme} {x : k.Tree} {xs : List k.Tree}
    (hb : Begins k.begins used) (h : (Category.element k).Reads n used x)
    (ho : (Category.list k).Reads n others xs) :
    (Category.list k).Reads n (used ++ .punct .comma :: others) (x :: xs) := by
  intro ts rest fuel hts hclose hfuel
  obtain ⟨ts₁, ts', rfl, hts₁, h₁⟩ := lexemes_eq_append hts
  obtain ⟨position, ts₂, rfl, hts₂⟩ := lexemes_eq_cons h₁
  rw [List.length_append, List.length_cons] at hfuel
  obtain ⟨extra, rfl⟩ := Nat.exists_eq_add_of_lt hfuel
  rw [List.append_assoc, List.cons_append]
  exact elements_more (not_closed (hts₁ ▸ hb) _) (h hts₁ (stops_punct k.goesOn_comma _ _))
    (ho hts₂ hclose (by omega))

/-- Elements and the punctuator that closes them are taken. -/
theorem Category.Reads.enclosed {k : Element} {used : List Lexeme} {xs : List k.Tree}
    (h : (Category.list k).Reads n used xs) {ts : List Token} (hts : lexemes ts = used) (position : Nat)
    (rest : List Token) :
    Expression.enclosed k.close (k.parser n) (ts ++ ⟨.punct k.close, position⟩ :: rest) = .ok (xs, rest) := by
  have hlen : ts.length < (ts ++ ⟨.punct k.close, position⟩ :: rest).length + 1 := by
    rw [List.length_append]
    omega
  rw [Expression.enclosed, h hts rfl hlen]
  simp only [bind, Except.bind, expect_punct]
  rfl

/-! ### Elements -/

theorem Element.goesOn_of_expression (k : Element) {p : Punct} (h : Form.expression.goesOn p = true) :
    k.goesOn p = true := by
  cases k with
  | argument => exact h
  | item => exact h
  | entry => exact Bool.or_eq_true_iff.2 (.inl h)

theorem reads_argument {used : List Lexeme} {e : Expr} (h : Form.expression.Reads n used e) :
    (Category.element .argument).Reads n used e :=
  fun _ _ hts hstops => h hts hstops

theorem reads_item {used : List Lexeme} {e : Expr} (hb : Begins Form.expression.begins used)
    (h : Form.expression.Reads n used e) : (Category.element .item).Reads n used (false, e) := by
  intro ts rest hts hstops
  have hspread : nextPunct? (ts ++ rest) ≠ some .ellipsis :=
    fun hp => Bool.noConfusion ((hts ▸ hb : Begins _ (lexemes ts)).nextPunct? hp)
  have he : (nest n).expression (ts ++ rest) = .ok (e, rest) := h hts hstops
  rw [Element.parser, item, if_neg hspread, he]
  rfl

theorem reads_spreadItem {used : List Lexeme} {e : Expr} (h : Form.expression.Reads n used e) :
    (Category.element .item).Reads n (.punct .ellipsis :: used) (true, e) := by
  intro ts rest hts hstops
  obtain ⟨position, ts, rfl, hts₁⟩ := lexemes_eq_cons hts
  have he : (nest n).expression (ts ++ rest) = .ok (e, rest) := h hts₁ hstops
  rw [Element.parser, item, List.cons_append, nextPunct?, if_pos rfl, List.drop_one, List.tail_cons, he]
  rfl

theorem reads_spreadEntry {used : List Lexeme} {e : Expr} (h : Form.expression.Reads n used e) :
    (Category.element .entry).Reads n (.punct .ellipsis :: used) (none, e) := by
  intro ts rest hts hstops
  obtain ⟨position, ts, rfl, hts₁⟩ := lexemes_eq_cons hts
  have he : (nest n).expression (ts ++ rest) = .ok (e, rest) :=
    h hts₁ (hstops.mono fun p hp => Element.goesOn_of_expression .entry hp)
  rw [Element.parser, entry.eq_def, List.cons_append, nextPunct?, if_pos rfl, List.drop_one, List.tail_cons, he]
  rfl

theorem reads_entry {first : Lexeme} {used : List Lexeme} {key : Text} {e : Expr}
    (hkey : keyText? first = some key) (h : Form.expression.Reads n used e) :
    (Category.element .entry).Reads n (first :: .punct .colon :: used) (some key, e) := by
  intro ts rest hts hstops
  obtain ⟨position, ts', rfl, h₁⟩ := lexemes_eq_cons hts
  obtain ⟨position', ts, rfl, hts₁⟩ := lexemes_eq_cons h₁
  have he : (nest n).expression (ts ++ rest) = .ok (e, rest) :=
    h hts₁ (hstops.mono fun p hp => Element.goesOn_of_expression .entry hp)
  have hspread : nextPunct? (⟨first, position⟩ :: ⟨.punct .colon, position'⟩ :: (ts ++ rest)) ≠ some .ellipsis := by
    intro hp
    obtain ⟨_, _, hcons⟩ := nextPunct?_eq_some hp
    cases hcons
    cases hkey
  rw [Element.parser, entry.eq_def, List.cons_append, List.cons_append, if_neg hspread]
  simp only [hkey, nextPunct?, if_true, List.drop_one, List.tail_cons, he]
  rfl

theorem reads_shorthand : (Category.element .entry).Reads n [.word eventName] (some eventName, .event) := by
  intro ts rest hts hstops
  obtain ⟨position, rfl⟩ := lexemes_eq_singleton hts
  have hcolon : nextPunct? rest ≠ some .colon := fun hp => Bool.noConfusion (hstops _ hp)
  rw [Element.parser, entry.eq_def, List.singleton_append, if_neg (by simp [nextPunct?])]
  simp only [keyText?, if_neg hcolon, if_true]

/-! ### Primary expressions -/

theorem Builtin.constant?_name (f : Builtin) : constant? f.name = none := by
  cases f <;> decide

theorem Builtin.name_ne_eventName (f : Builtin) : f.name ≠ eventName := by
  cases f <;> decide

theorem reads_number (x : Number) : Form.primary.Reads n [.number x] (.literal (.number x)) := by
  intro ts rest hts _
  obtain ⟨position, rfl⟩ := lexemes_eq_singleton hts
  rfl

theorem reads_string (t : Text) : Form.primary.Reads n [.string t] (.literal (.text t)) := by
  intro ts rest hts _
  obtain ⟨position, rfl⟩ := lexemes_eq_singleton hts
  rfl

theorem reads_constant {name : Text} {v : Value} (h : constant? name = some v) :
    Form.primary.Reads n [.word name] (.literal v) := by
  intro ts rest hts _
  obtain ⟨position, rfl⟩ := lexemes_eq_singleton hts
  rw [Form.parser, List.singleton_append, primary]
  simp only [h]

theorem reads_event : Form.primary.Reads n [.word eventName] .event := by
  intro ts rest hts _
  obtain ⟨position, rfl⟩ := lexemes_eq_singleton hts
  rfl

theorem reads_call {f : Builtin} {used : List Lexeme} {args : List Expr}
    (h : (Category.list .argument).Reads n used args) (ha : f.accepts args.length = true) :
    Form.primary.Reads n (.word f.name :: .punct .openParen :: (used ++ [.punct .closeParen])) (.call f args) := by
  intro ts rest hts _
  obtain ⟨position, ts', rfl, h₁⟩ := lexemes_eq_cons hts
  obtain ⟨position', ts, position'', rfl, hts₁⟩ := lexemes_eq_between h₁
  have hargs : enclosed .closeParen (nest n).expression (ts ++ ⟨.punct .closeParen, position''⟩ :: rest) =
      .ok (args, rest) := h.enclosed hts₁ _ _
  simp only [List.cons_append, List.append_assoc, List.nil_append]
  rw [Form.parser, primary]
  simp only [f.constant?_name, if_neg f.name_ne_eventName, Builtin.ofName?_name]
  rw [arguments, nextPunct?, if_pos rfl, List.drop_one, List.tail_cons, hargs]
  exact if_pos ha

theorem reads_parentheses {used : List Lexeme} {e : Expr} (h : Form.expression.Reads n used e) :
    Form.primary.Reads n (.punct .openParen :: (used ++ [.punct .closeParen])) e := by
  intro ts rest hts _
  obtain ⟨position, ts, position', rfl, hts₁⟩ := lexemes_eq_between hts
  have he : (nest n).expression (ts ++ ⟨.punct .closeParen, position'⟩ :: rest) =
      .ok (e, ⟨.punct .closeParen, position'⟩ :: rest) := h hts₁ (stops_punct rfl _ _)
  simp only [List.cons_append, List.append_assoc, List.nil_append]
  rw [Form.parser, primary, he]
  simp only [bind, Except.bind, expect_punct]
  rfl

theorem reads_array {used : List Lexeme} {items : List (Bool × Expr)}
    (h : (Category.list .item).Reads n used items) :
    Form.primary.Reads n (.punct .openBracket :: (used ++ [.punct .closeBracket])) (.array items) := by
  intro ts rest hts _
  obtain ⟨position, ts, position', rfl, hts₁⟩ := lexemes_eq_between hts
  have hitems : enclosed .closeBracket (item (nest n).expression) (ts ++ ⟨.punct .closeBracket, position'⟩ :: rest) =
      .ok (items, rest) := h.enclosed hts₁ _ _
  simp only [List.cons_append, List.append_assoc, List.nil_append]
  rw [Form.parser, primary, hitems]
  rfl

theorem reads_object {used : List Lexeme} {entries : List (Option Text × Expr)}
    (h : (Category.list .entry).Reads n used entries) :
    Form.primary.Reads n (.punct .openBrace :: (used ++ [.punct .closeBrace])) (.object entries) := by
  intro ts rest hts _
  obtain ⟨position, ts, position', rfl, hts₁⟩ := lexemes_eq_between hts
  have hentries : enclosed .closeBrace (entry (nest n).expression) (ts ++ ⟨.punct .closeBrace, position'⟩ :: rest) =
      .ok (entries, rest) := h.enclosed hts₁ _ _
  simp only [List.cons_append, List.append_assoc, List.nil_append]
  rw [Form.parser, primary, hentries]
  rfl

/-! ### All derivations -/

/-- **Whatever is derived from a category is read by its parser.** -/
theorem Derives.reads {c : Category} {used : List Lexeme} {x : c.Tree} (h : Derives n c used x) :
    c.Reads n used x := by
  induction h with
  | plain _ ih => exact reads_plain ih
  | conditional _ _ _ iht ihy ihn => exact reads_conditional iht ihy ihn
  | single _ ih => exact reads_single ih
  | operation hb _ _ ihl ihr => exact reads_operation hb ihl ihr
  | unsigned h ih => exact reads_unsigned h.begins ih
  | signed hop _ ih => exact reads_signed hop ih
  | unaccessed _ ih => exact reads_unaccessed ih
  | member _ ih => exact reads_member ih
  | index _ _ ih ihk => exact reads_index ih ihk
  | number => exact reads_number _
  | string => exact reads_string _
  | constant h => exact reads_constant h
  | event => exact reads_event
  | call _ ha ih => exact reads_call ih ha
  | parentheses _ ih => exact reads_parentheses ih
  | array _ ih => exact reads_array ih
  | object _ ih => exact reads_object ih
  | argument _ ih => exact reads_argument ih
  | item h ih => exact reads_item h.begins ih
  | spreadItem _ ih => exact reads_spreadItem ih
  | entry hkey _ ih => exact reads_entry hkey ih
  | shorthand => exact reads_shorthand
  | spreadEntry _ ih => exact reads_spreadEntry ih
  | none => exact reads_none _
  | last h ih => exact reads_last h.begins ih
  | more h _ ih iho => exact reads_more h.begins ih iho

end Expression

end EventPipeline
