import EventPipeline.Proofs.Expression.Printing
import EventPipeline.Proofs.Number.Range

/-!
# What evaluation fails with

An expression that cannot be evaluated fails as an evaluation of that expression, with its text in the details. Two
kinds of operations are an exception (`Escapes`): arithmetic out of its range, and an array or an object as the key of
an object. An expression is *defined* on an event if the evaluation applies no operation to such operands, as far as it
gets (`Defined`): what is not evaluated does not count, nor does what comes after a failure. That is exactly when the
failure of an evaluation is one of the language (`contained_eval`), and so for the expressions of texts
(`evaluation_answers_iff`).
-/

namespace EventPipeline

namespace Expression

/-- The error arises below the language, and its failure is not one of an evaluation. -/
def EvalError.Escapes : EvalError → Prop
  | .arithmetic _ | .unhashable _ => True
  | _ => False

/-- No error of the computation escapes. -/
def Contained {α : Type} (r : Except EvalError α) : Prop := ∀ e, r = .error e → ¬ e.Escapes

section

variable {α β : Type}

@[simp] theorem contained_ok (v : α) : Contained (.ok v : Except EvalError α) := fun _ h => by cases h

@[simp] theorem contained_error {e : EvalError} : Contained (.error e : Except EvalError α) ↔ ¬ e.Escapes :=
  ⟨fun h => h e rfl, fun h e' he => by cases he; exact h⟩

@[simp] theorem contained_pure (v : α) : Contained (pure v : Except EvalError α) := contained_ok v

theorem contained_bind {r : Except EvalError α} {f : α → Except EvalError β} :
    Contained (r >>= f) ↔ Contained r ∧ ∀ v, r = .ok v → Contained (f v) := by
  cases r with
  | error e => simp [bind, Except.bind]
  | ok v => simp [bind, Except.bind]

/-- An operation on numbers is contained if it has a result, and only then. -/
theorem contained_ofNumber {r : Except NumberError Number} : Contained (ofNumber r) ↔ ∃ n, r = .ok n := by
  cases r <;> simp [ofNumber, EvalError.Escapes]

end

/-! ### Domains of operations -/

/-- The key is in the domain of members: it is none of the containers if the target is an object, and in range if the
target is an array or a text and the key a number. -/
def memberDefined : Value → Value → Prop
  | .object _, .array _ | .object _, .object _ => False
  | .array _, .number n | .text _, .number n => n.InRange
  | _, _ => True

/-- The operands are in the domain of an operator: if it is one of arithmetic and both are numbers, in the range of its
operation. -/
def binaryDefined : BinaryOp → Value → Value → Prop
  | .add, .number m, .number n | .sub, .number m, .number n | .mul, .number m, .number n => m.Meets n
  | .div, .number m, .number n => n.isZero = false → m.Divides n
  | .rem, .number m, .number n => n.isZero = false → m.Remains n
  | _, _, _ => True

/-- The number can be rounded to the digits, if both are numbers and the digits integral. -/
def roundDefined : Value → Value → Prop
  | .number n, .number digits => digits.InRange ∧ ∀ d, digits.integer? = some d → n.Rounds d
  | _, _ => True

/-- The arguments are in the domain of a function: rounding, to no digits if none are given, is the only one with a
domain of its own. -/
def callDefined : Builtin → List Value → Prop
  | .round, args => roundDefined (args.headD .null) (args.getD 1 (.int 0))
  | _, _ => True

theorem contained_itemAt {α : Type} (items : List α) (wrap : α → Value) (key : Value) :
    Contained (itemAt items wrap key) ↔ ∀ n, key = .number n → n.InRange := by
  cases key with
  | number n =>
    have hrange := Number.toFloat_ok_iff (a := n)
    unfold itemAt
    cases h : n.toFloat with
    | error e => simp [h, EvalError.Escapes, ← hrange]
    | ok x =>
      refine iff_of_true ?_ fun m hm => ?_
      · simp only [h]
        split <;> exact contained_ok _
      · cases hm
        exact hrange.1 ⟨x, h⟩
  | _ => simp [itemAt]

theorem contained_memberOf (target key : Value) : Contained (memberOf target key) ↔ memberDefined target key := by
  have hitems : ∀ {α : Type} (items : List α) (wrap : α → Value) (length : Value),
      Contained (if key = .text lengthName then .ok length else itemAt items wrap key) ↔
        ∀ n, key = .number n → n.InRange := by
    intro α items wrap length
    split_ifs with hkey
    · simp [hkey]
    · exact contained_itemAt items wrap key
  cases target with
  | array items =>
    rw [memberOf, hitems]
    cases key <;> simp [memberDefined]
  | text t =>
    rw [memberOf, hitems]
    cases key <;> simp [memberDefined]
  | object fields =>
    rw [memberOf, contained_bind]
    cases key <;> simp [keyOf?, memberDefined, EvalError.Escapes]
  | _ => simp [memberOf, memberDefined, EvalError.Escapes]

/-- A quotient of two integers becomes an integer again if it is one, which takes nothing from its domain. -/
theorem quotientOf_ok_iff {m n : Number} (hn : n.isZero = false) : (∃ r, quotientOf m n = .ok r) ↔ m.Divides n := by
  rw [← Number.div_ok_iff hn]
  unfold quotientOf
  cases m <;> cases n <;> cases Number.div _ _ <;> simp [Except.map]

theorem contained_div (m n : Number) :
    Contained (arithmetic .div m n) ↔ (n.isZero = false → m.Divides n) := by
  unfold arithmetic
  cases hn : n.isZero with
  | true => simp [EvalError.Escapes]
  | false => simp [contained_ofNumber, quotientOf_ok_iff hn]

theorem contained_rem (m n : Number) :
    Contained (arithmetic .rem m n) ↔ (n.isZero = false → m.Remains n) := by
  unfold arithmetic
  cases hn : n.isZero with
  | true => simp [EvalError.Escapes]
  | false => simp [contained_ofNumber, Number.rem_ok_iff]

theorem contained_compareValues (op : BinaryOp) (a b : Value) : Contained (compareValues op a b) := by
  cases a <;> cases b <;> simp [compareValues, EvalError.Escapes]

theorem contained_applyArithmetic (op : BinaryOp) (a b : Value) : Contained (applyArithmetic op a b) ↔
    ∀ m n, a = .number m → b = .number n → Contained (arithmetic op m n) := by
  unfold applyArithmetic
  split
  · simp
  · simp
  · rename_i hnumbers _
    exact iff_of_true (by simp [EvalError.Escapes]) fun m n ha hb => (hnumbers m n ha hb).elim

theorem contained_applyBinary (op : BinaryOp) (a b : Value) :
    Contained (applyBinary op a b) ↔ binaryDefined op a b := by
  have hcombine : ∀ {ints floats} {m n : Number},
      Contained (ofNumber (Number.combine ints floats m n)) ↔ m.Meets n := by
    intro ints floats m n
    rw [contained_ofNumber, Number.combine_ok_iff]
  cases op
  case add | sub | mul =>
    rw [applyBinary, contained_applyArithmetic]
    cases a <;> cases b <;> simp [binaryDefined, arithmetic, Number.add, Number.sub, Number.mul, hcombine]
  case div =>
    rw [applyBinary, contained_applyArithmetic]
    cases a <;> cases b <;> simp [binaryDefined, contained_div]
  case rem =>
    rw [applyBinary, contained_applyArithmetic]
    cases a <;> cases b <;> simp [binaryDefined, contained_rem]
  case lt | le | gt | ge => simp [applyBinary, binaryDefined, contained_compareValues]
  all_goals simp [applyBinary, binaryDefined]

theorem contained_applyUnary (op : UnaryOp) (v : Value) : Contained (applyUnary op v) := by
  cases op <;> cases v <;> simp [applyUnary, EvalError.Escapes]

theorem contained_roundOf (v w : Value) : Contained (roundOf v w) ↔ roundDefined v w := by
  unfold roundOf roundDefined
  split
  · rename_i n digits
    have hrange := Number.toFloat_ok_iff (a := digits)
    cases h : digits.toFloat with
    | error e => simp [h, EvalError.Escapes, ← hrange]
    | ok x =>
      dsimp only
      rw [← hrange]
      cases hd : digits.integer? with
      | none =>
        simp only [h]
        simp [EvalError.Escapes]
      | some d =>
        simp only [h]
        simp [contained_ofNumber, Number.round_ok_iff]
  · simp [EvalError.Escapes]

theorem contained_extreme (f : Builtin) (choose : Number → List Number → Number) (args : List Value) :
    Contained (extreme f choose args) := by
  unfold extreme
  dsimp only
  split <;> simp [EvalError.Escapes]

theorem contained_numberOf (v : Value) : Contained (numberOf v) := by
  cases v with
  | text t => cases h : numberOfText? t <;> simp [numberOf, h, EvalError.Escapes]
  | _ => simp [numberOf, EvalError.Escapes]

theorem contained_mapText (f : Builtin) (g : Text → Text) (v : Value) : Contained (mapText f g v) := by
  cases v <;> simp [mapText, EvalError.Escapes]

theorem contained_lengthOf (v : Value) : Contained (lengthOf v) := by
  cases v <;> simp [lengthOf, EvalError.Escapes]

theorem contained_absOf (v : Value) : Contained (absOf v) := by
  cases v <;> simp [absOf, EvalError.Escapes]

theorem contained_applyBuiltin (now : Int) (f : Builtin) (args : List Value) :
    Contained (applyBuiltin now f args) ↔ callDefined f args := by
  unfold applyBuiltin
  cases f with
  | lower => exact iff_of_true (contained_mapText _ _ _) trivial
  | upper => exact iff_of_true (contained_mapText _ _ _) trivial
  | len => exact iff_of_true (contained_lengthOf _) trivial
  | abs => exact iff_of_true (contained_absOf _) trivial
  | min => exact iff_of_true (contained_extreme _ _ _) trivial
  | max => exact iff_of_true (contained_extreme _ _ _) trivial
  | str => exact iff_of_true (contained_ok _) trivial
  | number => exact iff_of_true (contained_numberOf _) trivial
  | now => exact iff_of_true (contained_ok _) trivial
  | round => rcases args with _ | ⟨v, _ | ⟨w, args⟩⟩ <;> exact contained_roundOf _ _

/-! ### Evaluation -/

namespace Expr

variable (now : Int) (event : Value)

mutual

/-- No operation that the evaluation of the expression applies has operands out of its domain. -/
def Defined : Expr → Prop
  | .literal _ | .event => True
  | .member target key => Defined target ∧ ∀ t, eval now event target = .ok t →
      Defined key ∧ ∀ k, eval now event key = .ok k → memberDefined t k
  | .call f args => DefinedAll args ∧ ∀ vs, evalAll now event args = .ok vs → callDefined f vs
  | .unary _ operand => Defined operand
  | .binary op left right => Defined left ∧ ∀ a, eval now event left = .ok a →
      Defined right ∧ ∀ b, eval now event right = .ok b → binaryDefined op a b
  | .logical .and left right => Defined left ∧ ∀ a, eval now event left = .ok a → truthy a = true → Defined right
  | .logical .or left right => Defined left ∧ ∀ a, eval now event left = .ok a → truthy a = false → Defined right
  | .conditional test yes no => Defined test ∧ ∀ t, eval now event test = .ok t →
      if truthy t then Defined yes else Defined no
  | .array items => DefinedItems items
  | .object entries => DefinedEntries entries

/-- The same for expressions from left to right, up to the first that fails. -/
def DefinedAll : List Expr → Prop
  | [] => True
  | e :: es => Defined e ∧ ∀ v, eval now event e = .ok v → DefinedAll es

/-- The same for the items of an array. -/
def DefinedItems : List (Bool × Expr) → Prop
  | [] => True
  | (spread, e) :: es => Defined e ∧ ∀ v, eval now event e = .ok v →
      (spread = true → ∃ items, spreadItems v = .ok items) → DefinedItems es

/-- The same for the entries of an object. -/
def DefinedEntries : List (Option Text × Expr) → Prop
  | [] => True
  | (some _, e) :: es => Defined e ∧ ∀ v, eval now event e = .ok v → DefinedEntries es
  | (none, e) :: es => Defined e ∧ ∀ v, eval now event e = .ok v →
      (∃ more, spreadFields v = .ok more) → DefinedEntries es

end

theorem contained_spreadItems (v : Value) : Contained (spreadItems v) := by
  cases v <;> simp [spreadItems, EvalError.Escapes]

theorem contained_spreadFields (v : Value) : Contained (spreadFields v) := by
  cases v <;> simp [spreadFields, EvalError.Escapes]

mutual

/-- **Errors that escape come from operations out of their domains.** -/
theorem contained_eval : ∀ e : Expr, Contained (eval now event e) ↔ Defined now event e
  | .literal v => by simp [eval, Defined]
  | .event => by simp [eval, Defined]
  | .member target key => by
    rw [eval, contained_bind, contained_eval target, Defined]
    simp only [contained_bind, contained_eval key, contained_memberOf]
  | .call f args => by
    rw [eval, contained_bind, contained_evalAll args, Defined]
    simp only [contained_applyBuiltin]
  | .unary op operand => by
    rw [eval, contained_bind, contained_eval operand, Defined]
    simp only [contained_applyUnary, implies_true, and_true]
  | .binary op left right => by
    rw [eval, contained_bind, contained_eval left, Defined]
    simp only [contained_bind, contained_eval right, contained_applyBinary]
  | .logical .and left right => by
    rw [eval, contained_bind, contained_eval left, Defined]
    refine and_congr_right fun _ => forall₂_congr fun a _ => ?_
    cases truthy a <;> simp [contained_eval right]
  | .logical .or left right => by
    rw [eval, contained_bind, contained_eval left, Defined]
    refine and_congr_right fun _ => forall₂_congr fun a _ => ?_
    cases truthy a <;> simp [contained_eval right]
  | .conditional test yes no => by
    rw [eval, contained_bind, contained_eval test, Defined]
    refine and_congr_right fun _ => forall₂_congr fun t _ => ?_
    cases truthy t
    · simp [contained_eval no]
    · simp [contained_eval yes]
  | .array items => by
    rw [eval, contained_bind, contained_evalItems items, Defined]
    simp
  | .object entries => by
    rw [eval, contained_bind, contained_evalEntries [] entries, Defined]
    simp

theorem contained_evalAll : ∀ es : List Expr, Contained (evalAll now event es) ↔ DefinedAll now event es
  | [] => by simp [evalAll, DefinedAll]
  | e :: es => by
    rw [evalAll, contained_bind, contained_eval e, DefinedAll]
    simp only [contained_bind, contained_evalAll es, contained_pure, implies_true, and_true]

theorem contained_evalItems : ∀ es : List (Bool × Expr), Contained (evalItems now event es) ↔ DefinedItems now event es
  | [] => by simp [evalItems, DefinedItems]
  | (spread, e) :: es => by
    rw [evalItems, contained_bind, contained_eval e, DefinedItems]
    refine and_congr_right fun _ => forall₂_congr fun v _ => ?_
    cases spread with
    | false => simp [contained_bind, contained_evalItems es, -bind_pure_comp]
    | true => simp [contained_bind, contained_evalItems es, contained_spreadItems, -bind_pure_comp]

theorem contained_evalEntries (fields : Fields) : ∀ es : List (Option Text × Expr),
    Contained (evalEntries now event fields es) ↔ DefinedEntries now event es
  | [] => by simp [evalEntries, DefinedEntries]
  | (some key, e) :: es => by
    rw [evalEntries, contained_bind, contained_eval e, DefinedEntries]
    refine and_congr_right fun _ => forall₂_congr fun v _ => ?_
    exact contained_evalEntries _ es
  | (none, e) :: es => by
    rw [evalEntries, contained_bind, contained_eval e, DefinedEntries]
    refine and_congr_right fun _ => forall₂_congr fun v _ => ?_
    simp [contained_bind, contained_spreadFields, contained_evalEntries _ es]

end

end Expr

/-! ### Failures -/

/-- An error of the language becomes a failure of the evaluation that has the text of the expression. -/
theorem toFailure_of_not_escapes (source : Text) {e : EvalError} (h : ¬ e.Escapes) : ∃ message details,
    e.toFailure source = .structured .expressionEvaluation message details none none ∧
      Table.find? details "expression" = some (.text source) := by
  have hfailed : ∀ (message : Text) (details : Fields), ∃ message' details',
      Failure.structured .expressionEvaluation message (Table.set details "expression" (.text source)) none none =
        .structured .expressionEvaluation message' details' none none ∧
      Table.find? details' "expression" = some (.text source) :=
    fun message details => ⟨message, _, rfl, by simp [Table.find?_set]⟩
  cases e with
  | arithmetic e => exact absurd trivial h
  | unhashable v => exact absurd trivial h
  | _ => exact hfailed _ _

/-- An error from below the language stays one. -/
theorem toFailure_of_escapes (source : Text) {e : EvalError} (h : e.Escapes) :
    ∃ fault message, e.toFailure source = .plain fault message := by
  cases e with
  | arithmetic e => cases e <;> exact ⟨_, _, rfl⟩
  | unhashable v => exact ⟨_, _, rfl⟩
  | _ => exact h.elim

/-- There is a value, or a failure of an evaluation with the text of the expression in its details. -/
def Answers (source : Text) (r : Except Failure Value) : Prop :=
  (∃ v, r = .ok v) ∨ ∃ message details, r = .error (.structured .expressionEvaluation message details none none) ∧
    Table.find? details "expression" = some (.text source)

theorem not_answers_plain {source message : Text} {fault : Fault} :
    ¬ Answers source (.error (.plain fault message)) := by
  rintro (⟨v, hv⟩ | ⟨message', details, hf, -⟩)
  · cases hv
  · cases hf

/-- The sum of two fields. -/
def sumOfFields : Expression :=
  ⟨"event.a + event.b", .binary .add (.member .event (.literal (.text "a"))) (.member .event (.literal (.text "b")))⟩

/-- An event of an integer and one half. -/
def integerAndHalf (n : Int) : Value :=
  .object [("a", .number (.int n)), ("b", .number (.float Binary64.oneHalf))]

theorem compile_sumOfFields : compile "event.a + event.b" = .ok sumOfFields := by cbv

end Expression

end EventPipeline
