import EventPipeline.Proofs.Expression.Recognition
import Mathlib

/-!
# An expression sees only the fields that it names

If an expression refers to the event only by members whose names are fixed, these names are the fields that it reads
(`fieldsRead?`). Then two events may differ in whatever else they have: if these fields are the same, or missing in one
and null in the other, evaluation gives the same value or fails in the same way (`evaluate_of_agree`). The clock is
another source of results, so its expressions are left out.
-/

namespace EventPipeline

namespace Expression

/-! ### Fields that are read -/

/-- The field that a member is, if it is one of the event under a fixed name. -/
def eventField? : Expr → Expr → Option Text
  | .event, .literal (.text name) => some name
  | _, _ => none

/-- The fields that are read by one expression and another, if both have their fields. -/
def readBoth (a b : Option (List Text)) : Option (List Text) := do
  return (← a) ++ (← b)

namespace Expr

mutual

/-- The fields of the event that an expression reads, if it refers to the event only by them, and not to the clock. -/
def fieldsRead? : Expr → Option (List Text)
  | .literal _ => some []
  | .event => none
  | .member target key =>
    match eventField? target key with
    | some name => some [name]
    | none => readBoth (fieldsRead? target) (fieldsRead? key)
  | .call f args => if f = .now then none else fieldsReadAll? args
  | .unary _ operand => fieldsRead? operand
  | .binary _ left right | .logical _ left right => readBoth (fieldsRead? left) (fieldsRead? right)
  | .conditional test yes no => readBoth (fieldsRead? test) (readBoth (fieldsRead? yes) (fieldsRead? no))
  | .array items => fieldsReadItems? items
  | .object entries => fieldsReadEntries? entries

/-- The fields that expressions read. -/
def fieldsReadAll? : List Expr → Option (List Text)
  | [] => some []
  | e :: es => readBoth (fieldsRead? e) (fieldsReadAll? es)

/-- The fields that the items of an array read. -/
def fieldsReadItems? : List (Bool × Expr) → Option (List Text)
  | [] => some []
  | (_, e) :: es => readBoth (fieldsRead? e) (fieldsReadItems? es)

/-- The fields that the entries of an object read. -/
def fieldsReadEntries? : List (Option Text × Expr) → Option (List Text)
  | [] => some []
  | (_, e) :: es => readBoth (fieldsRead? e) (fieldsReadEntries? es)

end

end Expr

theorem eventField?_eq_some {target key : Expr} {name : Text} (h : eventField? target key = some name) :
    target = .event ∧ key = .literal (.text name) := by
  unfold eventField? at h
  split at h
  · cases h
    exact ⟨rfl, rfl⟩
  · cases h

theorem readBoth_eq_some {a b : Option (List Text)} {names : List Text} (h : readBoth a b = some names) :
    ∃ m n, a = some m ∧ b = some n ∧ names = m ++ n := by
  cases a with
  | none => cases h
  | some m =>
    cases b with
    | none => cases h
    | some n =>
      cases h
      exact ⟨m, n, rfl, rfl, rfl⟩

/-! ### Events that agree -/

/-- Two events agree on fields: each of them has the same value in both, where a missing one counts as null. -/
def Agree (names : List Text) (fields fields' : Fields) : Prop :=
  ∀ name ∈ names, (Table.find? fields (.name name)).getD .null = (Table.find? fields' (.name name)).getD .null

theorem agree_append {m n : List Text} {fields fields' : Fields} :
    Agree (m ++ n) fields fields' ↔ Agree m fields fields' ∧ Agree n fields fields' :=
  List.forall_mem_append

theorem applyBuiltin_clock {f : Builtin} (hf : f ≠ .now) (now now' : Int) (args : List Value) :
    applyBuiltin now f args = applyBuiltin now' f args := by
  cases f with
  | now => exact absurd rfl hf
  | _ => rfl

namespace Expr

variable {now now' : Int} {fields fields' : Fields}

mutual

/-- **Evaluation depends on the fields that are read.** -/
theorem eval_agree : ∀ (e : Expr) {names : List Text}, e.fieldsRead? = some names → Agree names fields fields' →
    eval now (.object fields) e = eval now' (.object fields') e
  | .literal v, _, _, _ => by rw [eval, eval]
  | .event, _, h, _ => by cases h
  | .member target key, names, h, hagree => by
    rw [fieldsRead?] at h
    cases hfield : eventField? target key with
    | some name =>
      rw [hfield] at h
      cases h
      obtain ⟨rfl, rfl⟩ := eventField?_eq_some hfield
      have hsame := hagree name (List.mem_singleton_self name)
      simp only [eval, memberOf, keyOf?, bind, Except.bind, hsame]
    | none =>
      rw [hfield] at h
      obtain ⟨m, n, hm, hn, rfl⟩ := readBoth_eq_some h
      obtain ⟨hagree, hagree'⟩ := agree_append.1 hagree
      rw [eval, eval, eval_agree target hm hagree, eval_agree key hn hagree']
  | .call f args, names, h, hagree => by
    rw [fieldsRead?] at h
    split_ifs at h with hf
    rw [eval, eval, evalAll_agree args h hagree]
    simp only [applyBuiltin_clock hf now now']
  | .unary op operand, names, h, hagree => by
    rw [fieldsRead?] at h
    rw [eval, eval, eval_agree operand h hagree]
  | .binary op left right, names, h, hagree => by
    rw [fieldsRead?] at h
    obtain ⟨m, n, hm, hn, rfl⟩ := readBoth_eq_some h
    obtain ⟨hagree, hagree'⟩ := agree_append.1 hagree
    rw [eval, eval, eval_agree left hm hagree, eval_agree right hn hagree']
  | .logical op left right, names, h, hagree => by
    rw [fieldsRead?] at h
    obtain ⟨m, n, hm, hn, rfl⟩ := readBoth_eq_some h
    obtain ⟨hagree, hagree'⟩ := agree_append.1 hagree
    cases op with
    | and => rw [eval, eval, eval_agree left hm hagree, eval_agree right hn hagree']
    | or => rw [eval, eval, eval_agree left hm hagree, eval_agree right hn hagree']
  | .conditional test yes no, names, h, hagree => by
    rw [fieldsRead?] at h
    obtain ⟨m, others, hm, hothers, rfl⟩ := readBoth_eq_some h
    obtain ⟨n, o, hn, ho, rfl⟩ := readBoth_eq_some hothers
    obtain ⟨htest, hbranches⟩ := agree_append.1 hagree
    obtain ⟨hyes, hno⟩ := agree_append.1 hbranches
    rw [eval, eval, eval_agree test hm htest, eval_agree yes hn hyes, eval_agree no ho hno]
  | .array items, names, h, hagree => by
    rw [fieldsRead?] at h
    rw [eval, eval, evalItems_agree items h hagree]
  | .object entries, names, h, hagree => by
    rw [fieldsRead?] at h
    rw [eval, eval, evalEntries_agree [] entries h hagree]

theorem evalAll_agree : ∀ (es : List Expr) {names : List Text}, fieldsReadAll? es = some names →
    Agree names fields fields' → evalAll now (.object fields) es = evalAll now' (.object fields') es
  | [], _, _, _ => by rw [evalAll, evalAll]
  | e :: es, names, h, hagree => by
    rw [fieldsReadAll?] at h
    obtain ⟨m, n, hm, hn, rfl⟩ := readBoth_eq_some h
    obtain ⟨hagree, hagree'⟩ := agree_append.1 hagree
    rw [evalAll, evalAll, eval_agree e hm hagree, evalAll_agree es hn hagree']

theorem evalItems_agree : ∀ (es : List (Bool × Expr)) {names : List Text}, fieldsReadItems? es = some names →
    Agree names fields fields' → evalItems now (.object fields) es = evalItems now' (.object fields') es
  | [], _, _, _ => by rw [evalItems, evalItems]
  | (spread, e) :: es, names, h, hagree => by
    rw [fieldsReadItems?] at h
    obtain ⟨m, n, hm, hn, rfl⟩ := readBoth_eq_some h
    obtain ⟨hagree, hagree'⟩ := agree_append.1 hagree
    rw [evalItems, evalItems, eval_agree e hm hagree, evalItems_agree es hn hagree']

theorem evalEntries_agree (set : Fields) : ∀ (es : List (Option Text × Expr)) {names : List Text},
    fieldsReadEntries? es = some names → Agree names fields fields' →
      evalEntries now (.object fields) set es = evalEntries now' (.object fields') set es
  | [], _, _, _ => by rw [evalEntries, evalEntries]
  | (some key, e) :: es, names, h, hagree => by
    rw [fieldsReadEntries?] at h
    obtain ⟨m, n, hm, hn, rfl⟩ := readBoth_eq_some h
    obtain ⟨hagree, hagree'⟩ := agree_append.1 hagree
    rw [evalEntries, evalEntries, eval_agree e hm hagree]
    exact bind_congr fun v => evalEntries_agree _ es hn hagree'
  | (none, e) :: es, names, h, hagree => by
    rw [fieldsReadEntries?] at h
    obtain ⟨m, n, hm, hn, rfl⟩ := readBoth_eq_some h
    obtain ⟨hagree, hagree'⟩ := agree_append.1 hagree
    rw [evalEntries, evalEntries, eval_agree e hm hagree]
    exact bind_congr fun v => bind_congr fun more => evalEntries_agree _ es hn hagree'

end

end Expr

/-- **An expression sees only the fields that it names.** On two events that agree on these, and at any readings of the
clock, it has the same value or fails in the same way, and so has what it decides. If it names none it has one result
for all events. -/
theorem evaluate_of_agree {e : Expression} {names : List Text} (h : e.tree.fieldsRead? = some names) :
    (∀ (now now' : Int) (fields fields' : Fields), Agree names fields fields' →
      e.evaluate now (.object fields) = e.evaluate now' (.object fields') ∧
        e.holds now (.object fields) = e.holds now' (.object fields')) ∧
      (names = [] → ∃ result, ∀ (now : Int) (fields : Fields), e.evaluate now (.object fields) = result) := by
  have hevaluate : ∀ (now now' : Int) (fields fields' : Fields), Agree names fields fields' →
      e.evaluate now (.object fields) = e.evaluate now' (.object fields') := by
    intro now now' fields fields' hagree
    rw [evaluate, evaluate, Expr.eval_agree e.tree h hagree]
  refine ⟨fun now now' fields fields' hagree => ⟨hevaluate now now' fields fields' hagree, ?_⟩, ?_⟩
  · rw [holds, holds, hevaluate now now' fields fields' hagree]
  · rintro rfl
    exact ⟨e.evaluate 0 (.object []), fun now fields => hevaluate now 0 fields [] nofun⟩

/-- A field that is missing in one event and null in the other, and a field that no one asks for. -/
theorem evaluate_of_agree_missing :
    ∃ e, compile "event['c']&&event.a.b" = .ok e ∧ e.tree.fieldsRead? = some (["c", "a"] : List Text) ∧
      Agree ["c", "a"] [("c", .bool true)] [("x", "y"), ("a", .null), ("c", .bool true)] ∧
      e.evaluate 0 (.object [("c", .bool true)]) =
        e.evaluate 7 (.object [("x", "y"), ("a", .null), ("c", .bool true)]) ∧
      e.evaluate 0 (.object [("c", .bool true)]) =
        .error (.structured .expressionEvaluation "Cannot read property 'b' of null"
          [("expression", "event['c']&&event.a.b")] none none) := by
  have hlex : lex "event['c']&&event.a.b" = .ok [⟨.word "event", 0⟩, ⟨.punct .openBracket, 5⟩, ⟨.string "c", 6⟩,
      ⟨.punct .closeBracket, 9⟩, ⟨.punct .and, 10⟩, ⟨.word "event", 12⟩, ⟨.punct .dot, 17⟩, ⟨.word "a", 18⟩,
      ⟨.punct .dot, 19⟩, ⟨.word "b", 20⟩] := by
    cbv
  have hparse : parse "event['c']&&event.a.b" = .ok (.logical .and (.member .event (.literal (.text "c")))
      (.member (.member .event (.literal (.text "a"))) (.literal (.text "b")))) := by
    rw [parse, hlex]
    rfl
  have hnames : Expr.fieldsRead? (.logical .and (.member .event (.literal (.text "c")))
      (.member (.member .event (.literal (.text "a"))) (.literal (.text "b")))) = some (["c", "a"] : List Text) := rfl
  have hagree : Agree ["c", "a"] [("c", .bool true)] [("x", "y"), ("a", .null), ("c", .bool true)] := by
    unfold Agree
    decide +kernel
  exact ⟨_, compile_eq_ok_iff.2 ⟨_, hparse, rfl⟩, hnames, hagree, ((evaluate_of_agree hnames).1 _ _ _ _ hagree).1,
    by decide +kernel⟩

end Expression

end EventPipeline
