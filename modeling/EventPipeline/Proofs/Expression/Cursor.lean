import EventPipeline.Proofs.Expression.Soundness

/-!
# The parser with a cursor

The parser takes tokens from the front of a list, and the nesting levels that are left are its own recursion. Here the
same parser works on one state: the index of the next token, which only goes up, and the number of levels that are open,
which each of them takes back when it is left. Behind the last token there is an entry for the end. Loops run until a
token ends them.

What such a machine could do wrong is said in `Halt`: read where no entry is, get past a complaint, or not come to an
end. Without a limit it would be no definition; so its loops have a number of rounds, and its calls within each other
have a number as well, and to use these up is a fault too. From any place and depth, with enough of both, each form of
an expression makes none of these mistakes and gives what the parser gives on the tokens that are left, further on but
not beyond the end and at the depth where it began (`Form.tracks`).
-/

namespace EventPipeline

namespace Expression

/-! ### The machine -/

/-- How many tokens are taken, and how many levels are open. -/
structure Cursor where
  /-- The index of the next entry. -/
  index : Nat
  /-- The number of open levels. -/
  depth : Nat

/-- What stops the machine. -/
inductive Halt where
  /-- The tokens are no expression. -/
  | raised (e : ParseError)
  /-- There is no entry at the index. -/
  | outOfRange
  /-- What comes after a complaint was reached. -/
  | unreachable
  /-- The rounds of a loop, or the calls, are used up. -/
  | runaway

/-- A step gives a result or halts, and leaves a cursor in both cases. -/
def Step (α : Type) : Type := Cursor → Except Halt α × Cursor

instance : Monad Step where
  pure x := fun c => (.ok x, c)
  bind step next := fun c =>
    match step c with
    | (.ok x, c) => next x c
    | (.error h, c) => (.error h, c)

namespace Step

/-- Halts. -/
def halt {α : Type} (h : Halt) : Step α := fun c => (.error h, c)

/-- Gives what is read off the cursor. -/
def read {α : Type} (f : Cursor → α) : Step α := fun c => (.ok (f c), c)

/-- Changes the cursor. -/
def move (f : Cursor → Cursor) : Step Unit := fun c => (.ok (), f c)

/-- Changes the cursor after a step, also where the step halts. -/
def andFinally {α : Type} (step : Step α) (f : Cursor → Cursor) : Step α := fun c =>
  let (result, c) := step c
  (result, f c)

variable (tokens : List Token)

/-- The token at the index, or nothing at the end. -/
def current : Step (Option Token) := do
  match (tokens.map some ++ [none])[← read (·.index)]? with
  | some entry => return entry
  | none => halt .outOfRange

/-- Takes the token at the index; the end is not taken. -/
def advance : Step (Option Token) := do
  let entry ← current tokens
  if entry.isSome then move fun c => { c with index := c.index + 1 }
  return entry

/-- The punctuator at the index, if one is there. -/
def peek : Step (Option Punct) := do
  return nextPunct? (← current tokens).toList

/-- Complains about the entry at the index. -/
def fail {α : Type} (complaint : Complaint) : Step α := do
  let _ ← current tokens
  halt (.raised (.unexpected complaint (tokens.drop (← read (·.index)))))

/-- Takes a punctuator that has to come next. -/
def expect (p : Punct) : Step Unit := do
  if (← peek tokens) = some p then
    let _ ← advance tokens
  else fail tokens (.expected p)

/-- Opens a level. -/
def descend : Step Unit := do
  move fun c => { c with depth := c.depth + 1 }
  if maxNesting < (← read (·.depth)) then fail tokens .tooDeep

/-- A step in a level of its own, which is closed in the end. -/
def nested {α : Type} (step : Step α) : Step α := do
  descend tokens
  step.andFinally fun c => { c with depth := c.depth - 1 }

/-- Elements between commas, up to a closing punctuator. -/
def elements {α : Type} (close : Punct) (element : Step α) : Nat → Step (List α)
  | 0 => halt .runaway
  | rounds + 1 => do
    if (← peek tokens) = some close then return []
    else
      let x ← element
      if (← peek tokens) = some .comma then
        let _ ← advance tokens
        let xs ← elements close element rounds
        return x :: xs
      else return [x]

variable (rounds : Nat)

/-- Elements up to a closing punctuator, which is taken. -/
def enclosed {α : Type} (close : Punct) (element : Step α) : Step (List α) := do
  let xs ← elements tokens close element rounds
  expect tokens close
  return xs

/-- The arguments of a function whose name stood at a position. -/
def arguments (expression : Step Expr) (f : Builtin) (position : Nat) : Step Expr := do
  if (← peek tokens) = some .openParen then
    let _ ← advance tokens
    let args ← enclosed tokens rounds .closeParen expression
    if f.accepts args.length then return .call f args
    else halt (.raised (.arity f args.length position))
  else fail tokens (.notCalled f)

/-- An item of an array. -/
def item (expression : Step Expr) : Step (Bool × Expr) := do
  if (← peek tokens) = some .ellipsis then
    let _ ← advance tokens
    let e ← expression
    return (true, e)
  else
    let e ← expression
    return (false, e)

/-- An entry of an object. -/
def entry (expression : Step Expr) : Step (Option Text × Expr) := do
  if (← peek tokens) = some .ellipsis then
    let _ ← advance tokens
    let e ← expression
    return (none, e)
  else
    match ← current tokens with
    | none => fail tokens .propertyKey
    | some token =>
      match keyText? token.lexeme with
      | none => fail tokens .propertyKey
      | some key =>
        let _ ← advance tokens
        if (← peek tokens) = some .colon then
          let _ ← advance tokens
          let e ← expression
          return (some key, e)
        else if token.lexeme = .word eventName then return (some key, .event)
        else fail tokens (.missingColon key)

/-- An expression in parentheses, an array or an object. -/
def delimited (expression : Step Expr) : Step Expr := do
  if (← peek tokens) = some .openParen then
    let _ ← advance tokens
    let e ← expression
    expect tokens .closeParen
    return e
  else if (← peek tokens) = some .openBracket then
    expect tokens .openBracket
    let items ← enclosed tokens rounds .closeBracket (item tokens expression)
    return .array items
  else if (← peek tokens) = some .openBrace then
    expect tokens .openBrace
    let entries ← enclosed tokens rounds .closeBrace (entry tokens expression)
    return .object entries
  else
    let () ← fail tokens .unexpectedToken
    halt .unreachable

/-- A constant, the event, a call, or an expression between delimiters. -/
def primary (expression : Step Expr) : Step Expr := do
  match ← current tokens with
  | some ⟨.number n, _⟩ =>
    let _ ← advance tokens
    return .literal (.number n)
  | some ⟨.string t, _⟩ =>
    let _ ← advance tokens
    return .literal (.text t)
  | some ⟨.word name, position⟩ =>
    match constant? name with
    | some v =>
      let _ ← advance tokens
      return .literal v
    | none =>
      if name = eventName then
        let _ ← advance tokens
        return .event
      else
        match Builtin.ofName? name with
        | some f =>
          let _ ← advance tokens
          arguments tokens rounds expression f position
        | none => fail tokens (.unknownName name)
  | _ => delimited tokens rounds expression

/-- The name that an entry is, if it is one. -/
def wordOf? : Option Token → Option Text
  | some ⟨.word name, _⟩ => some name
  | _ => none

/-- The member accesses that follow a target. -/
def accesses (expression : Step Expr) : Nat → Expr → Step Expr
  | 0, _ => halt .runaway
  | rounds + 1, target => do
    if (← peek tokens) = some .dot then
      let _ ← advance tokens
      match wordOf? (← current tokens) with
      | some name =>
        let _ ← advance tokens
        accesses expression rounds (.member target (.literal (.text name)))
      | none => fail tokens .propertyName
    else if (← peek tokens) = some .openBracket then
      let _ ← advance tokens
      let key ← expression
      expect tokens .closeBracket
      accesses expression rounds (.member target key)
    else return target

/-- A primary expression and the member accesses that follow it. -/
def accessed (expression : Step Expr) : Step Expr := do
  let target ← primary tokens rounds expression
  accesses tokens expression rounds target

/-- The operators of a level and their right operands that follow a left operand. -/
def operations (level : Level) (operand : Step Expr) : Nat → Expr → Step Expr
  | 0, _ => halt .runaway
  | rounds + 1, left => do
    match (← peek tokens).bind level.operator? with
    | none => return left
    | some build =>
      let _ ← advance tokens
      let right ← operand
      operations level operand rounds (build left right)

/-- All levels of operators above an operand. -/
def layered (operand : Step Expr) : List Level → Step Expr
  | [] => operand
  | level :: levels => do
    let first ← layered operand levels
    operations tokens level (layered operand levels) rounds first

/-- A chain of the loosest level, and the branches of a conditional if a question mark follows. -/
def conditional (branch : Step Expr) (test : Step Expr) : Step Expr := do
  let t ← test
  if (← peek tokens) = some .question then
    let _ ← advance tokens
    let yes ← branch
    expect tokens .colon
    let no ← branch
    return .conditional t yes no
  else return t

/-- An operand in front of which prefix operators may stand. -/
def prefixed (inner : Step Expr) (plain : Step Expr) : Step Expr := do
  match (← peek tokens).bind UnaryOp.ofPunct? with
  | some op =>
    let _ ← advance tokens
    let e ← inner
    return .unary op e
  | none => plain

/-- The two steps that call themselves again, with so many calls left. -/
def recursive : Nat → Step Expr × Step Expr
  | 0 => (halt .runaway, halt .runaway)
  | calls + 1 =>
    let (expression, operand) := recursive calls
    (nested tokens (conditional tokens expression (layered tokens rounds operand Level.all)),
      prefixed tokens (nested tokens operand) (accessed tokens rounds expression))

/-- An expression that is all there is. -/
def whole (calls : Nat) : Step Expr := do
  if (← current tokens).isNone then fail tokens .empty
  else
    let e ← (recursive tokens rounds calls).1
    if (← current tokens).isSome then fail tokens .unexpectedToken else return e

end Step

/-! ### Agreement with the parser -/

/-- The error is about what is left of the tokens, or about one of them. -/
def ParseError.LiesIn (tokens : List Token) : ParseError → Prop
  | .unexpected _ left => left <:+ tokens
  | .arity _ _ position => ∃ token ∈ tokens, token.position = position

/-- What a step comes to is what the parser gives: the tokens that are left are those from its index on, which is not
less than `low`, and the depth is as given. -/
inductive Mirrors (tokens : List Token) (low depth : Nat) {α : Type} :
    Except ParseError (α × List Token) → Except Halt α × Cursor → Prop where
  /-- Both have a result. -/
  | ok {x : α} {j : Nat} (hlow : low ≤ j) (hj : j ≤ tokens.length) :
    Mirrors tokens low depth (.ok (x, tokens.drop j)) (.ok x, ⟨j, depth⟩)
  /-- Both complain. -/
  | error {e : ParseError} {c : Cursor} (he : e.LiesIn tokens) :
    Mirrors tokens low depth (.error e) (.error (.raised e), c)

/-- A step that takes a token or more, and does so like a parser. -/
def Tracks (tokens : List Token) (depth : Nat) {α : Type} (p : Parser α) (step : Step α) : Prop :=
  ∀ i, i ≤ tokens.length → Mirrors tokens (i + 1) depth (p (tokens.drop i)) (step ⟨i, depth⟩)

variable {tokens : List Token} {low low' i depth depth' : Nat} {α β : Type}

theorem Mirrors.mono {r : Except ParseError (α × List Token)} {out : Except Halt α × Cursor}
    (h : Mirrors tokens low depth r out) (hle : low' ≤ low) : Mirrors tokens low' depth r out := by
  cases h with
  | ok hlow hj => exact .ok (Nat.le_trans hle hlow) hj
  | error he => exact .error he

theorem Step.bind_apply (step : Step α) (next : α → Step β) (c : Cursor) :
    (step >>= next) c = match step c with
      | (.ok x, c) => next x c
      | (.error h, c) => (.error h, c) := rfl

/-- One after the other. -/
theorem Mirrors.bind {r : Except ParseError (α × List Token)}
    {next : α × List Token → Except ParseError (β × List Token)} {step : Step α} {more : α → Step β} {c : Cursor}
    (h : Mirrors tokens low depth r (step c))
    (hmore : ∀ x j, low ≤ j → j ≤ tokens.length →
      Mirrors tokens low' depth' (next (x, tokens.drop j)) (more x ⟨j, depth⟩)) :
    Mirrors tokens low' depth' (r >>= next) ((step >>= more) c) := by
  rw [Step.bind_apply]
  generalize step c = out at h
  cases h with
  | ok hlow hj => exact hmore _ _ hlow hj
  | error he => exact .error he

/-! ### Single entries -/

theorem lt_of_drop_eq_cons {token : Token} {rest : List Token} (h : tokens.drop i = token :: rest) :
    i < tokens.length ∧ rest = tokens.drop (i + 1) := by
  have hi : i < tokens.length := by
    by_contra hi
    rw [List.drop_eq_nil_of_le (by omega)] at h
    cases h
  rw [List.drop_eq_getElem_cons hi] at h
  exact ⟨hi, (List.cons.inj h).2.symm⟩

theorem lt_of_nextPunct? {p : Punct} (h : nextPunct? (tokens.drop i) = some p) : i < tokens.length := by
  cases hdrop : tokens.drop i with
  | nil =>
    rw [hdrop] at h
    cases h
  | cons token rest => exact (lt_of_drop_eq_cons hdrop).1

theorem nextPunct?_of_eq_cons {ts rest : List Token} {p : Punct} {position : Nat}
    (h : ts = ⟨.punct p, position⟩ :: rest) : nextPunct? ts = some p := by
  rw [h, nextPunct?]

theorem nextPunct?_ne {ts : List Token} {p : Punct} (h : ∀ position rest, ts = ⟨.punct p, position⟩ :: rest → False) :
    nextPunct? ts ≠ some p := by
  intro hnext
  obtain ⟨position, rest, hts⟩ := nextPunct?_eq_some hnext
  exact h position rest hts

/-- No punctuator comes at the end. -/
theorem nextPunct?_drop_of_le (hi : tokens.length ≤ i) : nextPunct? (tokens.drop i) = none := by
  rw [List.drop_eq_nil_of_le hi]
  rfl

/-- The parser's loops have a turn for each token that is left. -/
theorem length_le_add_drop (tokens : List Token) (i : Nat) : tokens.length ≤ i + (tokens.drop i).length := by
  rw [List.length_drop]
  omega

namespace Step

theorem current_bind (hi : i ≤ tokens.length) (next : Option Token → Step α) :
    (current tokens >>= next) ⟨i, depth⟩ = next (tokens.drop i).head? ⟨i, depth⟩ := by
  have hentry : (tokens.map some ++ [none])[i]? = some (tokens.drop i).head? := by
    rw [List.head?_drop]
    rcases Nat.lt_or_eq_of_le hi with hlt | rfl
    · rw [List.getElem?_append_left (by simpa using hlt), List.getElem?_map, List.getElem?_eq_getElem hlt]
      rfl
    · rw [List.getElem?_append_right (by simp), List.getElem?_eq_none (Nat.le_refl _)]
      simp
  have hcurrent : current tokens ⟨i, depth⟩ = (match (tokens.map some ++ [none])[i]? with
      | some entry => (pure entry : Step (Option Token))
      | none => halt .outOfRange) ⟨i, depth⟩ := rfl
  rw [bind_apply, hcurrent, hentry]
  rfl

theorem peek_bind (hi : i ≤ tokens.length) (next : Option Punct → Step α) :
    (peek tokens >>= next) ⟨i, depth⟩ = next (nextPunct? (tokens.drop i)) ⟨i, depth⟩ := by
  have hpunct : nextPunct? (tokens.drop i).head?.toList = nextPunct? (tokens.drop i) := by
    cases tokens.drop i with
    | nil => rfl
    | cons token rest =>
      obtain ⟨_ | _ | _ | p, position⟩ := token <;> rfl
  have hpeek : peek tokens ⟨i, depth⟩ = (.ok (nextPunct? (tokens.drop i)), ⟨i, depth⟩) := by
    unfold peek
    rw [current_bind hi, hpunct]
    rfl
  rw [bind_apply, hpeek]

theorem advance_bind (hi : i < tokens.length) (next : Option Token → Step α) :
    (advance tokens >>= next) ⟨i, depth⟩ = next (tokens.drop i).head? ⟨i + 1, depth⟩ := by
  have hhead : (tokens.drop i).head? = some tokens[i] := by
    rw [List.head?_drop, List.getElem?_eq_getElem hi]
  rw [bind_apply]
  unfold advance
  rw [current_bind (Nat.le_of_lt hi), hhead]
  rfl

end Step

theorem Step.fail_eq (hi : i ≤ tokens.length) (complaint : Complaint) :
    (Step.fail tokens complaint : Step α) ⟨i, depth⟩ =
      (.error (.raised (.unexpected complaint (tokens.drop i))), ⟨i, depth⟩) := by
  unfold Step.fail
  rw [Step.current_bind hi]
  rfl

theorem mirrors_fail (hi : i ≤ tokens.length) (complaint : Complaint) :
    Mirrors tokens low depth (complain complaint (tokens.drop i))
      ((Step.fail tokens complaint : Step α) ⟨i, depth'⟩) := by
  rw [Step.fail_eq hi]
  exact .error (List.drop_suffix i tokens)

theorem mirrors_expect (hi : i ≤ tokens.length) (p : Punct) :
    Mirrors tokens (i + 1) depth (expect p (tokens.drop i)) (Step.expect tokens p ⟨i, depth⟩) := by
  unfold expect Step.expect
  rw [Step.peek_bind hi]
  split_ifs with hp
  · have hlt := lt_of_nextPunct? hp
    rw [Step.advance_bind hlt, List.drop_drop]
    exact .ok (Nat.le_refl _) hlt
  · exact mirrors_fail hi _

/-- A punctuator that is there is taken. -/
theorem Step.expect_bind {p : Punct} (h : nextPunct? (tokens.drop i) = some p) (next : Unit → Step α) :
    (Step.expect tokens p >>= next) ⟨i, depth⟩ = next () ⟨i + 1, depth⟩ := by
  have hlt := lt_of_nextPunct? h
  rw [bind_apply, Step.expect, Step.peek_bind (Nat.le_of_lt hlt), if_pos h, Step.advance_bind hlt]
  rfl

/-! ### Loops -/

theorem Tracks.elements {p : Parser α} {step : Step α} (h : Tracks tokens depth p step) (close : Punct)
    {fuel rounds : Nat} (hi : i ≤ tokens.length) (hfuel : tokens.length < i + fuel)
    (hrounds : tokens.length < i + rounds) :
    Mirrors tokens i depth (elements close p fuel (tokens.drop i))
      (Step.elements tokens close step rounds ⟨i, depth⟩) := by
  induction fuel generalizing i rounds with
  | zero => omega
  | succ fuel ih =>
    cases rounds with
    | zero => omega
    | succ rounds =>
      rw [Expression.elements, Step.elements, Step.peek_bind hi]
      split_ifs
      · exact .ok (Nat.le_refl i) hi
      · refine (h i hi).bind fun x j hij hj => ?_
        dsimp only
        rw [Step.peek_bind hj]
        split_ifs with hcomma
        · have hlt := lt_of_nextPunct? hcomma
          rw [Step.advance_bind hlt, List.drop_drop]
          refine (ih hlt (by omega) (by omega)).bind fun xs k hjk hk => ?_
          exact .ok (by omega) hk
        · exact .ok (by omega) hj

theorem Tracks.enclosed {p : Parser α} {step : Step α} (h : Tracks tokens depth p step) (close : Punct)
    {rounds : Nat} (hrounds : tokens.length < rounds) :
    Tracks tokens depth (enclosed close p) (Step.enclosed tokens rounds close step) := by
  intro i hi
  have hfuel : tokens.length < i + ((tokens.drop i).length + 1) := Nat.lt_succ_of_le (length_le_add_drop tokens i)
  refine (h.elements close hi hfuel (by omega)).bind fun xs j hij hj => ?_
  refine (mirrors_expect hj close).bind fun _ k hjk hk => ?_
  exact .ok (by omega) hk

theorem Tracks.operations {p : Parser Expr} {step : Step Expr} (h : Tracks tokens depth p step) (level : Level)
    {fuel rounds : Nat} (left : Expr) (hi : i ≤ tokens.length) (hfuel : tokens.length ≤ i + fuel)
    (hrounds : tokens.length < i + rounds) :
    Mirrors tokens i depth (operations level p fuel left (tokens.drop i))
      (Step.operations tokens level step rounds left ⟨i, depth⟩) := by
  induction fuel generalizing i rounds left with
  | zero =>
    obtain ⟨rounds, rfl⟩ : ∃ n, rounds = n + 1 := ⟨rounds - 1, by omega⟩
    have hend : nextPunct? (tokens.drop i) = none := nextPunct?_drop_of_le hfuel
    rw [Expression.operations, Step.operations, Step.peek_bind hi, hend]
    exact .ok (Nat.le_refl i) hi
  | succ fuel ih =>
    obtain ⟨rounds, rfl⟩ : ∃ n, rounds = n + 1 := ⟨rounds - 1, by omega⟩
    rw [Expression.operations, Step.operations, Step.peek_bind hi]
    cases hop : (nextPunct? (tokens.drop i)).bind level.operator? with
    | none => exact .ok (Nat.le_refl i) hi
    | some build =>
      obtain ⟨q, hq, -⟩ := Option.bind_eq_some_iff.1 hop
      have hlt := lt_of_nextPunct? hq
      dsimp only
      rw [Step.advance_bind hlt, List.drop_drop]
      refine (h (i + 1) hlt).bind fun right j hij hj => ?_
      exact (ih _ hj (by omega) (by omega)).mono (by omega)

theorem Step.wordOf?_eq_some {entry : Option Token} {name : Text} (h : Step.wordOf? entry = some name) :
    ∃ position, entry = some ⟨.word name, position⟩ := by
  unfold Step.wordOf? at h
  split at h
  · cases h
    exact ⟨_, rfl⟩
  · cases h

theorem Tracks.accesses {p : Parser Expr} {step : Step Expr} (h : Tracks tokens depth p step)
    {fuel rounds : Nat} (target : Expr) (hi : i ≤ tokens.length) (hfuel : tokens.length ≤ i + fuel)
    (hrounds : tokens.length < i + rounds) :
    Mirrors tokens i depth (accesses p fuel target (tokens.drop i))
      (Step.accesses tokens step rounds target ⟨i, depth⟩) := by
  induction fuel generalizing i rounds target with
  | zero =>
    obtain ⟨rounds, rfl⟩ : ∃ n, rounds = n + 1 := ⟨rounds - 1, by omega⟩
    have hend : nextPunct? (tokens.drop i) = none := nextPunct?_drop_of_le hfuel
    rw [Expression.accesses, Step.accesses, Step.peek_bind hi, hend, if_neg (by decide), Step.peek_bind hi, hend,
      if_neg (by decide)]
    exact .ok (Nat.le_refl i) hi
  | succ fuel ih =>
    obtain ⟨rounds, rfl⟩ : ∃ n, rounds = n + 1 := ⟨rounds - 1, by omega⟩
    rw [Step.accesses, Step.peek_bind hi]
    unfold Expression.accesses
    split
    case h_1 position name position' rest hdrop =>
      obtain ⟨hdot, hname⟩ := lt_of_drop_eq_cons hdrop
      obtain ⟨hword, rfl⟩ := lt_of_drop_eq_cons hname.symm
      rw [if_pos (by rw [hdrop]; rfl), Step.advance_bind hdot, Step.current_bind hdot, ← hname]
      dsimp only [List.head?_cons, Step.wordOf?]
      rw [Step.advance_bind hword]
      exact (ih _ hword (by omega) (by omega)).mono (by omega)
    case h_2 position rest hname hdrop =>
      obtain ⟨hdot, rfl⟩ := lt_of_drop_eq_cons hdrop
      rw [if_pos (by rw [hdrop]; rfl), Step.advance_bind hdot, Step.current_bind hdot]
      have hnone : Step.wordOf? (tokens.drop (i + 1)).head? = none := by
        rw [Option.eq_none_iff_forall_not_mem]
        intro name hword
        obtain ⟨position', hhead⟩ := Step.wordOf?_eq_some hword
        obtain ⟨rest, hrest⟩ := List.head?_eq_some_iff.1 hhead
        exact hname _ _ _ hrest
      rw [hnone]
      exact mirrors_fail hdot _
    case h_3 position rest hdrop =>
      obtain ⟨hbracket, rfl⟩ := lt_of_drop_eq_cons hdrop
      have hnext : nextPunct? (tokens.drop i) = some .openBracket := nextPunct?_of_eq_cons hdrop
      rw [hnext, if_neg (by decide), Step.peek_bind hi, hnext, if_pos rfl, Step.advance_bind hbracket]
      refine (h (i + 1) hbracket).bind fun key j hij hj => ?_
      refine (mirrors_expect hj .closeBracket).bind fun _ k hjk hk => ?_
      exact (ih _ hk (by omega) (by omega)).mono (by omega)
    case h_4 _ hdot hbracket =>
      rw [if_neg (nextPunct?_ne hdot), Step.peek_bind hi, if_neg (nextPunct?_ne hbracket)]
      exact .ok (Nat.le_refl i) hi

/-! ### Primary expressions -/

theorem Tracks.arguments {p : Parser Expr} {step : Step Expr} (h : Tracks tokens depth p step) {rounds : Nat}
    (hrounds : tokens.length < rounds) (f : Builtin) {position : Nat}
    (hposition : ∃ token ∈ tokens, token.position = position) :
    Tracks tokens depth (arguments p f position) (Step.arguments tokens rounds step f position) := by
  intro i hi
  rw [Expression.arguments, Step.arguments, Step.peek_bind hi]
  split_ifs with hopen
  · have hlt := lt_of_nextPunct? hopen
    rw [Step.advance_bind hlt, List.drop_drop]
    refine (h.enclosed .closeParen hrounds (i + 1) hlt).bind fun args j hij hj => ?_
    dsimp only
    split_ifs with haccepts
    · exact .ok (by omega) hj
    · exact .error hposition
  · exact mirrors_fail hi _

theorem Tracks.item {p : Parser Expr} {step : Step Expr} (h : Tracks tokens depth p step) :
    Tracks tokens depth (item p) (Step.item tokens step) := by
  intro i hi
  rw [Expression.item, Step.item, Step.peek_bind hi]
  split_ifs with hspread
  · have hlt := lt_of_nextPunct? hspread
    rw [Step.advance_bind hlt, List.drop_drop]
    refine (h (i + 1) hlt).bind fun e j hij hj => ?_
    exact .ok (by omega) hj
  · exact (h i hi).bind fun e j hij hj => .ok hij hj

theorem Tracks.entry {p : Parser Expr} {step : Step Expr} (h : Tracks tokens depth p step) :
    Tracks tokens depth (entry p) (Step.entry tokens step) := by
  intro i hi
  unfold Expression.entry
  rw [Step.entry, Step.peek_bind hi]
  split_ifs with hspread
  · have hlt := lt_of_nextPunct? hspread
    rw [Step.advance_bind hlt, List.drop_drop]
    refine (h (i + 1) hlt).bind fun e j hij hj => ?_
    exact .ok (by omega) hj
  · rw [Step.current_bind hi]
    cases hdrop : tokens.drop i with
    | nil =>
      dsimp only [List.head?_nil]
      rw [← hdrop]
      exact mirrors_fail hi _
    | cons token rest =>
      obtain ⟨hlt, rfl⟩ := lt_of_drop_eq_cons hdrop
      dsimp only [List.head?_cons]
      cases hkey : keyText? token.lexeme with
      | none =>
        rw [← hdrop]
        exact mirrors_fail hi _
      | some key =>
        dsimp only
        rw [Step.advance_bind hlt, Step.peek_bind hlt]
        split_ifs with hcolon hevent
        · have hlt' := lt_of_nextPunct? hcolon
          rw [Step.advance_bind hlt', List.drop_drop]
          refine (h (i + 1 + 1) hlt').bind fun e j hij hj => ?_
          exact .ok (by omega) hj
        · exact .ok (Nat.le_refl _) hlt
        · exact mirrors_fail hlt _

/-- Where nothing is opened, the machine complains and does not get past it. -/
theorem mirrors_undelimited {step : Step Expr} {rounds : Nat} (hi : i ≤ tokens.length)
    (hparen : nextPunct? (tokens.drop i) ≠ some .openParen) (hbracket : nextPunct? (tokens.drop i) ≠ some .openBracket)
    (hbrace : nextPunct? (tokens.drop i) ≠ some .openBrace) :
    Mirrors tokens low depth (complain .unexpectedToken (tokens.drop i))
      (Step.delimited tokens rounds step ⟨i, depth⟩) := by
  rw [Step.delimited, Step.peek_bind hi, if_neg hparen, Step.peek_bind hi, if_neg hbracket, Step.peek_bind hi,
    if_neg hbrace, Step.bind_apply, Step.fail_eq hi]
  exact .error (List.drop_suffix i tokens)

/-- Where neither a constant nor a name is, something is opened, or nothing can be taken. -/
theorem Tracks.delimited {p : Parser Expr} {step : Step Expr} (h : Tracks tokens depth p step) {rounds : Nat}
    (hrounds : tokens.length < rounds) (hi : i ≤ tokens.length)
    (hpunct : ∀ token rest, tokens.drop i = token :: rest → ∃ q, token.lexeme = .punct q) :
    Mirrors tokens (i + 1) depth (primary p (tokens.drop i)) (Step.delimited tokens rounds step ⟨i, depth⟩) := by
  unfold Expression.primary
  split
  case h_1 hdrop =>
    obtain ⟨q, hq⟩ := hpunct _ _ hdrop
    cases hq
  case h_2 hdrop =>
    obtain ⟨q, hq⟩ := hpunct _ _ hdrop
    cases hq
  case h_3 hdrop =>
    obtain ⟨q, hq⟩ := hpunct _ _ hdrop
    cases hq
  case h_4 position rest hdrop =>
    obtain ⟨hlt, rfl⟩ := lt_of_drop_eq_cons hdrop
    have hnext : nextPunct? (tokens.drop i) = some .openParen := nextPunct?_of_eq_cons hdrop
    rw [Step.delimited, Step.peek_bind hi, hnext, if_pos rfl, Step.advance_bind hlt]
    refine (h (i + 1) hlt).bind fun e j hij hj => ?_
    refine (mirrors_expect hj .closeParen).bind fun _ k hjk hk => ?_
    exact .ok (by omega) hk
  case h_5 position rest hdrop =>
    obtain ⟨hlt, rfl⟩ := lt_of_drop_eq_cons hdrop
    have hnext : nextPunct? (tokens.drop i) = some .openBracket := nextPunct?_of_eq_cons hdrop
    rw [Step.delimited, Step.peek_bind hi, hnext, if_neg (by decide), Step.peek_bind hi, hnext, if_pos rfl,
      Step.expect_bind hnext]
    refine (h.item.enclosed .closeBracket hrounds (i + 1) hlt).bind fun items j hij hj => ?_
    exact .ok (by omega) hj
  case h_6 position rest hdrop =>
    obtain ⟨hlt, rfl⟩ := lt_of_drop_eq_cons hdrop
    have hnext : nextPunct? (tokens.drop i) = some .openBrace := nextPunct?_of_eq_cons hdrop
    rw [Step.delimited, Step.peek_bind hi, hnext, if_neg (by decide), Step.peek_bind hi, hnext, if_neg (by decide),
      Step.peek_bind hi, hnext, if_pos rfl, Step.expect_bind hnext]
    refine (h.entry.enclosed .closeBrace hrounds (i + 1) hlt).bind fun entries j hij hj => ?_
    exact .ok (by omega) hj
  case h_7 hparen hbracket hbrace =>
    exact mirrors_undelimited hi (nextPunct?_ne hparen) (nextPunct?_ne hbracket) (nextPunct?_ne hbrace)

/-- A constant, the event or a call. -/
theorem Tracks.word {p : Parser Expr} {step : Step Expr} (h : Tracks tokens depth p step) {rounds : Nat}
    (hrounds : tokens.length < rounds) {name : Text} {position : Nat}
    (hdrop : tokens.drop i = ⟨.word name, position⟩ :: tokens.drop (i + 1)) (hlt : i < tokens.length) :
    Mirrors tokens (i + 1) depth (primary p (tokens.drop i)) (Step.primary tokens rounds step ⟨i, depth⟩) := by
  have hmem : ∃ token ∈ tokens, token.position = position :=
    ⟨⟨.word name, position⟩, List.mem_of_mem_drop (hdrop ▸ List.mem_cons_self), rfl⟩
  rw [Step.primary, Step.current_bind (Nat.le_of_lt hlt), hdrop]
  unfold Expression.primary
  dsimp only [List.head?_cons]
  cases constant? name with
  | some v =>
    dsimp only
    rw [Step.advance_bind hlt]
    exact .ok (Nat.le_refl _) hlt
  | none =>
    dsimp only
    split_ifs with hevent
    · rw [Step.advance_bind hlt]
      exact .ok (Nat.le_refl _) hlt
    · cases Builtin.ofName? name with
      | some f =>
        dsimp only
        rw [Step.advance_bind hlt]
        exact (h.arguments hrounds f hmem (i + 1) hlt).mono (by omega)
      | none =>
        rw [← hdrop]
        exact mirrors_fail (Nat.le_of_lt hlt) _

theorem Tracks.primary {p : Parser Expr} {step : Step Expr} (h : Tracks tokens depth p step) {rounds : Nat}
    (hrounds : tokens.length < rounds) : Tracks tokens depth (primary p) (Step.primary tokens rounds step) := by
  intro i hi
  cases hdrop : tokens.drop i with
  | nil =>
    have hdelimited := h.delimited hrounds hi (by simp [hdrop])
    rw [hdrop] at hdelimited
    rw [Step.primary, Step.current_bind hi, hdrop]
    exact hdelimited
  | cons token rest =>
    obtain ⟨hlt, rfl⟩ := lt_of_drop_eq_cons hdrop
    obtain ⟨lexeme, position⟩ := token
    cases lexeme with
    | number n =>
      rw [Step.primary, Step.current_bind hi, hdrop]
      dsimp only [List.head?_cons]
      rw [Step.advance_bind hlt]
      exact .ok (Nat.le_refl _) hlt
    | string t =>
      rw [Step.primary, Step.current_bind hi, hdrop]
      dsimp only [List.head?_cons]
      rw [Step.advance_bind hlt]
      exact .ok (Nat.le_refl _) hlt
    | word name =>
      rw [← hdrop]
      exact h.word hrounds hdrop hlt
    | punct q =>
      have hpunct : ∀ token rest, tokens.drop i = token :: rest → ∃ q, token.lexeme = .punct q := by
        intro token rest htoken
        rw [hdrop] at htoken
        cases htoken
        exact ⟨q, rfl⟩
      have hdelimited := h.delimited hrounds hi hpunct
      rw [hdrop] at hdelimited
      rw [Step.primary, Step.current_bind hi, hdrop]
      exact hdelimited

/-! ### Forms of expressions -/

theorem Tracks.accessed {p : Parser Expr} {step : Step Expr} (h : Tracks tokens depth p step) {rounds : Nat}
    (hrounds : tokens.length < rounds) : Tracks tokens depth (accessed p) (Step.accessed tokens rounds step) := by
  intro i hi
  refine (h.primary hrounds i hi).bind fun target j hij hj => ?_
  exact (h.accesses target hj (length_le_add_drop tokens j) (by omega)).mono hij

theorem Tracks.layered {p : Parser Expr} {step : Step Expr} (h : Tracks tokens depth p step) {rounds : Nat}
    (hrounds : tokens.length < rounds) (levels : List Level) :
    Tracks tokens depth (layered p levels) (Step.layered tokens rounds step levels) := by
  induction levels with
  | nil => exact h
  | cons level levels ih =>
    intro i hi
    refine (ih i hi).bind fun first j hij hj => ?_
    exact (ih.operations level first hj (length_le_add_drop tokens j) (by omega)).mono hij

theorem Tracks.conditional {branch test : Parser Expr} {branchStep testStep : Step Expr}
    (hbranch : Tracks tokens depth branch branchStep) (htest : Tracks tokens depth test testStep) :
    Tracks tokens depth (conditional branch test) (Step.conditional tokens branchStep testStep) := by
  intro i hi
  refine (htest i hi).bind fun t j hij hj => ?_
  dsimp only
  rw [Step.peek_bind hj]
  split_ifs with hquestion
  · have hlt := lt_of_nextPunct? hquestion
    rw [Step.advance_bind hlt, List.drop_drop]
    refine (hbranch (j + 1) hlt).bind fun yes k hjk hk => ?_
    refine (mirrors_expect hk .colon).bind fun _ l hkl hl => ?_
    refine (hbranch l hl).bind fun no m hlm hm => ?_
    exact .ok (by omega) hm
  · exact .ok hij hj

theorem Tracks.prefixed {inner plain : Parser Expr} {innerStep plainStep : Step Expr}
    (hinner : Tracks tokens depth inner innerStep) (hplain : Tracks tokens depth plain plainStep) :
    Tracks tokens depth (prefixed inner plain) (Step.prefixed tokens innerStep plainStep) := by
  intro i hi
  unfold Expression.prefixed
  rw [Step.prefixed, Step.peek_bind hi]
  cases hop : (nextPunct? (tokens.drop i)).bind UnaryOp.ofPunct? with
  | none => exact hplain i hi
  | some op =>
    obtain ⟨q, hq, -⟩ := Option.bind_eq_some_iff.1 hop
    have hlt := lt_of_nextPunct? hq
    dsimp only
    rw [Step.advance_bind hlt, List.drop_drop]
    refine (hinner (i + 1) hlt).bind fun e j hij hj => ?_
    exact .ok (by omega) hj

/-! ### Nesting -/

theorem Step.descend_eq (i depth : Nat) : Step.descend tokens ⟨i, depth⟩ =
    (if maxNesting < depth + 1 then Step.fail tokens .tooDeep else pure () : Step Unit) ⟨i, depth + 1⟩ := rfl

/-- No level is opened beyond the limit. -/
theorem tracks_nested_full (hdepth : maxNesting ≤ depth) (step : Step α) :
    Tracks tokens depth (complain .tooDeep) (Step.nested tokens step) := by
  intro i hi
  rw [Step.nested, Step.bind_apply, Step.descend_eq, if_pos (by omega), Step.fail_eq hi]
  exact .error (List.drop_suffix i tokens)

/-- A level is closed at the depth where it was opened. -/
theorem Tracks.nested {p : Parser α} {step : Step α} (hdepth : depth < maxNesting)
    (h : Tracks tokens (depth + 1) p step) : Tracks tokens depth p (Step.nested tokens step) := by
  intro i hi
  have hstep : Step.nested tokens step ⟨i, depth⟩ =
      step.andFinally (fun c => { c with depth := c.depth - 1 }) ⟨i, depth + 1⟩ := by
    rw [Step.nested, Step.bind_apply, Step.descend_eq, if_neg (by omega)]
    rfl
  have hmirrors := h i hi
  rw [hstep, Step.andFinally]
  generalize step ⟨i, depth + 1⟩ = out at hmirrors ⊢
  generalize p (tokens.drop i) = result at hmirrors ⊢
  cases hmirrors with
  | ok hlow hj => exact .ok hlow hj
  | error he => exact .error he

/-- The calls that are needed: two for each level that may be opened, and one or two more. -/
theorem tracks_recursive {rounds : Nat} (hrounds : tokens.length < rounds) {n : Nat} (hn : maxNesting - depth = n) :
    (∀ calls, 2 * n + 1 ≤ calls → Tracks tokens depth (nest n).expression (Step.recursive tokens rounds calls).1) ∧
      ∀ calls, 2 * n + 2 ≤ calls → Tracks tokens depth (nest n).operand (Step.recursive tokens rounds calls).2 := by
  induction n generalizing depth with
  | zero =>
    have hexpression : ∀ calls, 2 * 0 + 1 ≤ calls →
        Tracks tokens depth (nest 0).expression (Step.recursive tokens rounds calls).1 := by
      intro calls hcalls
      obtain ⟨calls, rfl⟩ : ∃ n, calls = n + 1 := ⟨calls - 1, by omega⟩
      exact tracks_nested_full (by omega) _
    refine ⟨hexpression, fun calls hcalls => ?_⟩
    obtain ⟨calls, rfl⟩ : ∃ n, calls = n + 1 := ⟨calls - 1, by omega⟩
    exact .prefixed (tracks_nested_full (by omega) _) (.accessed (hexpression calls (by omega)) hrounds)
  | succ n ih =>
    have hless : maxNesting - (depth + 1) = n := by omega
    obtain ⟨ihexpression, ihoperand⟩ := ih hless
    have hexpression : ∀ calls, 2 * (n + 1) + 1 ≤ calls →
        Tracks tokens depth (nest (n + 1)).expression (Step.recursive tokens rounds calls).1 := by
      intro calls hcalls
      obtain ⟨calls, rfl⟩ : ∃ n, calls = n + 1 := ⟨calls - 1, by omega⟩
      have hlayered := (ihoperand calls (by omega)).layered hrounds Level.all
      exact .nested (by omega) (.conditional (ihexpression calls (by omega)) hlayered)
    refine ⟨hexpression, fun calls hcalls => ?_⟩
    obtain ⟨calls, rfl⟩ : ∃ n, calls = n + 1 := ⟨calls - 1, by omega⟩
    exact .prefixed (.nested (by omega) (ihoperand calls (by omega))) (.accessed (hexpression calls (by omega)) hrounds)

/-- The machine for a form. -/
def Form.step (tokens : List Token) (rounds calls : Nat) : Form → Step Expr
  | .expression => (Step.recursive tokens rounds calls).1
  | .level l => Step.layered tokens rounds (Step.recursive tokens rounds calls).2 l.onwards
  | .operand => (Step.recursive tokens rounds calls).2
  | .accessed => Step.accessed tokens rounds (Step.recursive tokens rounds calls).1
  | .primary => Step.primary tokens rounds (Step.recursive tokens rounds calls).1

/-- The calls that are enough at a depth. -/
def enoughCalls (depth : Nat) : Nat := 2 * (maxNesting - depth) + 2

/-- **From any place and depth a form is taken as its parser takes it.** -/
theorem Form.tracks {rounds calls : Nat} (hrounds : tokens.length < rounds) (hcalls : enoughCalls depth ≤ calls)
    (f : Form) : Tracks tokens depth (f.parser (maxNesting - depth)) (f.step tokens rounds calls) := by
  unfold enoughCalls at hcalls
  obtain ⟨hexpressions, hoperands⟩ := tracks_recursive hrounds (Eq.refl (maxNesting - depth))
  have hexpression := hexpressions calls (by omega)
  have hoperand := hoperands calls hcalls
  cases f with
  | expression => exact hexpression
  | level l => exact hoperand.layered hrounds l.onwards
  | operand => exact hoperand
  | accessed => exact hexpression.accessed hrounds
  | primary => exact hexpression.primary hrounds

/-- **The machine gives the tree of all tokens**, or complains as the parser does. -/
theorem whole_eq {rounds calls : Nat} (hrounds : tokens.length < rounds) (hcalls : enoughCalls 0 ≤ calls) :
    (Step.whole tokens rounds calls ⟨0, 0⟩).1 = (parseTokens tokens).mapError .raised ∧
      ∀ e, parseTokens tokens = .error e → e.LiesIn tokens := by
  have hstart : 0 ≤ tokens.length := Nat.zero_le _
  unfold Step.whole parseTokens
  rw [Step.current_bind hstart, List.drop_zero]
  cases hfirst : tokens.head? with
  | none =>
    obtain rfl := List.head?_eq_none_iff.1 hfirst
    rw [Option.isNone_none, if_pos rfl, Step.fail_eq hstart]
    refine ⟨rfl, ?_⟩
    rintro _ ⟨⟩
    exact List.suffix_rfl
  | some token =>
    obtain ⟨others, rfl⟩ := List.head?_eq_some_iff.1 hfirst
    have hform : Mirrors (token :: others) 1 0 ((nest maxNesting).expression (token :: others))
        ((Step.recursive (token :: others) rounds calls).1 ⟨0, 0⟩) := Form.tracks hrounds hcalls .expression 0 hstart
    rw [Option.isNone_some, if_neg (by decide), Step.bind_apply, List.isEmpty_cons, if_neg (by decide)]
    generalize (Step.recursive (token :: others) rounds calls).1 ⟨0, 0⟩ = out at hform ⊢
    generalize (nest maxNesting).expression (token :: others) = result at hform ⊢
    cases hform with
    | error he =>
      refine ⟨rfl, ?_⟩
      rintro _ ⟨⟩
      exact he
    | @ok e j hlow hj =>
      dsimp only
      rw [Step.current_bind hj]
      cases hleft : (token :: others).drop j with
      | nil => exact ⟨rfl, nofun⟩
      | cons next left =>
        rw [List.head?_cons, Option.isSome_some, if_pos rfl, Step.fail_eq hj, hleft]
        refine ⟨rfl, ?_⟩
        rintro _ ⟨⟩
        exact hleft ▸ List.drop_suffix j _

end Expression

end EventPipeline
