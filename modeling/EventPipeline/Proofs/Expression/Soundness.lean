import EventPipeline.Proofs.Expression.Grammar
import EventPipeline.Proofs.Fallible
import Mathlib.Tactic.SplitIfs

/-!
# The parser stays within the grammar

What a parser takes from the front of the tokens is derived by the grammar, with the tree that the parser
gives. Each parser is built from others, so each has one lemma that says this of it if it holds of those;
the parsers of a nesting level then follow from those of the next inner one.
-/

namespace EventPipeline

namespace Expression

/-- The lexemes of tokens. -/
def lexemes (ts : List Token) : List Lexeme := ts.map Token.lexeme

@[simp] theorem lexemes_nil : lexemes [] = [] := rfl

@[simp] theorem lexemes_cons (t : Token) (ts : List Token) : lexemes (t :: ts) = t.lexeme :: lexemes ts := rfl

@[simp] theorem lexemes_append (ts ts' : List Token) : lexemes (ts ++ ts') = lexemes ts ++ lexemes ts' :=
  List.map_append

/-- What a parser takes is derived from a category, with the tree it gives. -/
def Sound (n : Nat) (c : Category) (p : Parser c.Tree) : Prop :=
  ∀ ⦃ts x rest⦄, p ts = .ok (x, rest) → ∃ used, ts = used ++ rest ∧ Derives n c (lexemes used) x

variable {n : Nat}

/-- A parser leaves no more tokens than there were. -/
theorem Sound.length_le {c : Category} {p : Parser c.Tree} (hp : Sound n c p) {ts rest : List Token} {x : c.Tree}
    (h : p ts = .ok (x, rest)) : rest.length ≤ ts.length := by
  obtain ⟨used, rfl, -⟩ := hp h
  rw [List.length_append]
  exact Nat.le_add_left ..

/-! ### Single tokens -/

theorem nextPunct?_eq_some {ts : List Token} {p : Punct} (h : nextPunct? ts = some p) :
    ∃ position rest, ts = ⟨.punct p, position⟩ :: rest := by
  unfold nextPunct? at h
  split at h
  · injection h with h
    subst h
    exact ⟨_, _, rfl⟩
  · cases h

theorem expect_ok {p : Punct} {ts rest : List Token} (h : expect p ts = .ok ((), rest)) :
    ∃ position, ts = ⟨.punct p, position⟩ :: rest := by
  unfold expect at h
  split_ifs at h with hp
  · obtain ⟨position, rest', rfl⟩ := nextPunct?_eq_some hp
    cases h
    exact ⟨position, rfl⟩
  · cases h

/-- Tokens between two punctuators are derived as a whole. -/
theorem sound_between {c : Category} {x : c.Tree} {p q : Punct} {used rest : List Token} {position position' : Nat}
    (h : Derives n c (.punct p :: (lexemes used ++ [.punct q])) x) :
    ∃ used', ⟨.punct p, position⟩ :: (used ++ ⟨.punct q, position'⟩ :: rest) = used' ++ rest ∧
      Derives n c (lexemes used') x := by
  refine ⟨⟨.punct p, position⟩ :: (used ++ [⟨.punct q, position'⟩]), by simp, ?_⟩
  rw [lexemes_cons, lexemes_append]
  exact h

theorem sound_complain {c : Category} (complaint : Complaint) : Sound n c (complain complaint) := by
  intro ts x rest h
  cases h

/-! ### Lists -/

theorem sound_elements {k : Element} {close : Punct} {element : Parser k.Tree}
    (he : Sound n (.element k) element) (fuel : Nat) : Sound n (.list k) (elements close element fuel) := by
  induction fuel with
  | zero =>
    intro ts xs rest h
    cases h
    exact ⟨[], rfl, .none⟩
  | succ fuel ih =>
    intro ts xs rest h
    rw [elements] at h
    split_ifs at h with hclose
    · cases h
      exact ⟨[], rfl, .none⟩
    · obtain ⟨⟨x, ts₁⟩, hx, h₁⟩ := ok_of_bind_ok h
      obtain ⟨used, rfl, hused⟩ := he hx
      dsimp only at h₁
      split_ifs at h₁ with hcomma
      · obtain ⟨⟨others, ts₂⟩, hothers, h₂⟩ := ok_of_bind_ok h₁
        cases h₂
        obtain ⟨position, ts₃, rfl⟩ := nextPunct?_eq_some hcomma
        obtain ⟨used', rfl, hused'⟩ := ih hothers
        refine ⟨used ++ ⟨.punct .comma, position⟩ :: used', by simp, ?_⟩
        rw [lexemes_append]
        exact .more hused hused'
      · cases h₁
        exact ⟨used, rfl, .last hused⟩

/-- Elements and the punctuator that closes them. -/
theorem sound_enclosed {k : Element} {close : Punct} {element : Parser k.Tree}
    (he : Sound n (.element k) element) {ts rest : List Token} {xs : List k.Tree}
    (h : enclosed close element ts = .ok (xs, rest)) :
    ∃ used position, ts = used ++ ⟨.punct close, position⟩ :: rest ∧ Derives n (.list k) (lexemes used) xs := by
  obtain ⟨⟨ys, ts₁⟩, hys, h₁⟩ := ok_of_bind_ok h
  obtain ⟨used, rfl, hused⟩ := sound_elements he _ hys
  obtain ⟨⟨⟨⟩, ts₂⟩, hclose, h₂⟩ := ok_of_bind_ok h₁
  cases h₂
  obtain ⟨position, rfl⟩ := expect_ok hclose
  exact ⟨used, position, rfl, hused⟩

/-! ### Elements -/

variable {expression : Parser Expr}

theorem sound_argument (he : Sound n (.form .expression) expression) : Sound n (.element .argument) expression := by
  intro ts e rest h
  obtain ⟨used, rfl, hused⟩ := he h
  exact ⟨used, rfl, .argument hused⟩

theorem sound_item (he : Sound n (.form .expression) expression) : Sound n (.element .item) (item expression) := by
  intro ts x rest h
  unfold item at h
  split_ifs at h with hspread
  · obtain ⟨⟨e, ts₁⟩, he₁, h₁⟩ := ok_of_bind_ok h
    cases h₁
    obtain ⟨position, ts₂, rfl⟩ := nextPunct?_eq_some hspread
    obtain ⟨used, rfl, hused⟩ := he he₁
    exact ⟨⟨.punct .ellipsis, position⟩ :: used, rfl, .spreadItem hused⟩
  · obtain ⟨⟨e, ts₁⟩, he₁, h₁⟩ := ok_of_bind_ok h
    cases h₁
    obtain ⟨used, rfl, hused⟩ := he he₁
    exact ⟨used, rfl, .item hused⟩

theorem sound_entry (he : Sound n (.form .expression) expression) :
    Sound n (.element .entry) (entry expression) := by
  intro ts x rest h
  unfold entry at h
  split_ifs at h with hspread
  · obtain ⟨⟨e, ts₁⟩, he₁, h₁⟩ := ok_of_bind_ok h
    cases h₁
    obtain ⟨position, ts₂, rfl⟩ := nextPunct?_eq_some hspread
    obtain ⟨used, rfl, hused⟩ := he he₁
    exact ⟨⟨.punct .ellipsis, position⟩ :: used, rfl, .spreadEntry hused⟩
  · cases ts with
    | nil => cases h
    | cons token ts =>
      dsimp only at h
      cases hkey : keyText? token.lexeme with
      | none =>
        rw [hkey] at h
        cases h
      | some key =>
        rw [hkey] at h
        dsimp only at h
        split_ifs at h with hcolon hevent
        · obtain ⟨⟨e, ts₁⟩, he₁, h₁⟩ := ok_of_bind_ok h
          cases h₁
          obtain ⟨position, ts₂, rfl⟩ := nextPunct?_eq_some hcolon
          obtain ⟨used, rfl, hused⟩ := he he₁
          exact ⟨token :: ⟨.punct .colon, position⟩ :: used, rfl, .entry hkey hused⟩
        · cases h
          rw [hevent] at hkey
          cases hkey
          refine ⟨[token], rfl, ?_⟩
          rw [lexemes_cons, hevent]
          exact .shorthand
        · cases h

/-! ### Primary expressions and member accesses -/

theorem Builtin.name_of_ofName? {t : Text} {f : Builtin} (h : Builtin.ofName? t = some f) : f.name = t := by
  have hf := List.find?_some h
  rwa [decide_eq_true_eq] at hf

/-- What stands after the name of a function makes it a call. -/
theorem sound_arguments (he : Sound n (.form .expression) expression) {f : Builtin} {position : Nat}
    {ts rest : List Token} {e : Expr} (h : arguments expression f position ts = .ok (e, rest)) :
    ∃ used, ts = used ++ rest ∧ Derives n (.form .primary) (.word f.name :: lexemes used) e := by
  unfold arguments at h
  split_ifs at h with hopen
  · obtain ⟨position', ts, rfl⟩ := nextPunct?_eq_some hopen
    obtain ⟨⟨args, ts₁⟩, hargs, h₁⟩ := ok_of_bind_ok h
    obtain ⟨used, position'', hused, hderives⟩ := sound_enclosed (sound_argument he) hargs
    rw [List.drop_one, List.tail_cons] at hused
    subst hused
    dsimp only at h₁
    split_ifs at h₁ with haccepts
    cases h₁
    refine ⟨⟨.punct .openParen, position'⟩ :: (used ++ [⟨.punct .closeParen, position''⟩]), by simp, ?_⟩
    rw [lexemes_cons, lexemes_append]
    exact .call hderives haccepts
  · cases h

theorem sound_primary (he : Sound n (.form .expression) expression) :
    Sound n (.form .primary) (primary expression) := by
  intro ts x rest h
  unfold primary at h
  split at h
  case h_1 number position ts =>
    cases h
    exact ⟨[⟨.number number, position⟩], rfl, .number⟩
  case h_2 t position ts =>
    cases h
    exact ⟨[⟨.string t, position⟩], rfl, .string⟩
  case h_3 name position ts =>
    cases hconstant : constant? name with
    | some v =>
      rw [hconstant] at h
      cases h
      exact ⟨[⟨.word name, position⟩], rfl, .constant hconstant⟩
    | none =>
      rw [hconstant] at h
      dsimp only at h
      split_ifs at h with hevent
      · cases h
        subst hevent
        exact ⟨[⟨.word eventName, position⟩], rfl, .event⟩
      · cases hname : Builtin.ofName? name with
        | none =>
          rw [hname] at h
          cases h
        | some f =>
          rw [hname] at h
          obtain rfl := Builtin.name_of_ofName? hname
          obtain ⟨used, rfl, hused⟩ := sound_arguments he h
          exact ⟨⟨.word f.name, position⟩ :: used, rfl, hused⟩
  case h_4 position ts =>
    obtain ⟨⟨e, ts₁⟩, he₁, h₁⟩ := ok_of_bind_ok h
    obtain ⟨⟨⟨⟩, ts₂⟩, hclose, h₂⟩ := ok_of_bind_ok h₁
    cases h₂
    obtain ⟨used, rfl, hused⟩ := he he₁
    obtain ⟨position', rfl⟩ := expect_ok hclose
    exact sound_between (.parentheses hused)
  case h_5 position ts =>
    obtain ⟨⟨items, ts₁⟩, hitems, h₁⟩ := ok_of_bind_ok h
    cases h₁
    obtain ⟨used, position', rfl, hused⟩ := sound_enclosed (sound_item he) hitems
    exact sound_between (.array hused)
  case h_6 position ts =>
    obtain ⟨⟨entries, ts₁⟩, hentries, h₁⟩ := ok_of_bind_ok h
    cases h₁
    obtain ⟨used, position', rfl, hused⟩ := sound_enclosed (sound_entry he) hentries
    exact sound_between (.object hused)
  case h_7 => cases h

theorem sound_accesses (he : Sound n (.form .expression) expression) {fuel : Nat} {before ts rest : List Token}
    {target e : Expr} (ht : Derives n (.form .accessed) (lexemes before) target)
    (h : accesses expression fuel target ts = .ok (e, rest)) :
    ∃ used, ts = used ++ rest ∧ Derives n (.form .accessed) (lexemes (before ++ used)) e := by
  induction fuel generalizing before target ts with
  | zero =>
    cases h
    exact ⟨[], rfl, by rwa [List.append_nil]⟩
  | succ fuel ih =>
    unfold accesses at h
    split at h
    case h_1 position name position' ts =>
      have hmember : Derives n (.form .accessed)
          (lexemes (before ++ [⟨.punct .dot, position⟩, ⟨.word name, position'⟩]))
          (.member target (.literal (.text name))) := by
        rw [lexemes_append]
        exact .member ht
      obtain ⟨used, rfl, hused⟩ := ih hmember h
      rw [List.append_assoc] at hused
      exact ⟨⟨.punct .dot, position⟩ :: ⟨.word name, position'⟩ :: used, rfl, hused⟩
    case h_2 => cases h
    case h_3 position ts =>
      obtain ⟨⟨key, ts₁⟩, hkey, h₁⟩ := ok_of_bind_ok h
      obtain ⟨⟨⟨⟩, ts₂⟩, hclose, h₂⟩ := ok_of_bind_ok h₁
      obtain ⟨used, rfl, hused⟩ := he hkey
      obtain ⟨position', rfl⟩ := expect_ok hclose
      have hindex : Derives n (.form .accessed)
          (lexemes (before ++ ⟨.punct .openBracket, position⟩ :: (used ++ [⟨.punct .closeBracket, position'⟩])))
          (.member target key) := by
        rw [lexemes_append, lexemes_cons, lexemes_append]
        exact .index ht hused
      obtain ⟨used', rfl, hused'⟩ := ih hindex h₂
      rw [List.append_assoc] at hused'
      exact ⟨⟨.punct .openBracket, position⟩ :: (used ++ [⟨.punct .closeBracket, position'⟩]) ++ used',
        by simp, hused'⟩
    case h_4 =>
      cases h
      exact ⟨[], rfl, by rwa [List.append_nil]⟩

theorem sound_accessed (he : Sound n (.form .expression) expression) :
    Sound n (.form .accessed) (accessed expression) := by
  intro ts e rest h
  obtain ⟨⟨target, ts₁⟩, htarget, h₁⟩ := ok_of_bind_ok h
  obtain ⟨used, rfl, hused⟩ := sound_primary he htarget
  obtain ⟨used', rfl, hused'⟩ := sound_accesses he (.unaccessed hused) h₁
  exact ⟨used ++ used', (List.append_assoc ..).symm, hused'⟩

/-! ### Operators -/

theorem sound_operations {l : Level} {operand : Parser Expr} (ho : Sound n (.form l.operands) operand)
    {fuel : Nat} {before ts rest : List Token} {left e : Expr}
    (hl : Derives n (.form (.level l)) (lexemes before) left)
    (h : operations l operand fuel left ts = .ok (e, rest)) :
    ∃ used, ts = used ++ rest ∧ Derives n (.form (.level l)) (lexemes (before ++ used)) e := by
  induction fuel generalizing before left ts with
  | zero =>
    cases h
    exact ⟨[], rfl, by rwa [List.append_nil]⟩
  | succ fuel ih =>
    unfold operations at h
    split at h
    case h_1 =>
      cases h
      exact ⟨[], rfl, by rwa [List.append_nil]⟩
    case h_2 build hbuild =>
      obtain ⟨p, hp, hbuild⟩ := Option.bind_eq_some_iff.1 hbuild
      obtain ⟨position, ts, rfl⟩ := nextPunct?_eq_some hp
      obtain ⟨⟨right, ts₁⟩, hright, h₁⟩ := ok_of_bind_ok h
      obtain ⟨used, hts, hused⟩ := ho hright
      rw [List.drop_one, List.tail_cons] at hts
      subst hts
      have hbuilt : Derives n (.form (.level l)) (lexemes (before ++ ⟨.punct p, position⟩ :: used))
          (build left right) := by
        rw [lexemes_append]
        exact .operation hbuild hl hused
      obtain ⟨used', rfl, hused'⟩ := ih hbuilt h₁
      rw [List.append_assoc] at hused'
      exact ⟨⟨.punct p, position⟩ :: used ++ used', by simp, hused'⟩

theorem sound_chain {l : Level} {operand : Parser Expr} (ho : Sound n (.form l.operands) operand) :
    Sound n (.form (.level l)) (chain l operand) := by
  intro ts e rest h
  obtain ⟨⟨first, ts₁⟩, hfirst, h₁⟩ := ok_of_bind_ok h
  obtain ⟨used, rfl, hused⟩ := ho hfirst
  obtain ⟨used', rfl, hused'⟩ := sound_operations ho (.single hused) h₁
  exact ⟨used ++ used', (List.append_assoc ..).symm, hused'⟩

theorem sound_layered {operand : Parser Expr} (ho : Sound n (.form .operand) operand) (l : Level) :
    Sound n (.form (.level l)) (layered operand l.onwards) := by
  have hproduct : Sound n (.form (.level .product)) _ := sound_chain (l := .product) ho
  have hsum : Sound n (.form (.level .sum)) _ := sound_chain (l := .sum) hproduct
  have hcomparison : Sound n (.form (.level .comparison)) _ := sound_chain (l := .comparison) hsum
  have hequality : Sound n (.form (.level .equality)) _ := sound_chain (l := .equality) hcomparison
  have hand : Sound n (.form (.level .and)) _ := sound_chain (l := .and) hequality
  have hor : Sound n (.form (.level .or)) _ := sound_chain (l := .or) hand
  cases l with
  | or => exact hor
  | and => exact hand
  | equality => exact hequality
  | comparison => exact hcomparison
  | sum => exact hsum
  | product => exact hproduct

theorem sound_conditional {branch test : Parser Expr} (hb : Sound n (.form .expression) branch)
    (ht : Sound n (.form (.level .or)) test) : Sound (n + 1) (.form .expression) (conditional branch test) := by
  intro ts e rest h
  obtain ⟨⟨t, ts₁⟩, htest, h₁⟩ := ok_of_bind_ok h
  obtain ⟨used, rfl, hused⟩ := ht htest
  dsimp only at h₁
  split_ifs at h₁ with hquestion
  · obtain ⟨position, ts₂, rfl⟩ := nextPunct?_eq_some hquestion
    obtain ⟨⟨yes, ts₃⟩, hyes, h₂⟩ := ok_of_bind_ok h₁
    obtain ⟨⟨⟨⟩, ts₄⟩, hcolon, h₃⟩ := ok_of_bind_ok h₂
    obtain ⟨⟨no, ts₅⟩, hno, h₄⟩ := ok_of_bind_ok h₃
    cases h₄
    obtain ⟨usedYes, hts, hyes'⟩ := hb hyes
    rw [List.drop_one, List.tail_cons] at hts
    subst hts
    obtain ⟨position', rfl⟩ := expect_ok hcolon
    obtain ⟨usedNo, rfl, hno'⟩ := hb hno
    refine ⟨used ++ ⟨.punct .question, position⟩ :: (usedYes ++ ⟨.punct .colon, position'⟩ :: usedNo),
      by simp, ?_⟩
    rw [lexemes_append, lexemes_cons, lexemes_append]
    exact .conditional hused hyes' hno'
  · cases h₁
    exact ⟨used, rfl, .plain hused⟩

/-! ### Nesting -/

theorem prefixed_unsigned {inner plain : Parser Expr} {ts : List Token}
    (h : (nextPunct? ts).bind UnaryOp.ofPunct? = none) : prefixed inner plain ts = plain ts := by
  rw [prefixed]
  simp only [h]

theorem prefixed_signed {inner plain : Parser Expr} {p : Punct} {op : UnaryOp} (h : UnaryOp.ofPunct? p = some op)
    (position : Nat) (ts : List Token) :
    prefixed inner plain (⟨.punct p, position⟩ :: ts) =
      (do let (e, ts) ← inner ts; return (.unary op e, ts)) := by
  rw [prefixed]
  simp only [nextPunct?, Option.bind_some, h, List.drop_one, List.tail_cons]

/-- An operand is sound if it is sound behind a prefix operator and without one. -/
theorem sound_prefixed {inner plain : Parser Expr}
    (hi : ∀ ts e rest, inner ts = .ok (e, rest) →
      ∃ m used, n = m + 1 ∧ ts = used ++ rest ∧ Derives m (.form .operand) (lexemes used) e)
    (hp : Sound n (.form .accessed) plain) : Sound n (.form .operand) (prefixed inner plain) := by
  intro ts e rest h
  cases hnext : (nextPunct? ts).bind UnaryOp.ofPunct? with
  | none =>
    rw [prefixed_unsigned hnext] at h
    obtain ⟨used, rfl, hused⟩ := hp h
    exact ⟨used, rfl, .unsigned hused⟩
  | some op =>
    obtain ⟨p, hpunct, hop⟩ := Option.bind_eq_some_iff.1 hnext
    obtain ⟨position, ts, rfl⟩ := nextPunct?_eq_some hpunct
    rw [prefixed_signed hop] at h
    obtain ⟨⟨e₁, ts₁⟩, he₁, h₁⟩ := ok_of_bind_ok h
    cases h₁
    obtain ⟨m, used, rfl, rfl, hused⟩ := hi _ _ _ he₁
    exact ⟨⟨.punct p, position⟩ :: used, rfl, .signed hop hused⟩

/-- **What the parsers of a nesting level take is derived with as many nesting levels.** -/
theorem nest_sound (n : Nat) :
    Sound n (.form .expression) (nest n).expression ∧ Sound n (.form .operand) (nest n).operand := by
  induction n with
  | zero =>
    have he : Sound 0 (.form .expression) (nest 0).expression := sound_complain _
    refine ⟨he, sound_prefixed ?_ (sound_accessed he)⟩
    intro ts e rest h
    cases h
  | succ n ih =>
    obtain ⟨hexpression, hoperand⟩ := ih
    have he : Sound (n + 1) (.form .expression) (nest (n + 1)).expression :=
      sound_conditional hexpression (sound_layered hoperand .or)
    refine ⟨he, sound_prefixed ?_ (sound_accessed he)⟩
    intro ts e rest h
    obtain ⟨used, rfl, hused⟩ := hoperand h
    exact ⟨n, used, rfl, rfl, hused⟩

/-- The parser of a form. -/
def Form.parser (n : Nat) : Form → Parser Expr
  | .expression => (nest n).expression
  | .level l => layered (nest n).operand l.onwards
  | .operand => (nest n).operand
  | .accessed => Expression.accessed (nest n).expression
  | .primary => Expression.primary (nest n).expression

theorem Form.parser_sound (n : Nat) (f : Form) : Sound n (.form f) (f.parser n) := by
  obtain ⟨hexpression, hoperand⟩ := nest_sound n
  cases f with
  | expression => exact hexpression
  | level l => exact sound_layered hoperand l
  | operand => exact hoperand
  | accessed => exact sound_accessed hexpression
  | primary => exact sound_primary hexpression

end Expression

end EventPipeline
