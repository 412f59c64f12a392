import EventPipeline.Expression.Basic
import EventPipeline.Proofs.Expression.Completeness
import EventPipeline.Proofs.Expression.Height

/-!
# Expressions are what the grammar derives

The parser gives a tree for exactly the texts whose tokens the grammar derives as an expression, fifty
nesting levels deep at most, and whose tree is at most two hundred high; the tree is that of the derivation.
As the parser is a function, the grammar is unambiguous (`Derives.unique`), however deep the derivations
nest.
-/

namespace EventPipeline

namespace Expression

/-- What is derived with some nesting levels is derived with more. -/
theorem Derives.mono {n m : Nat} {c : Category} {used : List Lexeme} {x : c.Tree} (h : Derives n c used x)
    (hm : n ≤ m) : Derives m c used x := by
  induction h generalizing m with
  | plain _ ih =>
    obtain ⟨k, rfl⟩ := Nat.exists_eq_add_of_le' hm
    exact .plain (ih (Nat.le_add_left ..))
  | conditional _ _ _ iht ihy ihn =>
    obtain ⟨k, rfl⟩ := Nat.exists_eq_add_of_le' hm
    exact .conditional (iht (Nat.le_add_left ..)) (ihy (Nat.le_add_left ..)) (ihn (Nat.le_add_left ..))
  | single _ ih => exact .single (ih hm)
  | operation hb _ _ ihl ihr => exact .operation hb (ihl hm) (ihr hm)
  | unsigned _ ih => exact .unsigned (ih hm)
  | signed hop _ ih =>
    obtain ⟨k, rfl⟩ := Nat.exists_eq_add_of_le' hm
    exact .signed hop (ih (Nat.le_add_left ..))
  | unaccessed _ ih => exact .unaccessed (ih hm)
  | member _ ih => exact .member (ih hm)
  | index _ _ ih ihk => exact .index (ih hm) (ihk hm)
  | number => exact .number
  | string => exact .string
  | constant h => exact .constant h
  | event => exact .event
  | call _ ha ih => exact .call (ih hm) ha
  | parentheses _ ih => exact .parentheses (ih hm)
  | array _ ih => exact .array (ih hm)
  | object _ ih => exact .object (ih hm)
  | argument _ ih => exact .argument (ih hm)
  | item _ ih => exact .item (ih hm)
  | spreadItem _ ih => exact .spreadItem (ih hm)
  | entry hkey _ ih => exact .entry hkey (ih hm)
  | shorthand => exact .shorthand
  | spreadEntry _ ih => exact .spreadEntry (ih hm)
  | none => exact .none
  | last _ ih => exact .last (ih hm)
  | more _ _ ih iho => exact .more (ih hm) (iho hm)

/-- The parser of expressions takes all of some tokens exactly if they are derived as an expression. -/
theorem nest_expression_iff (n : Nat) (ts : List Token) (e : Expr) :
    (nest n).expression ts = .ok (e, []) ↔ Derives n (.form .expression) (lexemes ts) e := by
  constructor
  · intro h
    obtain ⟨used, rfl, hused⟩ := (nest_sound n).1 h
    rwa [List.append_nil]
  · intro h
    have hread : (nest n).expression (ts ++ []) = .ok (e, []) := h.reads rfl (stops_nil _)
    rwa [List.append_nil] at hread

/-- **The grammar is unambiguous**: lexemes are an expression of one tree at most. -/
theorem Derives.unique {n m : Nat} {used : List Lexeme} {e e' : Expr} (h : Derives n (.form .expression) used e)
    (h' : Derives m (.form .expression) used e') : e = e' := by
  have hlexemes : lexemes (used.map fun l => ⟨l, 0⟩) = used := by
    rw [lexemes, List.map_map]
    exact List.map_id used
  have hread := (nest_expression_iff (max n m) _ e).2 (hlexemes.symm ▸ h.mono (Nat.le_max_left n m))
  have hread' := (nest_expression_iff (max n m) _ e').2 (hlexemes.symm ▸ h'.mono (Nat.le_max_right n m))
  rw [hread] at hread'
  injection hread' with heq
  exact (Prod.mk.inj heq).1

theorem parseTokens_eq_ok_iff (ts : List Token) (e : Expr) :
    parseTokens ts = .ok e ↔ Derives maxNesting (.form .expression) (lexemes ts) e := by
  rw [← nest_expression_iff, parseTokens]
  cases ts with
  | nil =>
    constructor
    · intro h
      cases h
    · intro h
      obtain ⟨first, more, hnil, -⟩ := ((nest_expression_iff maxNesting [] e).1 h).begins
      cases hnil
  | cons t ts =>
    rw [if_neg (by simp)]
    constructor
    · intro h
      obtain ⟨⟨e', rest⟩, he, h₁⟩ := ok_of_bind_ok h
      cases rest with
      | nil =>
        cases h₁
        exact he
      | cons t' rest => cases h₁
    · intro h
      rw [h]
      rfl

/-- **The parser accepts exactly what the grammar derives and gives the tree of the derivation**, as long
as the tree is not too high. -/
theorem parse_eq_ok_iff (t : Text) (e : Expr) :
    parse t = .ok e ↔
      ∃ tokens, lex t = .ok tokens ∧ Derives maxNesting (.form .expression) (lexemes tokens) e ∧
        e.height ≤ maxHeight := by
  unfold parse
  cases hlex : lex t with
  | error err =>
    constructor
    · intro h
      cases h
    · rintro ⟨tokens, htokens, -⟩
      cases htokens
  | ok tokens =>
    dsimp only
    cases hparse : parseTokens tokens with
    | error err =>
      constructor
      · intro h
        cases h
      · rintro ⟨tokens', htokens, hderives, -⟩
        cases htokens
        rw [(parseTokens_eq_ok_iff tokens e).2 hderives] at hparse
        cases hparse
    | ok e' =>
      dsimp only
      rw [Expr.sweptHeight_eq_height]
      constructor
      · intro h
        split_ifs at h with hheight
        cases h
        exact ⟨tokens, rfl, (parseTokens_eq_ok_iff tokens _).1 hparse, Nat.not_lt.1 hheight⟩
      · rintro ⟨tokens', htokens, hderives, hheight⟩
        cases htokens
        rw [(parseTokens_eq_ok_iff tokens e).2 hderives] at hparse
        cases hparse
        exact if_neg (Nat.not_lt.2 hheight)

/-- A sign stands in front of a member access, and the name of a constant can be the name of a member. -/
example : parse "-event.null" = .ok (.unary .neg (.member .event (.literal (.text "null")))) := rfl

/-- An expression is the tree of its text. -/
theorem compile_eq_ok_iff {t : Text} {x : Expression} :
    compile t = .ok x ↔ ∃ e, parse t = .ok e ∧ x = ⟨t.strip, e⟩ := by
  unfold compile
  cases parse t with
  | error err =>
    constructor
    · intro h
      cases h
    · rintro ⟨e, h, -⟩
      cases h
  | ok e =>
    constructor
    · intro h
      cases h
      exact ⟨e, rfl, rfl⟩
    · rintro ⟨e', h, rfl⟩
      cases h
      rfl

end Expression

end EventPipeline
