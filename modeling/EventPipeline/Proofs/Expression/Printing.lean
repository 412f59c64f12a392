import EventPipeline.Expression.Basic
import EventPipeline.Proofs.Expression.Recognition
import EventPipeline.Proofs.Expression.Rereading
import Mathlib

/-!
# Printing and reading an expression again

The tree of an expression that was read from a text is printed as a text that is read as the same tree
(`compile_print`). Lexing is undone lexeme by lexeme (`lex_printLexemes`). What remains is that the printed
lexemes are derived by the grammar, and with no more nesting levels than the tree was read with: that is not
a matter of the tree alone, since the limit counts parentheses.

A tree that is derived in some form can be printed in its own form with as many levels, or with one less if
the form makes it an expression, be it by itself or between parentheses (`Printed`). This is kept by every
rule of the grammar (`Derives.printed`): parentheses, quotes around the name of a member, a key for the event
and a comma after the last element may be there when the tree is read, and only cost more.
-/

namespace EventPipeline

namespace Expression

/-! ### Forms -/

theorem Form.rank_injective {f g : Form} (h : f.rank = g.rank) : f = g := by
  rcases f with _ | (_ | _ | _ | _ | _ | _) | _ | _ | _ <;> rcases g with _ | (_ | _ | _ | _ | _ | _) | _ | _ | _
  all_goals first | rfl | cases h

theorem Level.rank_pos (l : Level) : (Form.level l).rank ≠ 0 := by
  cases l <;> decide

theorem Level.rank_operands (l : Level) : l.operands.rank = (Form.level l).rank + 1 := by
  cases l <;> rfl

theorem Form.rank_expression : expression.rank = 0 := rfl

theorem Form.rank_le_primary (f : Form) : f.rank ≤ primary.rank := by
  rcases f with _ | (_ | _ | _ | _ | _ | _) | _ | _ | _ <;> decide

/-- What is derived in a form is derived in any looser one, except as a whole expression. -/
theorem Derives.loosen {n : Nat} {f g : Form} (hf : f.rank ≠ 0) (hfg : f.rank ≤ g.rank) {used : List Lexeme} {e : Expr}
    (h : Derives n (.form g) used e) : Derives n (.form f) used e := by
  obtain ⟨k, hk⟩ := Nat.exists_eq_add_of_le hfg
  induction k generalizing f with
  | zero =>
    rw [← Form.rank_injective hk]
    exact h
  | succ k ih =>
    cases f with
    | expression => exact absurd rfl hf
    | level l =>
      have hrank := l.rank_operands
      exact .single (ih (by omega) (by omega) (by omega))
    | operand =>
      have hrank : Form.accessed.rank = Form.operand.rank + 1 := rfl
      exact .unsigned (ih (by decide) (by omega) (by omega))
    | accessed =>
      have hrank : Form.primary.rank = Form.accessed.rank + 1 := rfl
      exact .unaccessed (ih (by decide) (by omega) (by omega))
    | primary =>
      have hmost := g.rank_le_primary
      omega

/-! ### Operators and constants -/

theorem BinaryOp.operator?_punct (op : BinaryOp) : op.level.operator? op.punct = some (.binary op) := by
  cases op <;> rfl

theorem LogicalOp.operator?_punct (op : LogicalOp) : op.level.operator? op.punct = some (.logical op) := by
  cases op <;> rfl

theorem UnaryOp.ofPunct?_punct (op : UnaryOp) : UnaryOp.ofPunct? op.punct = some op := by
  cases op <;> rfl

/-- The operators of a level. -/
theorem Level.operator?_eq_some {l : Level} {p : Punct} {build : Expr → Expr → Expr} (h : l.operator? p = some build) :
    (∃ op : BinaryOp, op.level = l ∧ build = .binary op) ∨ ∃ op : LogicalOp, op.level = l ∧ build = .logical op := by
  unfold Level.operator? at h
  split at h <;> cases h
  case h_1 => exact .inr ⟨.or, rfl, rfl⟩
  case h_2 => exact .inr ⟨.and, rfl, rfl⟩
  all_goals exact .inl ⟨_, rfl, rfl⟩

/-- A constant is printed as its name. -/
theorem literalLexeme_of_constant? {name : Text} {v : Value} (h : constant? name = some v) :
    ∃ name', literalLexeme v = .word name' ∧ constant? name' = some v ∧ isName name' = true := by
  unfold constant? at h
  split_ifs at h <;> cases h
  · exact ⟨"true", rfl, rfl, rfl⟩
  · exact ⟨"false", rfl, rfl, rfl⟩
  · exact ⟨"null", rfl, rfl, rfl⟩

/-! ### Lists -/

/-- The lexemes of an element. -/
def Element.lexemes : (k : Element) → k.Tree → List Lexeme
  | argument, e => e.phrase
  | item, (spread, e) => itemLexemes spread e.phrase
  | entry, (key, e) => entryLexemes key e e.phrase

theorem phrases_eq (args : List Expr) : Expr.phrases args = args.map Element.argument.lexemes := by
  induction args with
  | nil => rfl
  | cons e args ih => simp [Expr.phrases, Element.lexemes, ih]

theorem itemPhrases_eq (items : List (Bool × Expr)) : Expr.itemPhrases items = items.map Element.item.lexemes := by
  induction items with
  | nil => rfl
  | cons x items ih => simp [Expr.itemPhrases, Element.lexemes, ih]

theorem entryPhrases_eq (entries : List (Option Text × Expr)) :
    Expr.entryPhrases entries = entries.map Element.entry.lexemes := by
  induction entries with
  | nil => rfl
  | cons x entries ih => simp [Expr.entryPhrases, Element.lexemes, ih]

/-! ### Plain lexemes -/

/-- Lexemes are plain around a punctuator if they are on both sides of it. -/
theorem plain_around {left right : List Lexeme} {p : Punct} :
    (∀ l ∈ left ++ .punct p :: right, l.isPlain = true) ↔
      (∀ l ∈ left, l.isPlain = true) ∧ ∀ l ∈ right, l.isPlain = true := by
  rw [List.forall_mem_append, List.forall_mem_cons]
  exact and_congr_right fun _ => and_iff_right rfl

/-- Lexemes are plain with punctuators around them if they are between them. -/
theorem plain_between {used : List Lexeme} {p q : Punct} :
    (∀ l ∈ .punct p :: (used ++ [.punct q]), l.isPlain = true) ↔ ∀ l ∈ used, l.isPlain = true := by
  rw [List.forall_mem_cons, List.forall_mem_append, List.forall_mem_singleton]
  constructor
  · rintro ⟨-, hused, -⟩
    exact hused
  · intro hused
    exact ⟨rfl, hused, rfl⟩

theorem Builtin.isName_name (f : Builtin) : isName f.name = true := by
  cases f <;> rfl

/-! ### Printed trees -/

/-- Lexemes are derived and can be written down. -/
structure Writable (n : Nat) (c : Category) (used : List Lexeme) (x : c.Tree) : Prop where
  /-- They are derived. -/
  derives : Derives n c used x
  /-- They can be written down. -/
  plain : ∀ l ∈ used, l.isPlain = true

theorem Writable.mono {n m : Nat} {c : Category} {used : List Lexeme} {x : c.Tree} (h : Writable n c used x)
    (hm : n ≤ m) : Writable m c used x := ⟨h.derives.mono hm, h.plain⟩

/-- How many levels it takes to make a tree into an expression where a form is asked for. -/
def cost (f : Form) (e : Expr) : Nat :=
  if e.form.rank ≠ 0 ∧ (f.rank = 0 ∨ e.form.rank < f.rank) then 1 else 0

/-- A tree can be printed where a form is asked for, with so many nesting levels. -/
def Printed (n : Nat) (f : Form) (e : Expr) : Prop :=
  ∃ m, m + cost f e ≤ n ∧ Writable m (.form e.form) e.phrase e

namespace Printed

variable {n : Nat} {f g : Form} {e : Expr}

/-- A tree in its own form. -/
theorem own (hf : f = e.form) (h : Writable n (.form f) e.phrase e) : Printed n f e := by
  subst hf
  refine ⟨n, ?_, h⟩
  rw [cost, if_neg (by omega)]
  omega

/-- A tree can be printed in another place, with as many levels more as it costs more there. -/
theorem of_cost {m : Nat} (h : Printed n f e) (hcost : n + cost g e ≤ m + cost f e) : Printed m g e := by
  obtain ⟨k, hk, hown⟩ := h
  exact ⟨k, by omega, hown⟩

/-- Where a form is asked for, a looser one may be. -/
theorem loosen (hf : f.rank ≠ 0) (hfg : f.rank ≤ g.rank) (h : Printed n g e) : Printed n f e := by
  apply h.of_cost
  unfold cost
  split_ifs <;> omega

/-- An expression without branches has one level more than what it is made of. -/
theorem toExpression (h : Printed n (.level .or) e) : Printed (n + 1) .expression e := by
  apply h.of_cost
  unfold cost
  split_ifs <;> omega

/-- Parentheses cost no level of their own: the one that makes a tree an expression is there already. -/
theorem ofExpression (h : Printed n .expression e) : Printed n .primary e := by
  apply h.of_cost
  have hmost := e.form.rank_le_primary
  rw [cost, cost, Form.rank_expression]
  split_ifs <;> omega

/-- A tree that can be printed as an expression is one by its own lexemes. -/
theorem expression (h : Printed n .expression e) : Writable n (.form .expression) e.phrase e := by
  obtain ⟨m, hm, hown⟩ := h
  refine ⟨?_, hown.plain⟩
  by_cases h0 : e.form.rank = 0
  · have hform : e.form = .expression := Form.rank_injective h0
    rw [← hform]
    exact hown.derives.mono (Nat.le_of_add_right_le hm)
  · have hfits : (Form.level .or).rank ≤ e.form.rank := Nat.one_le_iff_ne_zero.2 h0
    have hor : Derives m (.form (.level .or)) e.phrase e := hown.derives.loosen (by decide) hfits
    rw [cost, if_pos ⟨h0, .inl rfl⟩] at hm
    exact (Derives.plain hor).mono hm

/-- **A tree that can be printed where a form is asked for is of that form by the lexemes it has there.** -/
theorem standing (h : Printed n f e) : Writable n (.form f) (standing f e e.phrase) e := by
  unfold Expression.standing
  split_ifs with hfits
  · by_cases h0 : f.rank = 0
    · obtain rfl : f = .expression := Form.rank_injective h0
      exact h.expression
    · obtain ⟨m, hm, hown⟩ := h
      exact ⟨(hown.derives.loosen h0 hfits).mono (Nat.le_of_add_right_le hm), hown.plain⟩
  · have hexpression : Printed n .expression e := by
      apply h.of_cost
      unfold cost
      split_ifs <;> omega
    obtain ⟨hderives, hplain⟩ := hexpression.expression
    constructor
    · exact (Derives.parentheses hderives).loosen (by omega) f.rank_le_primary
    · exact plain_between.2 hplain

end Printed

/-! ### The rules of the grammar -/

section Rules

variable {n : Nat}

theorem printed_conditional {t a b : Expr} (ht : Printed n (.level .or) t) (ha : Printed n .expression a)
    (hb : Printed n .expression b) : Printed (n + 1) .expression (.conditional t a b) := by
  apply Printed.own rfl
  rw [Expr.phrase]
  constructor
  · exact .conditional ht.standing.derives ha.expression.derives hb.expression.derives
  · exact plain_around.2 ⟨ht.standing.plain, plain_around.2 ⟨ha.expression.plain, hb.expression.plain⟩⟩

theorem printed_operation {l : Level} {p : Punct} {build : Expr → Expr → Expr} {a b : Expr}
    (hbuild : l.operator? p = some build) (ha : Printed n (.level l) a) (hb : Printed n l.operands b) :
    Printed n (.level l) (build a b) := by
  rcases Level.operator?_eq_some hbuild with ⟨op, rfl, rfl⟩ | ⟨op, rfl, rfl⟩
  all_goals
    apply Printed.own rfl
    rw [Expr.phrase]
    constructor
    · exact .operation op.operator?_punct ha.standing.derives hb.standing.derives
    · exact plain_around.2 ⟨ha.standing.plain, hb.standing.plain⟩

theorem printed_signed {op : UnaryOp} {e : Expr} (he : Printed n .operand e) :
    Printed (n + 1) .operand (.unary op e) := by
  apply Printed.own rfl
  rw [Expr.phrase]
  constructor
  · exact .signed op.ofPunct?_punct he.standing.derives
  · exact List.forall_mem_cons.2 ⟨rfl, he.standing.plain⟩

theorem printed_member {e : Expr} {name : Text} (hname : isName name = true) (he : Printed n .accessed e) :
    Printed n .accessed (.member e (.literal (.text name))) := by
  apply Printed.own rfl
  rw [Expr.phrase, access, if_pos hname]
  constructor
  · exact .member he.standing.derives
  · refine plain_around.2 ⟨he.standing.plain, ?_⟩
    rw [List.forall_mem_singleton]
    exact hname

/-- A key that is no name stands in brackets. -/
theorem access_eq_between {key : Expr} (hkey : ∀ name, key = .literal (.text name) → isName name = false)
    (phrase : List Lexeme) : access key phrase = .punct .openBracket :: (phrase ++ [.punct .closeBracket]) := by
  unfold access
  split
  · rw [hkey _ rfl]
    rfl
  · rfl

theorem printed_index {e k : Expr} (he : Printed n .accessed e) (hk : Printed n .expression k) :
    Printed n .accessed (.member e k) := by
  by_cases hkey : ∃ name, k = .literal (.text name) ∧ isName name = true
  · obtain ⟨name, rfl, hname⟩ := hkey
    exact printed_member hname he
  · have hbracket : ∀ name, k = .literal (.text name) → isName name = false := by
      intro name hname
      exact Bool.eq_false_iff.2 fun h => hkey ⟨name, hname, h⟩
    apply Printed.own rfl
    rw [Expr.phrase, access_eq_between hbracket]
    constructor
    · exact .index he.standing.derives hk.expression.derives
    · exact List.forall_mem_append.2 ⟨he.standing.plain, plain_between.2 hk.expression.plain⟩

theorem printed_constant {name : Text} {v : Value} (hv : constant? name = some v) :
    Printed n .primary (.literal v) := by
  obtain ⟨name', hlexeme, hname', hplain⟩ := literalLexeme_of_constant? hv
  apply Printed.own rfl
  rw [Expr.phrase, hlexeme]
  constructor
  · exact .constant hname'
  · exact List.forall_mem_singleton.2 hplain

theorem printed_call {f : Builtin} {args : List Expr}
    (hargs : Writable n (.list .argument) (listed (args.map Element.argument.lexemes)) args)
    (haccepts : f.accepts args.length = true) : Printed n .primary (.call f args) := by
  apply Printed.own rfl
  rw [Expr.phrase, phrases_eq]
  constructor
  · exact .call hargs.derives haccepts
  · exact List.forall_mem_cons.2 ⟨f.isName_name, plain_between.2 hargs.plain⟩

theorem printed_array {items : List (Bool × Expr)}
    (hitems : Writable n (.list .item) (listed (items.map Element.item.lexemes)) items) :
    Printed n .primary (.array items) := by
  apply Printed.own rfl
  rw [Expr.phrase, itemPhrases_eq]
  exact ⟨.array hitems.derives, plain_between.2 hitems.plain⟩

theorem printed_object {entries : List (Option Text × Expr)}
    (hentries : Writable n (.list .entry) (listed (entries.map Element.entry.lexemes)) entries) :
    Printed n .primary (.object entries) := by
  apply Printed.own rfl
  rw [Expr.phrase, entryPhrases_eq]
  exact ⟨.object hentries.derives, plain_between.2 hentries.plain⟩

/-- An entry is printed under its key in quotes, whatever its key was read from. -/
theorem writable_entry {key : Text} {e : Expr} (he : Printed n .expression e) :
    Writable n (.element .entry) (Element.entry.lexemes (some key, e)) (some key, e) := by
  rw [Element.lexemes, entryLexemes]
  split_ifs with hshort
  · unfold isShorthand at hshort
    split at hshort
    · rename_i heq
      cases heq
      obtain rfl := eq_of_beq hshort
      exact ⟨.shorthand, List.forall_mem_singleton.2 rfl⟩
    · cases hshort
  · constructor
    · exact .entry rfl he.expression.derives
    · exact List.forall_mem_cons.2 ⟨rfl, List.forall_mem_cons.2 ⟨rfl, he.expression.plain⟩⟩

/-- One more element in front of a list; no comma follows the last one. -/
theorem writable_more {k : Element} {x : k.Tree} {xs : List k.Tree} (hx : Writable n (.element k) (k.lexemes x) x)
    (hxs : Writable n (.list k) (listed (xs.map k.lexemes)) xs) :
    Writable n (.list k) (listed ((x :: xs).map k.lexemes)) (x :: xs) := by
  cases xs with
  | nil => exact ⟨.last hx.derives, hx.plain⟩
  | cons y xs => exact ⟨.more hx.derives hxs.derives, plain_around.2 ⟨hx.plain, hxs.plain⟩⟩

end Rules

/-- What derived lexemes give for the printer. -/
def Category.Printed (n : Nat) : (c : Category) → c.Tree → Prop
  | form f, e => Expression.Printed n f e
  | element k, x => Writable n (.element k) (k.lexemes x) x
  | list k, xs => Writable n (.list k) (listed (xs.map k.lexemes)) xs

/-- **A tree that is derived can be printed**, with no more levels than its derivation takes. -/
theorem Derives.printed {n : Nat} {c : Category} {used : List Lexeme} {x : c.Tree} (h : Derives n c used x)
    (hplain : ∀ l ∈ used, l.isPlain = true) : c.Printed n x := by
  induction h with
  | plain _ ih => exact (ih hplain).toExpression
  | conditional _ _ _ iht ihy ihn =>
    obtain ⟨ht, hbranches⟩ := plain_around.1 hplain
    obtain ⟨hy, hn⟩ := plain_around.1 hbranches
    exact printed_conditional (iht ht) (ihy hy) (ihn hn)
  | @single _ l _ _ _ ih => exact (ih hplain).loosen l.rank_pos (by rw [l.rank_operands]; omega)
  | operation hbuild _ _ ihl ihr =>
    obtain ⟨hl, hr⟩ := plain_around.1 hplain
    exact printed_operation hbuild (ihl hl) (ihr hr)
  | unsigned _ ih => exact (ih hplain).loosen (by decide) (by decide)
  | signed _ _ ih => exact printed_signed (ih (List.forall_mem_cons.1 hplain).2)
  | unaccessed _ ih => exact (ih hplain).loosen (by decide) (by decide)
  | member _ ih =>
    obtain ⟨he, hname⟩ := plain_around.1 hplain
    exact printed_member (hname _ (List.mem_singleton_self _)) (ih he)
  | index _ _ ih ihk =>
    obtain ⟨he, hk⟩ := List.forall_mem_append.1 hplain
    exact printed_index (ih he) (ihk (plain_between.1 hk))
  | number => exact .own rfl ⟨.number, hplain⟩
  | string => exact .own rfl ⟨.string, hplain⟩
  | constant hv => exact printed_constant hv
  | event => exact .own rfl ⟨.event, hplain⟩
  | call _ haccepts ih =>
    exact printed_call (ih (plain_between.1 (List.forall_mem_cons.1 hplain).2)) haccepts
  -- The parentheses are dropped here; `Printed.standing` puts them back where they are needed.
  | parentheses _ ih => exact (ih (plain_between.1 hplain)).ofExpression
  | array _ ih => exact printed_array (ih (plain_between.1 hplain))
  | object _ ih => exact printed_object (ih (plain_between.1 hplain))
  | argument _ ih =>
    have h := (ih hplain).expression
    exact ⟨.argument h.derives, h.plain⟩
  | item _ ih =>
    have h := (ih hplain).expression
    exact ⟨.item h.derives, h.plain⟩
  | spreadItem _ ih =>
    have h := (ih (List.forall_mem_cons.1 hplain).2).expression
    exact ⟨.spreadItem h.derives, List.forall_mem_cons.2 ⟨rfl, h.plain⟩⟩
  | entry _ _ ih => exact writable_entry (ih (List.forall_mem_cons.1 (List.forall_mem_cons.1 hplain).2).2)
  | shorthand => exact ⟨.shorthand, hplain⟩
  | spreadEntry _ ih =>
    have h := (ih (List.forall_mem_cons.1 hplain).2).expression
    exact ⟨.spreadEntry h.derives, List.forall_mem_cons.2 ⟨rfl, h.plain⟩⟩
  | none => exact ⟨.none, hplain⟩
  | last _ ih =>
    have h := ih hplain
    exact ⟨.last h.derives, h.plain⟩
  | more _ _ ih iho =>
    -- Nothing may follow the comma; then the element is printed as the last one.
    obtain ⟨hx, ho⟩ := plain_around.1 hplain
    exact writable_more (ih hx) (iho ho)

/-! ### Texts -/

/-- What the parser makes of a text, it makes of the text of the tree. -/
theorem parse_print {t : Text} {e : Expr} (h : parse t = .ok e) : parse e.print = .ok e := by
  unfold parse at h
  split at h
  · cases h
  · rename_i tokens hlex
    split at h
    · cases h
    · rename_i e' htokens
      split_ifs at h with hheight
      cases h
      have hderives := (parseTokens_eq_ok_iff tokens e).1 htokens
      have hprinted : Printed maxNesting .expression e := hderives.printed (isPlain_of_lex hlex)
      obtain ⟨hphrase, hplain⟩ := hprinted.expression
      obtain ⟨tokens', hlex', hused⟩ := lex_printLexemes hplain
      have htokens' : parseTokens tokens' = .ok e := by
        rw [parseTokens_eq_ok_iff, hused]
        exact hphrase
      rw [parse, Expr.print, hlex']
      dsimp only
      rw [htokens']
      exact if_neg hheight

/-- **An expression that was read from a text is read again from the text of its tree**, with the same tree. -/
theorem compile_print {t : Text} {x : Expression} (h : compile t = .ok x) :
    compile x.tree.print = .ok ⟨x.tree.print.strip, x.tree⟩ := by
  obtain ⟨e, hparse, rfl⟩ := compile_eq_ok_iff.1 h
  exact compile_eq_ok_iff.2 ⟨e, parse_print hparse, rfl⟩

theorem compile_print_nested :
    ∃ x, compile "(-event['a']['a b']) - (1 - (2e999)) ? [...event,] : \x7b'event': event\x7d" = .ok x ∧
      x.tree.print = "- event . a [ \"a b\" ] - ( 1 - 1e+999 ) ? [ ... event ] : \x7b event \x7d" ∧
      compile x.tree.print = .ok ⟨x.tree.print.strip, x.tree⟩ := by
  have hparse : parse "(-event['a']['a b']) - (1 - (2e999)) ? [...event,] : \x7b'event': event\x7d" =
      .ok (.conditional
        (.binary .sub (.unary .neg (.member (.member .event (.literal (.text "a"))) (.literal (.text "a b"))))
          (.binary .sub (.literal (.int 1)) (.literal (.number (.float (.infinite false))))))
        (.array [(true, .event)]) (.object [(some "event", .event)])) := by
    cbv
  have hcompile := compile_eq_ok_iff.2 ⟨_, hparse, rfl⟩
  exact ⟨_, hcompile, by cbv, compile_print hcompile⟩

end Expression

end EventPipeline
