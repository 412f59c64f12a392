import EventPipeline.Proofs.Document.Editing
import EventPipeline.Proofs.Document.Refusals
import EventPipeline.Proofs.Json.Ascii

/-!
# Connector lines say what they were written to say

A connector is written on a line as the word of its end, its type, and its argument in parentheses: a text between
quotes, or an object as JSON in ASCII. Blanks may stand around the line, between its parts and inside of the parentheses
(`Spacing`). Whatever stands in the argument, the parentheses of the line are the first one and the last one, so what
lies between them is the argument with blanks around it, and the argument itself neither starts nor ends with a blank.
Thus the line is read as what it was written for, and a document that consists of it describes a definition with that
connector and nothing else (`connector_lines_round_trip`).
-/

namespace EventPipeline

/-! ### Blanks and line ends -/

theorem Symbol.isBlank_of_endsLine {s : Symbol} (h : s.endsLine = true) : s.isBlank = true := by
  cases s with
  | surrogate n => cases h
  | char c =>
    simp only [Symbol.endsLine, Bool.or_eq_true, beq_iff_eq] at h
    rcases h with ((((((((rfl | rfl) | rfl) | rfl) | rfl) | rfl) | rfl) | rfl) | rfl) | rfl <;> decide

theorem Symbol.endsLine_of_isPlain {s : Symbol} (h : Json.isPlain s = true) : s.endsLine = false := by
  rw [Json.isPlain, Bool.or_eq_true, beq_iff_eq] at h
  rcases h with rfl | h
  · decide
  · rw [Bool.eq_false_iff]
    intro hend
    have hblank := isBlank_of_endsLine hend
    rw [isBlank_of_isVisible h] at hblank
    cases hblank

theorem Text.strip_between {a t b : Text} (ha : ∀ s ∈ a, s.isBlank = true) (hb : ∀ s ∈ b, s.isBlank = true)
    (hfirst : ∃ s u, t = s :: u ∧ s.isBlank = false) (hlast : ∃ u s, t = u ++ [s] ∧ s.isBlank = false) :
    strip (a ++ (t ++ b)) = t := by
  have hstart : stripStart (a ++ (t ++ b)) = stripStart (t ++ b) := List.dropWhile_append_of_pos ha
  rw [strip, hstart, ← strip]
  exact strip_append hfirst hlast hb

namespace Document

/-- There is nothing but whitespace in the text, and it ends no line. -/
def Within (b : Text) : Prop := ∀ s ∈ b, s.isBlank = true ∧ s.endsLine = false

instance (b : Text) : Decidable (Within b) :=
  inferInstanceAs (Decidable (∀ s ∈ b, s.isBlank = true ∧ s.endsLine = false))

/-- The blanks of a line with a connector: any whitespace around the line, and whitespace that stays on the line between
its parts. There has to be some behind the word of the end. -/
structure Spacing where
  /-- In front of the line. -/
  before : Text
  /-- Between the word of the end and the type. -/
  gap : Text
  /-- Between the type and the opening parenthesis. -/
  front : Text
  /-- Behind the opening parenthesis. -/
  left : Text
  /-- In front of the closing parenthesis. -/
  right : Text
  /-- Behind the line. -/
  after : Text
  blank_before : ∀ s ∈ before, s.isBlank = true
  within_gap : Within gap
  within_front : Within front
  within_left : Within left
  within_right : Within right
  blank_after : ∀ s ∈ after, s.isBlank = true
  /-- The words are apart. -/
  apart : gap ≠ []

namespace Spacing

/-- One blank behind the word of the end, and no others. -/
def tight : Spacing where
  before := []
  gap := " "
  front := []
  left := []
  right := []
  after := []
  blank_before := by decide
  within_gap := by decide
  within_front := by decide
  within_left := by decide
  within_right := by decide
  blank_after := by decide
  apart := by decide

/-- The arguments of a line: a type and what stands in parentheses behind it. -/
def arguments (w : Spacing) (type argument : Text) : Text :=
  type ++ (w.front ++ (.char '(' :: (w.left ++ (argument ++ w.right) ++ [.char ')'])))

/-- A line without the whitespace around it. -/
def line (w : Spacing) (role : Role) (type argument : Text) : Text :=
  role.name ++ (w.gap ++ w.arguments type argument)

/-- A document with one line. -/
def document (w : Spacing) (role : Role) (type argument : Text) : Text :=
  w.before ++ (w.line role type argument ++ w.after)

end Spacing

/-- A text between quotes. -/
def quoted (q : Char) (t : Text) : Text := .char q :: (t ++ [.char q])

/-! ### One line -/

theorem inParentheses?_of_blanks {front : Text} (h : ∀ s ∈ front, s.isBlank = true) (between : Text) :
    inParentheses? (front ++ (.char '(' :: (between ++ [.char ')']))) = some between := by
  have hstart : Text.stripStart (front ++ (.char '(' :: (between ++ [.char ')']))) =
      .char '(' :: (between ++ [.char ')']) := by
    rw [Text.stripStart, List.dropWhile_append_of_pos h]
    rfl
  rw [inParentheses?, hstart]
  simp

theorem splitWord?_append {word rest : Text} (hne : word ≠ []) (hword : ∀ s ∈ word, s.isWord = true)
    (hrest : ∀ s, rest.head? = some s → s.isWord = false) : splitWord? (word ++ rest) = some (word, rest) := by
  obtain ⟨h₁, h₂⟩ := Binary64.takeWhile_run hword hrest
  simp only [splitWord?, h₁, h₂, if_neg hne]

/-- The blanks around an argument are taken off. -/
theorem Spacing.strip_argument (w : Spacing) (argument : Text) (hfirst : ∃ s u, argument = s :: u ∧ s.isBlank = false)
    (hlast : ∃ u s, argument = u ++ [s] ∧ s.isBlank = false) :
    Text.strip (w.left ++ (argument ++ w.right)) = argument :=
  Text.strip_between (fun s hs => (w.within_left s hs).1) (fun s hs => (w.within_right s hs).1) hfirst hlast

section

variable (w : Spacing) (role : Role) {type : Text} (hne : type ≠ []) (hword : ∀ s ∈ type, s.isWord = true)

include hne hword

theorem Spacing.splitWord?_arguments (argument : Text) : splitWord? (w.arguments type argument) =
    some (type, w.front ++ (.char '(' :: (w.left ++ (argument ++ w.right) ++ [.char ')']))) := by
  refine splitWord?_append hne hword fun s hs => ?_
  cases hf : w.front with
  | nil =>
    rw [hf] at hs
    cases hs
    decide
  | cons b front =>
    rw [hf] at hs
    cases hs
    exact Symbol.isWord_of_isBlank (w.within_front _ (hf ▸ List.mem_cons_self)).1

/-- The arguments neither start nor end with a blank. -/
theorem Spacing.arguments_framed (argument : Text) :
    (∃ s u, w.arguments type argument = s :: u ∧ s.isBlank = false) ∧
      ∃ u s, w.arguments type argument = u ++ [s] ∧ s.isBlank = false := by
  obtain ⟨s, rest, rfl⟩ := List.exists_cons_of_ne_nil hne
  refine ⟨⟨s, _, rfl, ?_⟩,
    ⟨s :: rest ++ (w.front ++ (.char '(' :: (w.left ++ (argument ++ w.right)))), .char ')', ?_, by decide⟩⟩
  · rw [Bool.eq_false_iff]
    intro hs
    have hw := hword s List.mem_cons_self
    rw [Symbol.isWord_of_isBlank hs] at hw
    cases hw
  · simp [Spacing.arguments]

theorem Spacing.wordAndArguments?_line (argument : Text) :
    wordAndArguments? (w.line role type argument) = some (role.name, w.arguments type argument) := by
  obtain ⟨hfirst, hlast⟩ := w.arguments_framed hne hword argument
  obtain ⟨b, gap, hgap⟩ := List.exists_cons_of_ne_nil w.apart
  have hb : b.isBlank = true := (w.within_gap b (hgap ▸ List.mem_cons_self)).1
  have hsplit : splitWord? (w.line role type argument) = some (role.name, w.gap ++ w.arguments type argument) := by
    refine splitWord?_append (by cases role <;> decide) (by cases role <;> decide) fun s hs => ?_
    rw [hgap] at hs
    cases hs
    exact Symbol.isWord_of_isBlank hb
  have hstrip : Text.strip (w.gap ++ w.arguments type argument) = w.arguments type argument := by
    have h := Text.strip_between (b := []) (fun s hs => (w.within_gap s hs).1) (fun s hs => by cases hs) hfirst hlast
    rwa [List.append_nil] at h
  have hempty : w.arguments type argument ≠ [] := by
    obtain ⟨s, u, h, -⟩ := hfirst
    rw [h]
    exact List.cons_ne_nil s u
  rw [hgap, List.cons_append] at hsplit hstrip
  simp only [wordAndArguments?, hsplit, Option.bind_eq_bind, Option.bind_some, hstrip, hb, true_and, ne_eq, hempty,
    not_false_eq_true, if_true]

/-- A line with a connector is read as its arguments are. -/
theorem Spacing.readLine_line (argument : Text) : readLine (w.line role type argument) =
    (readConnector role (w.arguments type argument)).map (.connect role) := by
  have hstage : stageBody? (w.line role type argument) = none := by cases role <;> rfl
  rw [readLine, hstage, w.wordAndArguments?_line role hne hword]
  cases role <;> rfl

/-- The text between quotes is the argument, under the key of the type. -/
theorem Spacing.readConnector_quoted {q : Char} (hq : q = '"' ∨ q = '\'') {argument : Text} (harg : argument ≠ [])
    (hno : .char q ∉ argument) : readConnector role (w.arguments type (quoted q argument)) =
      .ok ⟨type, [(.name (if type ∈ addressTypes then "url" else "path"), .text argument)]⟩ := by
  have hblank : (Symbol.char q).isBlank = false := by rcases hq with rfl | rfl <;> decide
  have hstrip := w.strip_argument (quoted q argument) ⟨_, _, rfl, hblank⟩
    ⟨.char q :: argument, _, rfl, hblank⟩
  have hunquote : unquote? (quoted q argument) = some argument := by
    simp [unquote?, quoted, hq, harg, hno]
  have hbrace : ∀ rest, quoted q argument ≠ .char '\x7b' :: rest := by
    intro rest h
    have hchar := Symbol.char.inj (List.cons.inj h).1
    rcases hq with rfl | rfl <;> exact absurd hchar (by decide)
  rw [readConnector, w.splitWord?_arguments hne hword]
  dsimp only
  rw [inParentheses?_of_blanks fun s hs => (w.within_front s hs).1]
  dsimp only
  rw [hstrip]
  split
  · rename_i rest heq
    exact absurd heq (hbrace rest)
  · rw [hunquote]

/-- The object in JSON is the configuration. -/
theorem Spacing.readConnector_json {config : Fields} (hj : (Value.object config).isJson = true)
    (hs : (Value.object config).symbols.isEncodable = true) :
    readConnector role (w.arguments type (Json.writeAscii (.object config))) = .ok ⟨type, config⟩ := by
  have hread := Json.read_writeAscii hj hs
  obtain ⟨inner, hinner⟩ := Json.writeAscii_object config
  have hstrip := w.strip_argument (Json.writeAscii (.object config))
    ⟨_, _, hinner, by decide⟩ ⟨.char '\x7b' :: inner, _, hinner, by decide⟩
  rw [readConnector, w.splitWord?_arguments hne hword]
  dsimp only
  rw [inParentheses?_of_blanks fun s hs => (w.within_front s hs).1]
  dsimp only
  rw [hstrip]
  rw [hinner] at hread ⊢
  simp only [hread]

/-- The line starts with the word of an end and ends with a parenthesis. -/
theorem Spacing.line_framed (argument : Text) :
    (∃ s u, w.line role type argument = s :: u ∧ s.isBlank = false) ∧
      (∀ u, w.line role type argument ≠ .char '#' :: u) ∧
        ∃ u s, w.line role type argument = u ++ [s] ∧ s.isBlank = false := by
  obtain ⟨-, u, s, hlast, hs⟩ := w.arguments_framed hne hword argument
  have hend : w.line role type argument = role.name ++ (w.gap ++ u) ++ [s] := by
    rw [Spacing.line, hlast, List.append_assoc, List.append_assoc]
  refine ⟨?_, ?_, ⟨_, s, hend, hs⟩⟩
  · cases role <;> exact ⟨.char 's', _, rfl, by decide⟩
  · intro u h
    cases role <;> exact absurd (List.cons.inj h).1 (by decide)

omit hne in
/-- A line with a connector is one line. -/
theorem Spacing.line_on_line {argument : Text} (harg : ∀ s ∈ argument, s.endsLine = false) :
    ∀ s ∈ w.line role type argument, s.endsLine = false := by
  have hname : ∀ s ∈ role.name, s.endsLine = false := by cases role <;> decide
  have htype : ∀ s ∈ type, s.endsLine = false := by
    intro s hs
    rw [Bool.eq_false_iff]
    intro hend
    have hw := hword s hs
    rw [Symbol.isWord_of_isBlank (Symbol.isBlank_of_endsLine hend)] at hw
    cases hw
  have hopen : (Symbol.char '(').endsLine = false := by decide
  have hclose : (Symbol.char ')').endsLine = false := by decide
  simp only [Spacing.line, Spacing.arguments, List.forall_mem_append, List.forall_mem_cons]
  exact ⟨hname, fun s hs => (w.within_gap s hs).2, htype, fun s hs => (w.within_front s hs).2, hopen,
    ⟨fun s hs => (w.within_left s hs).2, harg, fun s hs => (w.within_right s hs).2⟩, hclose, List.forall_mem_nil _⟩

end

/-! ### Documents of one line -/

theorem meaningful?_of_blank {raw : Text} (h : ∀ s ∈ raw, s.isBlank = true) : meaningful? raw = none := by
  have hstart : raw.stripStart = [] := (Text.stripStart_eq_nil_iff raw).2 (List.all_eq_true.2 h)
  refine meaningful?_of_silent (.inl ?_)
  rw [Text.strip, hstart]
  rfl

/-- Whitespace at the start of a document says nothing. -/
theorem meaningful_documentLines_cons {c : Symbol} (hc : c.isBlank = true) (t : Text) :
    meaningful (Text.documentLines (c :: t)) = meaningful (Text.documentLines t) := by
  have hempty : ∀ ls, meaningful ([] :: ls) = meaningful ls := fun ls => List.filterMap_cons_none rfl
  by_cases hend : c.endsLine = true
  · by_cases hpair : c = .char '\r' ∧ ∃ u, t = .char '\n' :: u
    · obtain ⟨rfl, u, rfl⟩ := hpair
      rw [Text.documentLines, documentLines_end (by decide) (fun _ h => by cases h), hempty]
    · rw [documentLines_end hend fun u hr hu => hpair ⟨hr, u, hu⟩, hempty]
  · rw [documentLines_cons hend]
    cases h : Text.documentLines t with
    | nil => exact List.filterMap_cons_none (meaningful?_of_blank (by simpa using hc))
    | cons line lines =>
      have hstrip : Text.strip (c :: line) = Text.strip line := by
        rw [Text.strip, Text.stripStart, List.dropWhile_cons_of_pos hc, Text.strip, Text.stripStart]
      simp only [List.headD_cons, List.tail_cons, meaningful, List.filterMap_cons, meaningful?_congr hstrip]

theorem meaningful_documentLines_append {b : Text} (hb : ∀ s ∈ b, s.isBlank = true) (t : Text) :
    meaningful (Text.documentLines (b ++ t)) = meaningful (Text.documentLines t) := by
  induction b with
  | nil => rfl
  | cons c b ih =>
    obtain ⟨hc, hb⟩ := List.forall_mem_cons.1 hb
    rw [List.cons_append, meaningful_documentLines_cons hc, ih hb]

/-- A text on one line goes in front of the first line of what follows. -/
theorem documentLines_line {line : Text} (hne : line ≠ []) (hline : ∀ s ∈ line, s.endsLine = false) (t : Text) :
    Text.documentLines (line ++ t) = (line ++ (Text.documentLines t).headD []) :: (Text.documentLines t).tail := by
  induction line with
  | nil => exact absurd rfl hne
  | cons c line ih =>
    obtain ⟨hc, hline⟩ := List.forall_mem_cons.1 hline
    rw [List.cons_append, documentLines_cons (by rw [hc]; decide)]
    cases line with
    | nil => rfl
    | cons d line =>
      rw [ih (List.cons_ne_nil d line) hline]
      rfl

/-- Whitespace around a line that says something leaves that line. -/
theorem meaningful_of_line {line a b : Text} (hline : ∀ s ∈ line, s.endsLine = false)
    (hfirst : ∃ s u, line = s :: u ∧ s.isBlank = false) (hlast : ∃ u s, line = u ++ [s] ∧ s.isBlank = false)
    (hcomment : ∀ u, line ≠ .char '#' :: u) (ha : ∀ s ∈ a, s.isBlank = true) (hb : ∀ s ∈ b, s.isBlank = true) :
    meaningful (Text.documentLines (a ++ (line ++ b))) = [line] := by
  have hne : line ≠ [] := by
    obtain ⟨s, u, rfl, -⟩ := hfirst
    exact List.cons_ne_nil s u
  have hblank : ∀ raw ∈ b.documentLines, ∀ s ∈ raw, s.isBlank = true := fun raw hraw s hs =>
    hb s (subset_documentLines hraw hs)
  have hhead : ∀ s ∈ b.documentLines.headD [], s.isBlank = true := by
    cases h : b.documentLines with
    | nil => exact List.forall_mem_nil _
    | cons raw raws => exact hblank raw (h ▸ List.mem_cons_self)
  have htail : meaningful b.documentLines.tail = [] :=
    List.filterMap_eq_nil_iff.2 fun raw hraw => meaningful?_of_blank (hblank raw (List.mem_of_mem_tail hraw))
  have hstrip := Text.strip_append hfirst hlast hhead
  have hsays : meaningful? (line ++ b.documentLines.headD []) = some line := by
    rw [meaningful?, hstrip]
    split
    · exact absurd rfl hne
    · exact absurd rfl (hcomment _)
    · rfl
  rw [meaningful_documentLines_append ha, documentLines_line hne hline, meaningful, List.filterMap_cons_some hsays]
  exact congrArg (line :: ·) htail

/-- The document compiles to a definition with a connector and nothing else. -/
def Connects (now : Int) (settings : Option Settings) (t : Text) (role : Role) (d : Descriptor) : Prop :=
  ∃ p, compile now settings t = .ok p ∧ p.atEnd role = some d ∧ (∀ other, other ≠ role → p.atEnd other = none) ∧
    p.stages = []

/-- A document whose only line names a connector. -/
theorem connects_of_readLine {now : Int} {settings : Option Settings} {t line : Text} {role : Role} {d : Descriptor}
    (ht : meaningful t.documentLines = [line]) (hline : readLine line = .ok (.connect role d)) :
    Connects now settings t role d := by
  have hcommands : commands [line] = [.connect role d] := commands_cons hline []
  have hsound : Sound [line] := by
    refine ⟨fun l hl => ⟨_, (List.mem_singleton.1 hl).symm ▸ hline⟩, fun r => ?_⟩
    rw [hcommands]
    exact List.length_filterMap_le _ _
  refine ⟨_, compile_ok_iff.2 ⟨ht ▸ hsound, rfl⟩, ?_⟩
  rw [ht, hcommands, build, List.foldl_cons, List.foldl_nil]
  cases role
  all_goals
    refine ⟨rfl, fun other hother => ?_, rfl⟩
    cases other
  · exact absurd rfl hother
  · rfl
  · rfl
  · exact absurd rfl hother

/-- **Connectors are read as they were written.** A document with one line, which names an end, a type and either an
argument between quotes or an object as JSON in ASCII, describes a definition with just that connector, whatever blanks
stand around the line, between its parts and inside of the parentheses. -/
theorem connector_lines_round_trip (now : Int) (settings : Option Settings) (w : Spacing) (role : Role) {type : Text}
    (hne : type ≠ []) (hword : ∀ s ∈ type, s.isWord = true) :
    (∀ (q : Char) (argument : Text), q = '"' ∨ q = '\'' → argument ≠ [] →
      (∀ s ∈ argument, s ≠ .char q ∧ s.endsLine = false) →
        Connects now settings (w.document role type (quoted q argument)) role
          ⟨type, [(.name (if type ∈ addressTypes then "url" else "path"), .text argument)]⟩) ∧
      ∀ config : Fields, (Value.object config).isJson = true → (Value.object config).symbols.isEncodable = true →
        Connects now settings (w.document role type (Json.writeAscii (.object config))) role ⟨type, config⟩ := by
  have hdocument : ∀ {argument d}, (∀ s ∈ argument, s.endsLine = false) →
      readConnector role (w.arguments type argument) = .ok d →
        Connects now settings (w.document role type argument) role d := by
    intro argument d harg hread
    have hline := w.readLine_line role hne hword argument
    rw [hread] at hline
    obtain ⟨hfirst, hcomment, hlast⟩ := w.line_framed role hne hword argument
    exact connects_of_readLine (meaningful_of_line (w.line_on_line role hword harg) hfirst hlast hcomment
      w.blank_before w.blank_after) hline
  constructor
  · intro q argument hq hne' harg
    have hend : (Symbol.char q).endsLine = false := by rcases hq with rfl | rfl <;> decide
    refine hdocument ?_ (w.readConnector_quoted role hne hword hq hne' fun hm => (harg _ hm).1 rfl)
    simp only [quoted, List.forall_mem_append, List.forall_mem_cons]
    exact ⟨hend, fun s hs => (harg s hs).2, hend, List.forall_mem_nil _⟩
  · intro config hj hs
    refine hdocument (fun s hs => ?_) (w.readConnector_json role hne hword hj hs)
    exact Symbol.endsLine_of_isPlain (Json.plain_writeAscii _ s hs)

/-- An address that holds a number sign, parentheses, quotes and a blank at its end, with blanks around it, and an
object whose text holds a parenthesis and a letter beyond ASCII. -/
theorem connector_lines_round_trip_parentheses :
    Connects 0 none "\n  source \t http ( '# (\"a\") ' )\n" .source ⟨"http", [(.name "url", .text "# (\"a\") ")]⟩ ∧
      Connects 0 none "sink kafka(\x7b\"topic\": \"\\u00e9)\"\x7d)" .sink ⟨"kafka", [(.name "topic", .text "é)")]⟩ := by
  let w : Spacing := ⟨"\n  ", " \t ", " ", " ", " ", "\n", by decide, by decide, by decide, by decide, by decide,
    by decide, by decide⟩
  have hquoted : w.document .source "http" (quoted '\'' "# (\"a\") ") = "\n  source \t http ( '# (\"a\") ' )\n" := by
    decide +kernel
  have hjson : Spacing.tight.document .sink "kafka" (Json.writeAscii (.object [(.name "topic", .text "é)")])) =
      "sink kafka(\x7b\"topic\": \"\\u00e9)\"\x7d)" := by decide +kernel
  have h := (connector_lines_round_trip 0 none w .source (by decide : ("http" : Text) ≠ []) (by decide)).1
    '\'' "# (\"a\") " (.inr rfl) (by decide) (by decide)
  have h' := (connector_lines_round_trip 0 none .tight .sink (by decide : ("kafka" : Text) ≠ []) (by decide)).2
    [(.name "topic", .text "é)")] (by decide) (by decide)
  rw [hquoted] at h
  rw [hjson] at h'
  exact ⟨h, h'⟩

end Document

end EventPipeline
