import EventPipeline.Proofs.Document.FirstFault
import EventPipeline.Proofs.Expression.Printing

/-!
# What a document means

A document that compiles is determined by its meaningful lines, sorted by their first words (`IsMeaning`):
the stages are those of the lines that start with `filter` or `transform`, in their order; each end is that
of the only line that names it, or is missing; the capacity is that of the last line that gives one, or comes
from the settings.

So there is much that a definition does not depend on: lines that say nothing, whitespace around lines, and
where the lines that name an end or give a capacity stand among the others (`Edit`). The main statement,
`lines_determine`, says both.
-/

namespace EventPipeline

open Relation (ReflTransGen)
open List (Forall₂)

attribute [ext] Definition

/-- The connector at an end. -/
def Definition.atEnd (p : Definition) : Role → Option Descriptor
  | .source => p.source
  | .sink => p.sink

namespace Document

/-! ### Lines by their first words -/

/-- The lines of a list that say something, without whitespace around them. -/
def meaningful (raws : List Text) : List Text := raws.filterMap meaningful?

/-- The longest word at the start of a line. -/
def firstWord (line : Text) : Text := line.takeWhile Symbol.isWord

/-- The line starts with the word of a stage. -/
def isStageLine (line : Text) : Bool :=
  firstWord line = StageWord.filter.text || firstWord line = StageWord.transform.text

/-- The line starts with a word. -/
def startsWith (word line : Text) : Bool := firstWord line = word

/-- The line holds a body: what stands between its first opening parenthesis and the closing one at its end. -/
def Holds (line body : Text) : Prop :=
  ∃ lead, line = lead ++ .char '(' :: (body ++ [.char ')']) ∧ .char '(' ∉ lead

/-- The stage that a line describes, at a reading of the clock. -/
inductive Describes (now : Int) (line : Text) : Stage → Prop where
  /-- A filter accepts what its body is true of. -/
  | filter {body : Text} {e : Expression} {accepts : Value → Except Failure Bool}
    (hw : firstWord line = StageWord.filter.text) (hb : Holds line body) (he : Expression.compile body = .ok e)
    (ha : ∀ v, accepts v = (e.evaluate now v).map Expression.truthy) :
    Describes now line (.filter accepts (some body.strip))
  /-- A transform gives the value of its body. -/
  | transform {body : Text} {e : Expression} {map : Value → Except Failure Value}
    (hw : firstWord line = StageWord.transform.text) (hb : Holds line body) (he : Expression.compile body = .ok e)
    (hm : ∀ v, map v = e.evaluate now v) : Describes now line (.transform map (some body.strip))

/-- The line names a connector at an end. -/
def NamesEnd (role : Role) (line : Text) (d : Descriptor) : Prop :=
  ∃ arguments, wordAndArguments? line = some (role.name, arguments) ∧ readConnector role arguments = .ok d

/-- The line gives a capacity. -/
def Gives (line : Text) (n : Nat) : Prop :=
  ∃ arguments, wordAndArguments? line = some (("bufferSize" : Text), arguments) ∧ digitsValue arguments = n

/-- The definition is what lines mean. -/
structure IsMeaning (now : Int) (settings : Option Settings) (ls : List Text) (p : Definition) : Prop where
  /-- Every line starts with the word of a command. -/
  words : ∀ line ∈ ls, firstWord line ∈ commandWords
  /-- There is one stage for each line of a stage, in order. -/
  stages : Forall₂ (Describes now) (ls.filter isStageLine) p.stages
  /-- An end is that of the only line that names it, or missing. -/
  ends : ∀ role : Role, Forall₂ (NamesEnd role) (ls.filter (startsWith role.name)) (p.atEnd role).toList
  /-- The capacity is that of the last line that gives one, or comes from the settings. -/
  capacity : ∃ ns, Forall₂ Gives (ls.filter (startsWith "bufferSize")) ns ∧
    p.capacity = ns.getLastD ((settings.map Settings.defaultBufferCapacity).getD 1000)

/-! ### The shape of a line -/

theorem takeWhile_word {word rest : Text} (hw : ∀ s ∈ word, s.isWord = true)
    (hrest : ∀ s ∈ rest.head?, s.isWord = false) : firstWord (word ++ rest) = word := by
  rw [firstWord, List.takeWhile_append_of_pos hw]
  cases rest with
  | nil => simp
  | cons s rest => simp [hrest s rfl]

theorem StageWord.isWord_of_mem (word : StageWord) : ∀ s ∈ word.text, s.isWord = true := by
  cases word <;> decide

/-- The body of a stage stands in parentheses behind the word, with nothing but whitespace between. -/
theorem stageBody?_eq {line body : Text} {word : StageWord} (h : stageBody? line = some (word, body)) :
    ∃ blanks : Text, (∀ s ∈ blanks, s.isBlank = true) ∧
      line = word.text ++ (blanks ++ .char '(' :: (body ++ [.char ')'])) := by
  obtain ⟨word', -, hw⟩ := List.exists_of_findSome?_eq_some h
  obtain ⟨rest, hrest, hw⟩ := Option.bind_eq_some_iff.1 hw
  obtain ⟨body', hbody, hw⟩ := Option.bind_eq_some_iff.1 hw
  cases hw
  unfold Text.after? at hrest
  split_ifs at hrest with hlead
  obtain ⟨tail, rfl⟩ := List.isPrefixOf_iff_prefix.1 hlead
  cases hrest
  rw [List.drop_left] at hbody
  unfold inParentheses? Text.stripStart at hbody
  split at hbody
  · rename_i more hmore
    split_ifs at hbody with hlast
    cases hbody
    refine ⟨tail.takeWhile Symbol.isBlank, fun s hs => List.all_eq_true.1 List.all_takeWhile s hs, ?_⟩
    rw [List.dropLast_append_getLast? _ hlast, ← hmore, List.takeWhile_append_dropWhile]
  · cases hbody

theorem holds_of_stageBody? {line body : Text} {word : StageWord} (h : stageBody? line = some (word, body)) :
    firstWord line = word.text ∧ Holds line body := by
  obtain ⟨blanks, hblanks, rfl⟩ := stageBody?_eq h
  refine ⟨takeWhile_word word.isWord_of_mem ?_, word.text ++ blanks, by simp, ?_⟩
  · intro s hs
    cases blanks with
    | nil =>
      cases hs
      decide
    | cons b blanks =>
      cases hs
      exact Symbol.isWord_of_isBlank (hblanks _ List.mem_cons_self)
  · rw [List.mem_append, not_or]
    refine ⟨by cases word <;> decide, fun hm => ?_⟩
    exact absurd (hblanks _ hm) (by decide)

theorem firstWord_of_wordAndArguments? {line word arguments : Text}
    (h : wordAndArguments? line = some (word, arguments)) : firstWord line = word := by
  obtain ⟨⟨word', rest⟩, hsplit, h⟩ := Option.bind_eq_some_iff.1 h
  unfold splitWord? at hsplit
  dsimp only at hsplit
  split_ifs at hsplit
  cases hsplit
  dsimp only at h
  split at h
  · cases h
  · split_ifs at h
    cases h
    rfl

/-- A line that is understood starts with the word of its command. -/
theorem firstWord_of_readLine {line : Text} {c : Command} (h : readLine line = .ok c) : firstWord line = c.word := by
  rcases readLine_ok h with ⟨word, body, e, hbody, -, rfl⟩ | ⟨arguments, hargs, -⟩
  · exact (holds_of_stageBody? hbody).1
  · exact firstWord_of_wordAndArguments? hargs

/-! ### Parts of commands -/

/-- The stage that a command asks for, at a reading of the clock. -/
def Command.stage? (now : Int) : Command → Option Stage
  | .stage .filter e => some (.filterBy e now e.source)
  | .stage .transform e => some (.transformBy e now e.source)
  | _ => none

/-- The connector that a command asks for at an end. -/
def Command.connector? (role : Role) : Command → Option Descriptor
  | .connect r d => if r = role then some d else none
  | _ => none

/-- The capacity that a command asks for. -/
def Command.capacity? : Command → Option Nat
  | .bufferSize n => some n
  | _ => none

@[simp] theorem stages_carriedOut (now : Int) (p : Definition) (c : Command) :
    (c.carriedOut now p).stages = p.stages ++ (c.stage? now).toList := by
  cases c with
  | connect role _ => cases role <;> simp [Command.carriedOut, Command.stage?]
  | stage word _ => cases word <;> rfl
  | bufferSize _ => simp [Command.carriedOut, Command.stage?]

@[simp] theorem atEnd_carriedOut (now : Int) (role : Role) (p : Definition) (c : Command) :
    (c.carriedOut now p).atEnd role = (c.connector? role).or (p.atEnd role) := by
  cases c with
  | connect role' _ => cases role' <;> cases role <;> rfl
  | stage word _ => cases word <;> cases role <;> rfl
  | bufferSize _ => cases role <;> rfl

@[simp] theorem capacity_carriedOut (now : Int) (p : Definition) (c : Command) :
    (c.carriedOut now p).capacity = c.capacity?.getD p.capacity := by
  cases c with
  | connect role _ => cases role <;> rfl
  | stage word _ => cases word <;> rfl
  | bufferSize _ => rfl

theorem stages_foldl (now : Int) (cs : List Command) (p : Definition) :
    (cs.foldl (Command.carriedOut now) p).stages = p.stages ++ cs.filterMap (Command.stage? now) := by
  induction cs generalizing p with
  | nil => simp
  | cons c cs ih =>
    rw [List.foldl_cons, ih, stages_carriedOut, List.filterMap_cons]
    cases c.stage? now <;> simp

theorem atEnd_foldl (now : Int) (role : Role) (cs : List Command) (p : Definition) :
    (cs.foldl (Command.carriedOut now) p).atEnd role =
      (cs.filterMap (Command.connector? role)).getLast?.or (p.atEnd role) := by
  induction cs generalizing p with
  | nil => simp
  | cons c cs ih =>
    rw [List.foldl_cons, ih, atEnd_carriedOut, List.filterMap_cons]
    cases c.connector? role with
    | none => simp
    | some d => rw [List.getLast?_cons]; cases (List.filterMap _ cs).getLast? <;> simp

theorem capacity_foldl (now : Int) (cs : List Command) (p : Definition) :
    (cs.foldl (Command.carriedOut now) p).capacity = (cs.filterMap Command.capacity?).getLastD p.capacity := by
  induction cs generalizing p with
  | nil => rfl
  | cons c cs ih =>
    rw [List.foldl_cons, ih, capacity_carriedOut, List.filterMap_cons]
    cases c.capacity? with
    | none => rfl
    | some n => exact (List.getLastD_cons ..).symm

@[simp] theorem locked_foldl (now : Int) (cs : List Command) (p : Definition) :
    (cs.foldl (Command.carriedOut now) p).locked = p.locked := by
  induction cs generalizing p with
  | nil => rfl
  | cons c cs ih => rw [List.foldl_cons, ih, Command.locked_carriedOut]

/-! ### Lines and commands -/

/-- The command of a line that is understood. -/
def command? (line : Text) : Option Command := (readLine line).toOption

/-- The commands of the lines that are understood. -/
def commands (ls : List Text) : List Command := ls.filterMap command?

/-- All lines are understood, and no end is named twice. -/
structure Sound (ls : List Text) : Prop where
  /-- Every line is understood. -/
  read : ∀ line ∈ ls, ∃ c, readLine line = .ok c
  /-- No end is named twice. -/
  once : ∀ role : Role, ((commands ls).filterMap (Command.connector? role)).length ≤ 1

theorem command?_of_readLine {line : Text} {c : Command} (h : readLine line = .ok c) : command? line = some c := by
  rw [command?, h]
  rfl

theorem commands_cons {line : Text} {c : Command} (h : readLine line = .ok c) (ls : List Text) :
    commands (line :: ls) = c :: commands ls := List.filterMap_cons_some (command?_of_readLine h)

/-- The parts that some lines give are described by these lines, in order. -/
theorem forall₂_part {α : Type} (part : Command → Option α) {q : Text → Bool} {R : Text → α → Prop} {ls : List Text}
    (hread : ∀ line ∈ ls, ∃ c, readLine line = .ok c)
    (hq : ∀ line c, readLine line = .ok c → (part c).isSome = q line)
    (hR : ∀ line c a, readLine line = .ok c → part c = some a → R line a) :
    Forall₂ R (ls.filter q) ((commands ls).filterMap part) := by
  induction ls with
  | nil => exact .nil
  | cons line ls ih =>
    obtain ⟨c, hc⟩ := hread line List.mem_cons_self
    have hls := ih fun l hl => hread l (List.mem_cons_of_mem _ hl)
    rw [commands_cons hc, List.filter_cons, List.filterMap_cons, ← hq line c hc]
    cases ha : part c with
    | none => simpa using hls
    | some a => simpa using Forall₂.cons (hR line c a hc ha) hls

theorem stage?_isSome {now : Int} {line : Text} {c : Command} (h : readLine line = .ok c) :
    (c.stage? now).isSome = isStageLine line := by
  rw [isStageLine, firstWord_of_readLine h]
  cases c with
  | connect role _ => cases role <;> rfl
  | stage word _ => cases word <;> rfl
  | bufferSize _ => rfl

theorem connector?_isSome {role : Role} {line : Text} {c : Command} (h : readLine line = .ok c) :
    (c.connector? role).isSome = startsWith role.name line := by
  rw [startsWith, firstWord_of_readLine h]
  cases c with
  | connect role' _ => cases role' <;> cases role <;> rfl
  | stage word _ => cases word <;> cases role <;> rfl
  | bufferSize _ => cases role <;> rfl

theorem capacity?_isSome {line : Text} {c : Command} (h : readLine line = .ok c) :
    c.capacity?.isSome = startsWith "bufferSize" line := by
  rw [startsWith, firstWord_of_readLine h]
  cases c with
  | connect role _ => cases role <;> rfl
  | stage word _ => cases word <;> rfl
  | bufferSize _ => rfl

/-- The text of an expression is the text it was compiled from, without whitespace around it. -/
theorem source_of_compile {body : Text} {e : Expression} (h : Expression.compile body = .ok e) :
    e.source = body.strip := by
  obtain ⟨_, -, rfl⟩ := Expression.compile_eq_ok_iff.1 h
  rfl

theorem describes_of_readLine {now : Int} {line : Text} {c : Command} {s : Stage} (h : readLine line = .ok c)
    (hs : c.stage? now = some s) : Describes now line s := by
  rcases readLine_ok h with ⟨word, body, e, hbody, he, rfl⟩ | ⟨arguments, -, ⟨role, d, -, rfl⟩ | rfl⟩
  · obtain ⟨hw, hb⟩ := holds_of_stageBody? hbody
    cases word with
    | filter =>
      cases hs
      rw [source_of_compile he]
      exact .filter hw hb he fun v => rfl
    | transform =>
      cases hs
      rw [source_of_compile he]
      exact .transform hw hb he fun v => rfl
  · cases hs
  · cases hs

theorem namesEnd_of_readLine {role : Role} {line : Text} {c : Command} {d : Descriptor} (h : readLine line = .ok c)
    (hd : c.connector? role = some d) : NamesEnd role line d := by
  rcases readLine_ok h with ⟨word, body, e, -, -, rfl⟩ | ⟨arguments, hargs, ⟨role', d', hread, rfl⟩ | rfl⟩
  · cases hd
  · obtain ⟨rfl, rfl⟩ : role' = role ∧ d' = d := by simpa [Command.connector?] using hd
    exact ⟨arguments, hargs, hread⟩
  · cases hd

theorem gives_of_readLine {line : Text} {c : Command} {n : Nat} (h : readLine line = .ok c)
    (hn : c.capacity? = some n) : Gives line n := by
  rcases readLine_ok h with ⟨word, body, e, -, -, rfl⟩ | ⟨arguments, hargs, ⟨role, d, -, rfl⟩ | rfl⟩
  · cases hn
  · cases hn
  · cases hn
    exact ⟨arguments, hargs, rfl⟩

/-! ### The definition of a document -/

/-- What the commands of lines build is what the lines mean. -/
theorem isMeaning_build {now : Int} {settings : Option Settings} {ls : List Text} (hls : Sound ls) :
    IsMeaning now settings ls (build now settings (commands ls)) where
  words line hline := by
    obtain ⟨c, hc⟩ := hls.read line hline
    rw [firstWord_of_readLine hc]
    cases c with
    | connect role _ => cases role <;> simp [Command.word, commandWords]
    | stage word _ => cases word <;> simp [Command.word, commandWords]
    | bufferSize _ => simp [Command.word, commandWords]
  stages := by
    rw [build, stages_foldl]
    exact forall₂_part _ hls.read (fun _ _ => stage?_isSome) fun _ _ _ => describes_of_readLine
  ends role := by
    have hends := forall₂_part (Command.connector? role) hls.read (fun _ _ => connector?_isSome)
      fun _ _ _ => namesEnd_of_readLine
    have honce := hls.once role
    rw [build, atEnd_foldl]
    -- there is one connector at most, so that the last of them is all of them
    match hds : (commands ls).filterMap (Command.connector? role) with
    | [] =>
      rw [hds] at hends
      cases role <;> simpa [Definition.atEnd, Definition.ofSettings, Definition.empty] using hends
    | [d] =>
      rw [hds] at hends
      simpa using hends
    | _ :: _ :: _ =>
      rw [hds] at honce
      simp at honce
  capacity := by
    refine ⟨(commands ls).filterMap Command.capacity?, ?_, ?_⟩
    · exact forall₂_part _ hls.read (fun _ _ => capacity?_isSome) fun _ _ _ => gives_of_readLine
    · rw [build, capacity_foldl]
      cases settings <;> rfl

theorem meaningful_eq (raws : List Text) (number : Nat) :
    meaningful raws = ((raws.zipIdx number).filterMap numbered?).map Prod.snd := by
  induction raws generalizing number with
  | nil => rfl
  | cons raw raws ih =>
    rw [meaningful, List.filterMap_cons, List.zipIdx_cons, List.filterMap_cons, numbered?]
    cases meaningful? raw with
    | none => exact ih (number + 1)
    | some line => exact congrArg (line :: ·) (ih (number + 1))

theorem commands_lines {ds : List Directive} (hds : ∀ d ∈ ds, readLine d.line = .ok d.command) :
    commands (ds.map Directive.line) = ds.map Directive.command := by
  induction ds with
  | nil => rfl
  | cons d ds ih =>
    rw [List.map_cons, List.map_cons, commands_cons (hds d List.mem_cons_self),
      ih fun d' hd' => hds d' (List.mem_cons_of_mem _ hd')]

theorem length_connectors (role : Role) (cs : List Command) :
    (cs.filterMap (Command.connector? role)).length = cs.countP (·.role? = some role) := by
  rw [List.length_filterMap_eq_countP]
  refine List.countP_congr fun c _ => ?_
  cases c <;> simp [Command.connector?, Command.role?]

/-- Lines that are understood and name no end twice are read. -/
theorem readSaid_of_once {ls : List (Nat × Text)} (hread : ∀ entry ∈ ls, ∃ c, readLine entry.2 = .ok c)
    {seen : Table Role Nat} (honce : ∀ role : Role, (commands (ls.map Prod.snd)).countP (·.role? = some role) +
      (seen.find? role).toList.length ≤ 1) : ∃ ds, readSaid seen ls = .ok ds := by
  induction ls generalizing seen with
  | nil => exact ⟨[], rfl⟩
  | cons entry ls ih =>
    obtain ⟨number, line⟩ := entry
    obtain ⟨c, hc⟩ := hread _ List.mem_cons_self
    simp only [List.map_cons, commands_cons hc, List.countP_cons] at honce
    have hd : readDirective seen number line = .ok ⟨number, line, c⟩ := by
      simp only [readDirective, hc]
      cases hr : c.role? with
      | none => simp
      | some role =>
        have hfree := honce role
        cases hf : seen.find? role with
        | none => simp [hf]
        | some first => simp [hr, hf] at hfree
    obtain ⟨ds, hds⟩ : ∃ ds, readSaid (Directive.mark ⟨number, line, c⟩ seen) ls = .ok ds := by
      refine ih (fun entry he => hread entry (List.mem_cons_of_mem _ he)) fun role => ?_
      have hrole := honce role
      rw [find?_mark]
      by_cases hr : c.role? = some role
      · simp only [hr, decide_true, if_true] at hrole ⊢
        simp only [Option.toList_some, List.length_singleton]
        omega
      · simpa [hr] using hrole
    exact ⟨_, by simp only [readSaid, hd, hds, bind, Except.bind]; rfl⟩

section

variable {t : Text} {ds : List Directive}

theorem meaningful_said (t : Text) : meaningful t.documentLines = (said t).map Prod.snd :=
  meaningful_eq t.documentLines 1

theorem meaningful_of_directives (h : directives t = .ok ds) :
    meaningful t.documentLines = ds.map Directive.line := by
  rw [meaningful_said, ← (understood h).lines, List.map_map]
  rfl

theorem compile_of_directives (h : directives t = .ok ds) (now : Int) (settings : Option Settings) :
    compile now settings t = .ok (build now settings (commands (meaningful t.documentLines))) := by
  have hcommands := (understood h).commands
  rw [compile, h, meaningful_of_directives h, commands_lines hcommands]
  exact foldlM_apply now hcommands rfl

theorem sound_of_directives (h : directives t = .ok ds) : Sound (meaningful t.documentLines) := by
  have hu := understood h
  have hlines := meaningful_of_directives h
  refine ⟨fun line hline => ?_, fun role => ?_⟩
  · rw [hlines] at hline
    obtain ⟨d, hd, rfl⟩ := List.mem_map.1 hline
    exact ⟨_, hu.commands d hd⟩
  · rw [hlines, commands_lines hu.commands, length_connectors, List.countP_map, List.countP_eq_length_filter]
    exact hu.ends role

theorem directives_of_sound (h : Sound (meaningful t.documentLines)) : ∃ ds, directives t = .ok ds := by
  rw [directives_eq]
  refine readSaid_of_once (fun entry he => ?_) fun role => ?_
  · exact h.read entry.2 (meaningful_said t ▸ List.mem_map_of_mem he)
  · rw [← meaningful_said, ← length_connectors]
    exact h.once role

/-- A document compiles just if all its lines are understood and no end is named twice; and then the definition
is what the commands build. -/
theorem compile_ok_iff {now : Int} {settings : Option Settings} {p : Definition} :
    compile now settings t = .ok p ↔
      Sound (meaningful t.documentLines) ∧ p = build now settings (commands (meaningful t.documentLines)) := by
  constructor
  · intro h
    cases hds : directives t with
    | error f =>
      rw [compile, hds] at h
      cases h
    | ok ds => exact ⟨sound_of_directives hds, Except.ok.inj (h.symm.trans (compile_of_directives hds now settings))⟩
  · rintro ⟨hsound, rfl⟩
    obtain ⟨ds, hds⟩ := directives_of_sound hsound
    exact compile_of_directives hds now settings

end

end Document

end EventPipeline
