import EventPipeline.Proofs.Document.Meaning
import Mathlib.Data.List.Forall2
import Mathlib.Logic.Relation

/-!
# What a document does not depend on

The definition that a document describes stays the same when lines that say nothing come or go, when the
whitespace around lines changes, and when the lines that name an end or give the capacity move to other places
(`Edit`). After any number of such edits the lines still agree in every part that counts (`Agree`): they are the
same up to order, and the lines of the stages, of each end and of the capacity stand in the same order among
themselves. Together with what the lines mean, that is the main statement, `lines_determine`.
-/

namespace EventPipeline

open Relation (ReflTransGen)
open List (Forall₂)

namespace Document

/-- The line is blank or a comment. -/
def Silent (raw : Text) : Prop := raw.strip = [] ∨ ∃ comment, raw.strip = .char '#' :: comment

/-- The words whose lines may stand anywhere. -/
def movableWords : List Text := [Role.source.name, Role.sink.name, "bufferSize"]

/-- A change in the lines of a document that its definition does not depend on. -/
inductive Edit : List Text → List Text → Prop where
  /-- A line that says nothing is put in. -/
  | insert {raw : Text} (before after : List Text) (h : Silent raw) : Edit (before ++ after) (before ++ raw :: after)
  /-- A line that says nothing is taken out. -/
  | delete {raw : Text} (before after : List Text) (h : Silent raw) : Edit (before ++ raw :: after) (before ++ after)
  /-- The whitespace around a line is changed. -/
  | respace {raw raw' : Text} (before after : List Text) (h : raw.strip = raw'.strip) :
    Edit (before ++ raw :: after) (before ++ raw' :: after)
  /-- The lines of a word move to other places. They keep their order, and so do the other lines. -/
  | move {word : Text} {ls ls' : List Text} (hw : word ∈ movableWords)
    (hmoved : ls.filter (startsWith word ·.strip) = ls'.filter (startsWith word ·.strip))
    (hkept : ls.filter (!startsWith word ·.strip) = ls'.filter (!startsWith word ·.strip)) : Edit ls ls'

/-! ### Lines that say the same -/

theorem meaningful?_of_silent {raw : Text} (h : Silent raw) : meaningful? raw = none := by
  rcases h with h | ⟨comment, h⟩ <;> simp [meaningful?, h]

theorem strip_of_meaningful? {raw line : Text} (h : meaningful? raw = some line) : raw.strip = line := by
  unfold meaningful? at h
  split at h
  · cases h
  · cases h
  · exact Option.some.inj h

theorem meaningful?_congr {raw raw' : Text} (h : raw.strip = raw'.strip) : meaningful? raw = meaningful? raw' := by
  rw [meaningful?, meaningful?, h]

/-- Lines can be chosen before or after whitespace is taken away. -/
theorem meaningful_filter (q : Text → Bool) (raws : List Text) :
    meaningful (raws.filter (q ·.strip)) = (meaningful raws).filter q := by
  rw [meaningful, meaningful, List.filterMap_filter, List.filter_filterMap]
  refine List.filterMap_congr fun raw _ => ?_
  cases h : meaningful? raw with
  | none => cases q raw.strip <;> rfl
  | some line =>
    rw [strip_of_meaningful? h]
    cases hq : q line <;> simp [Option.filter, hq]

/-! ### Agreement -/

/-- The kinds of lines whose order counts. -/
def lineKinds : List (Text → Bool) := isStageLine :: movableWords.map startsWith

/-- Lists of lines agree in all that counts. -/
structure Agree (ls ls' : List Text) : Prop where
  /-- They are the same up to order. -/
  perm : ls.Perm ls'
  /-- The lines of each kind stand in the same order. -/
  kinds : ∀ q ∈ lineKinds, ls.filter q = ls'.filter q

theorem Agree.refl (ls : List Text) : Agree ls ls := ⟨.refl ls, fun _ _ => rfl⟩

theorem Agree.trans {ls ls' ls'' : List Text} (h : Agree ls ls') (h' : Agree ls' ls'') : Agree ls ls'' :=
  ⟨h.perm.trans h'.perm, fun q hq => (h.kinds q hq).trans (h'.kinds q hq)⟩

theorem lineKinds_cases {q : Text → Bool} (hq : q ∈ lineKinds) :
    q = isStageLine ∨ ∃ word ∈ movableWords, q = startsWith word := by
  rcases List.mem_cons.1 hq with rfl | hq
  · exact .inl rfl
  · obtain ⟨word, hword, rfl⟩ := List.mem_map.1 hq
    exact .inr ⟨word, hword, rfl⟩

/-- The lines of a word that may stand anywhere are a kind of their own. -/
theorem lineKinds_apart {word : Text} (hw : word ∈ movableWords) {q : Text → Bool} (hq : q ∈ lineKinds) :
    q = startsWith word ∨ ∀ line, q line = true → startsWith word line = false := by
  rcases lineKinds_cases hq with rfl | ⟨word', hword', rfl⟩
  · right
    intro line hline
    unfold isStageLine at hline
    unfold startsWith
    rw [decide_eq_false_iff_not]
    rintro rfl
    revert hline
    generalize firstWord line = word at hw
    simp only [movableWords, List.mem_cons, List.not_mem_nil, or_false] at hw
    rcases hw with rfl | rfl | rfl <;> decide
  · by_cases hword : word' = word
    · exact .inl (congrArg startsWith hword)
    · right
      intro line hline
      unfold startsWith at hline ⊢
      rw [of_decide_eq_true hline]
      exact decide_eq_false hword

/-- Lines of which some move and the others do not are the same up to order. -/
theorem perm_of_filters {α : Type} {q : α → Bool} {ls ls' : List α} (hmoved : ls.filter q = ls'.filter q)
    (hkept : ls.filter (!q ·) = ls'.filter (!q ·)) : ls.Perm ls' := by
  have h := List.filter_append_perm q ls
  rw [hmoved, hkept] at h
  exact h.symm.trans (List.filter_append_perm q ls')

theorem agree_of_edit {ls ls' : List Text} (h : Edit ls ls') : Agree (meaningful ls) (meaningful ls') := by
  cases h with
  | insert before after h => simp [meaningful, List.filterMap_cons_none (meaningful?_of_silent h), Agree.refl]
  | delete before after h => simp [meaningful, List.filterMap_cons_none (meaningful?_of_silent h), Agree.refl]
  | respace before after h => simp [meaningful, List.filterMap_cons, meaningful?_congr h, Agree.refl]
  | @move word _ _ hw hmoved hkept =>
    have hmoved' := congrArg meaningful hmoved
    have hkept' := congrArg meaningful hkept
    rw [meaningful_filter, meaningful_filter] at hmoved'
    rw [meaningful_filter (fun line => !startsWith word line),
      meaningful_filter (fun line => !startsWith word line)] at hkept'
    refine ⟨perm_of_filters hmoved' hkept', fun q hq => ?_⟩
    rcases lineKinds_apart hw hq with rfl | hapart
    · exact hmoved'
    · -- none of these lines has moved
      have hinner : ∀ line, (q line && !startsWith word line) = q line := by
        intro line
        cases hline : q line with
        | false => rfl
        | true => rw [hapart line hline]; rfl
      have hq' := congrArg (List.filter q) hkept'
      simpa only [List.filter_filter, hinner] using hq'

theorem agree_of_edits {ls ls' : List Text} (h : ReflTransGen Edit ls ls') :
    Agree (meaningful ls) (meaningful ls') := by
  induction h with
  | refl => exact .refl _
  | tail _ hedit ih => exact ih.trans (agree_of_edit hedit)

/-! ### Definitions of lines that agree -/

section

variable {ls ls' : List Text}

theorem parts_eq {α : Type} (part : Command → Option α) {q : Text → Bool}
    (hread : ∀ line ∈ ls, ∃ c, readLine line = .ok c) (hread' : ∀ line ∈ ls', ∃ c, readLine line = .ok c)
    (hq : ∀ line c, readLine line = .ok c → (part c).isSome = q line) (h : ls.filter q = ls'.filter q) :
    (commands ls).filterMap part = (commands ls').filterMap part := by
  let R : Text → α → Prop := fun line a => ∃ c, readLine line = .ok c ∧ part c = some a
  have hunique : Relator.RightUnique R := by
    rintro line a b ⟨c, hc, ha⟩ ⟨c', hc', hb⟩
    cases hc.symm.trans hc'
    exact Option.some.inj (ha.symm.trans hb)
  have hparts := forall₂_part part (R := R) hread hq fun _ c _ hc ha => ⟨c, hc, ha⟩
  have hparts' := forall₂_part part (R := R) hread' hq fun _ c _ hc ha => ⟨c, hc, ha⟩
  rw [← h] at hparts'
  exact List.right_unique_forall₂' hunique hparts hparts'

variable (hagree : Agree ls ls') (hls : Sound ls)

include hagree hls

theorem Agree.read (line : Text) (hline : line ∈ ls') : ∃ c, readLine line = .ok c :=
  hls.read line (hagree.perm.mem_iff.2 hline)

theorem Agree.connectors (role : Role) :
    (commands ls).filterMap (Command.connector? role) = (commands ls').filterMap (Command.connector? role) := by
  refine parts_eq _ hls.read (hagree.read hls) (fun _ _ => connector?_isSome) (hagree.kinds _ ?_)
  cases role <;> simp [lineKinds, movableWords]

theorem Agree.sound : Sound ls' := by
  refine ⟨hagree.read hls, fun role => ?_⟩
  rw [← hagree.connectors hls]
  exact hls.once role

theorem Agree.build_eq (now : Int) (settings : Option Settings) :
    build now settings (commands ls') = build now settings (commands ls) := by
  have hstages := parts_eq (Command.stage? now) hls.read (hagree.read hls) (fun _ _ => stage?_isSome)
    (hagree.kinds _ (by simp [lineKinds]))
  have hcapacities := parts_eq Command.capacity? hls.read (hagree.read hls)
    (fun _ _ => capacity?_isSome) (hagree.kinds _ (by simp [lineKinds, movableWords]))
  have hends : ∀ role,
      (build now settings (commands ls')).atEnd role = (build now settings (commands ls)).atEnd role := by
    intro role
    rw [build, build, atEnd_foldl, atEnd_foldl, hagree.connectors hls]
  exact Definition.ext (hends .source) (hends .sink)
    (by rw [build, build, stages_foldl, stages_foldl, hstages])
    (by rw [build, build, capacity_foldl, capacity_foldl, hcapacities]) (by simp [build])

end

/-- **The lines of a document determine its definition.** The definition is what the lines mean, and it stays
the same after any number of edits: lines that say nothing are put in or taken out, whitespace around lines is
changed, and the lines of an end or of the capacity are moved. -/
theorem lines_determine {now : Int} {settings : Option Settings} {t : Text} {p : Definition}
    (h : compile now settings t = .ok p) :
    IsMeaning now settings (meaningful t.documentLines) p ∧
      ∀ t' : Text, ReflTransGen Edit t.documentLines t'.documentLines → compile now settings t' = .ok p := by
  obtain ⟨hsound, rfl⟩ := compile_ok_iff.1 h
  refine ⟨isMeaning_build hsound, fun t' hedits => ?_⟩
  have hagree := agree_of_edits hedits
  exact compile_ok_iff.2 ⟨hagree.sound hsound, (hagree.build_eq hsound now settings).symm⟩

/-- The capacities move behind the sink, a comment goes, and the filter is indented. -/
theorem lines_determine_moved :
    ∃ p, compile 0 none "bufferSize 5\n# note\nsource memory('a')\nfilter(event)\nbufferSize 7\nsink file('b')" = .ok p ∧
      p.capacity = 7 ∧
      compile 0 none "source memory('a')\n  filter(event)\nsink file('b')\nbufferSize 5\nbufferSize 7" = .ok p := by
  have hcapacity : (compile 0 none
      "bufferSize 5\n# note\nsource memory('a')\nfilter(event)\nbufferSize 7\nsink file('b')").toOption.map
        Definition.capacity = some 7 := by decide +kernel
  have hlines : Text.documentLines
      "bufferSize 5\n# note\nsource memory('a')\nfilter(event)\nbufferSize 7\nsink file('b')" =
      ["bufferSize 5", "# note", "source memory('a')", "filter(event)", "bufferSize 7", "sink file('b')"] := by
    decide +kernel
  have hlines' : Text.documentLines
      "source memory('a')\n  filter(event)\nsink file('b')\nbufferSize 5\nbufferSize 7" =
      ["source memory('a')", "  filter(event)", "sink file('b')", "bufferSize 5", "bufferSize 7"] := by
    decide +kernel
  have hdelete : Edit ["bufferSize 5", "# note", "source memory('a')", "filter(event)", "bufferSize 7", "sink file('b')"]
      ["bufferSize 5", "source memory('a')", "filter(event)", "bufferSize 7", "sink file('b')"] :=
    .delete ["bufferSize 5"] _ (.inr ⟨" note", by decide +kernel⟩)
  have hmove : Edit ["bufferSize 5", "source memory('a')", "filter(event)", "bufferSize 7", "sink file('b')"]
      ["source memory('a')", "filter(event)", "sink file('b')", "bufferSize 5", "bufferSize 7"] :=
    @Edit.move "bufferSize" _ _ (by decide +kernel) (by decide +kernel) (by decide +kernel)
  have hindent : Edit ["source memory('a')", "filter(event)", "sink file('b')", "bufferSize 5", "bufferSize 7"]
      ["source memory('a')", "  filter(event)", "sink file('b')", "bufferSize 5", "bufferSize 7"] :=
    .respace ["source memory('a')"] _ (by decide +kernel)
  cases hp : compile 0 none
      "bufferSize 5\n# note\nsource memory('a')\nfilter(event)\nbufferSize 7\nsink file('b')" with
  | error f =>
    rw [hp] at hcapacity
    cases hcapacity
  | ok p =>
    rw [hp] at hcapacity
    refine ⟨p, rfl, Option.some.inj hcapacity, (lines_determine hp).2 _ ?_⟩
    rw [hlines, hlines']
    exact ((ReflTransGen.single hdelete).tail hmove).tail hindent

end Document

end EventPipeline
