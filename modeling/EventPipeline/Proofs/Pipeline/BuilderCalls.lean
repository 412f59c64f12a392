import EventPipeline.Pipeline.Lifecycle
import EventPipeline.Proofs.Pipeline.Locking

/-!
# Building a definition call by call

A pipeline is described by calls, any of which may be refused. A call that is refused changes nothing at all; one that
goes through changes its own part of the definition and nothing else (`Carried`). So what the calls and the windows
they are given are checked for holds of every definition that was built, whatever was refused in between and whenever
it was locked: its capacity is an integer from zero on, and a bound of a window is null or a positive integer
(`Sound`). While a definition is locked, every call that could change it is refused.
-/

namespace EventPipeline

/-- A call to the builder of a pipeline. -/
inductive BuilderRequest where
  /-- A call with values of the kinds that it takes. -/
  | build (b : BuilderCall)
  /-- Tries to name a connector with something that fails to be read as a configuration. -/
  | connectUnread (f : Failure)
  /-- Asks whether the pipeline could be started. -/
  | validate

/-- What a call makes of a definition. -/
def BuilderRequest.run : BuilderRequest → Definition → Except Failure Definition
  | build b, d => b.run d
  | connectUnread f, d => d.connectUnread f
  | validate, d => d.validate.map fun () => d

/-- The windows that are handed over with a call as a whole. -/
def BuilderRequest.windows : BuilderRequest → List Window
  | build (.addStage s) => s.window?.toList
  | build (.aggregate _ _ window _ _) => window.toList
  | _ => []

/-- The window was made of two field values. -/
def Window.IsMade (w : Window) : Prop := ∃ count span, ofValues count span = .ok w

/-- A descriptor can be made just of a type name that is not blank. -/
theorem Descriptor.ofValues_ok_iff {type : Value} {config : Fields} {c : Descriptor} :
    ofValues type config = .ok c ↔ ∃ t, type = .text t ∧ (∃ s ∈ t, s.isBlank = false) ∧ c = ⟨t, config⟩ := by
  simp only [← Text.isBlank_eq_false_iff]
  unfold ofValues
  cases type with
  | text t =>
    dsimp only
    split_ifs with hb
    · constructor
      · intro h
        cases h
      · rintro ⟨t', ht, hfilled, -⟩
        cases ht
        cases hb.symm.trans hfilled
    · constructor
      · intro h
        cases h
        exact ⟨t, rfl, Bool.eq_false_iff.2 hb, rfl⟩
      · rintro ⟨t', ht, -, rfl⟩
        cases ht
        rfl
  | _ => simp

namespace Window

theorem bound_ok {key : Text} {v : Value} {b : Option Nat} (h : bound key v = .ok b) :
    boundValue b = .null ∨ ∃ n, 0 < n ∧ boundValue b = .nat n := by
  unfold bound at h
  split at h <;> cases h
  · exact .inl rfl
  · exact .inr ⟨_, Nat.succ_pos _, rfl⟩

/-- The fields of a window that was made are null or positive. -/
theorem IsMade.bounds {w : Window} (h : w.IsMade) :
    ∀ b ∈ [w.count, w.span], boundValue b = .null ∨ ∃ n, 0 < n ∧ boundValue b = .nat n := by
  obtain ⟨count, span, h⟩ := h
  obtain ⟨c, hc, h⟩ := ok_of_bind_ok h
  obtain ⟨s, hs, h⟩ := ok_of_bind_ok h
  cases h
  intro b hb
  simp only [List.mem_cons, List.not_mem_nil, or_false] at hb
  rcases hb with rfl | rfl
  · exact bound_ok hc
  · exact bound_ok hs

end Window

namespace Definition

/-! ### What a call changes -/

/-- The definition with another connector at one end. -/
def withEnd (d : Definition) : Role → Descriptor → Definition
  | .source, c => { d with source := some c }
  | .sink, c => { d with sink := some c }

/-- The definition with one more stage at the end. -/
def withStage (d : Definition) (s : Stage) : Definition := { d with stages := d.stages ++ [s] }

/-- What a call that goes through makes of a definition: one part of it is another one, and all else is the same. -/
inductive Carried (d : Definition) : BuilderRequest → Definition → Prop
  /-- The connector at an end is replaced; its type is not blank. -/
  | connect (role : Role) {type : Text} (h : ∃ c ∈ type, c.isBlank = false) (config : Fields) :
    Carried d (.build (.connect role (.text type) config)) (d.withEnd role ⟨type, config⟩)
  /-- A stage is added at the end. -/
  | addStage (s : Stage) : Carried d (.build (.addStage s)) (d.withStage s)
  /-- An aggregate stage is added with a window that is given. -/
  | aggregateWindow (w : Window) (reduce : List Value → Except Failure Value) (source : Option Text) :
    Carried d (.build (.aggregate reduce source (some w) .null .null)) (d.withStage (.aggregate w reduce source))
  /-- An aggregate stage is added with a window made of its fields. -/
  | aggregateBounds {count span : Value} {w : Window} (h : Window.ofValues count span = .ok w)
    (reduce : List Value → Except Failure Value) (source : Option Text) :
    Carried d (.build (.aggregate reduce source none count span)) (d.withStage (.aggregate w reduce source))
  /-- The capacity is another one. -/
  | bufferSize (n : Nat) : Carried d (.build (.bufferSize (.nat n))) { d with capacity := n }
  /-- Nothing is changed, and both ends are named. -/
  | validate (hsource : d.source.isSome = true) (hsink : d.sink.isSome = true) : Carried d .validate d

variable {d d' : Definition}

theorem ensureMutable_ok_iff {u : Unit} : d.ensureMutable = .ok u ↔ d.locked = false := by
  unfold ensureMutable
  cases d.locked <;> simp

theorem connect_carried {role : Role} {type : Value} {config : Fields} (h : d.connect role type config = .ok d') :
    Carried d (.build (.connect role type config)) d' := by
  obtain ⟨-, -, h⟩ := ok_of_bind_ok h
  obtain ⟨c, hc, h⟩ := ok_of_bind_ok h
  obtain ⟨t, rfl, hfilled, rfl⟩ := Descriptor.ofValues_ok_iff.1 hc
  cases role <;> cases h <;> exact .connect _ hfilled config

theorem addStage_ok_iff {s : Stage} : d.addStage s = .ok d' ↔ d.locked = false ∧ d' = d.withStage s := by
  constructor
  · intro h
    obtain ⟨u, hmutable, h⟩ := ok_of_bind_ok h
    cases h
    exact ⟨ensureMutable_ok_iff.1 hmutable, rfl⟩
  · rintro ⟨hlocked, rfl⟩
    rw [addStage, ensureMutable_ok_iff (u := ()).2 hlocked]
    rfl

theorem capacityOf_ok_iff {v : Value} {n : Nat} : capacityOf v = .ok n ↔ v = .nat n := by
  unfold capacityOf
  split
  · simp only [Except.ok.injEq, Value.nat, Value.number.injEq, Number.int.injEq, Int.ofNat_eq_natCast, Int.natCast_inj]
  · rename_i hno
    simp only [reduceCtorEq, false_iff]
    rintro rfl
    exact hno n rfl

theorem validate_ok_iff {u : Unit} : d.validate = .ok u ↔ d.source.isSome = true ∧ d.sink.isSome = true := by
  unfold validate
  cases d.source <;> cases d.sink <;> simp

/-- An aggregate stage is added with the window that is given or made of the fields. -/
theorem aggregate_carried {reduce : List Value → Except Failure Value} {source : Option Text}
    {window : Option Window} {count span : Value} (h : d.aggregate reduce source window count span = .ok d') :
    Carried d (.build (.aggregate reduce source window count span)) d' := by
  unfold aggregate at h
  cases window with
  | some w =>
    dsimp only at h
    split_ifs at h with hnull
    · obtain ⟨-, rfl⟩ := addStage_ok_iff.1 h
      cases count <;> cases span <;> first | exact .aggregateWindow w reduce source | cases hnull
  | none =>
    obtain ⟨w, hw, h⟩ := ok_of_bind_ok h
    obtain ⟨-, rfl⟩ := addStage_ok_iff.1 h
    exact .aggregateBounds hw reduce source

theorem refused_of_locked_request (h : d.locked = true) {r : BuilderRequest} (hr : r ≠ .validate) :
    ∃ f, r.run d = .error f ∧ f.IsConfiguration := by
  cases r with
  | build b => exact refuses_of_locked h b
  | connectUnread f => exact refused_of_locked h _
  | validate => exact absurd rfl hr

theorem carried_of_run {r : BuilderRequest} (h : r.run d = .ok d') : Carried d r d' := by
  cases r with
  | build b =>
    cases b with
    | connect role type config => exact connect_carried h
    | addStage s =>
      obtain ⟨-, rfl⟩ := addStage_ok_iff.1 h
      exact .addStage s
    | addNoStage v =>
      obtain ⟨-, -, h⟩ := ok_of_bind_ok h
      cases h
    | aggregate reduce source window count span => exact aggregate_carried h
    | bufferSize capacity =>
      obtain ⟨-, -, h⟩ := ok_of_bind_ok h
      obtain ⟨n, hn, h⟩ := ok_of_bind_ok h
      cases h
      rw [capacityOf_ok_iff.1 hn]
      exact .bufferSize n
  | connectUnread f =>
    obtain ⟨-, -, h⟩ := ok_of_bind_ok h
    cases h
  | validate =>
    cases hv : d.validate with
    | error f =>
      rw [BuilderRequest.run, hv] at h
      cases h
    | ok u =>
      rw [BuilderRequest.run, hv] at h
      cases h
      obtain ⟨hsource, hsink⟩ := validate_ok_iff.1 hv
      exact .validate hsource hsink

theorem run_of_carried {r : BuilderRequest} (h : Carried d r d') (hlocked : d.locked = false ∨ r = .validate) :
    r.run d = .ok d' := by
  cases h with
  | connect role hfilled config =>
    have hmutable := ensureMutable_ok_iff (u := ()).2 (by simpa using hlocked)
    have hc : Descriptor.ofValues (.text _) config = .ok ⟨_, config⟩ :=
      Descriptor.ofValues_ok_iff.2 ⟨_, rfl, hfilled, rfl⟩
    simp only [BuilderRequest.run, BuilderCall.run, connect, hmutable, hc, bind, Except.bind]
    cases role <;> rfl
  | addStage s => exact addStage_ok_iff.2 ⟨by simpa using hlocked, rfl⟩
  | aggregateWindow w reduce source => exact addStage_ok_iff.2 ⟨by simpa using hlocked, rfl⟩
  | aggregateBounds hw reduce source =>
    rw [BuilderRequest.run, BuilderCall.run, aggregate]
    simp only [hw]
    exact addStage_ok_iff.2 ⟨by simpa using hlocked, rfl⟩
  | bufferSize n =>
    have hmutable := ensureMutable_ok_iff (u := ()).2 (by simpa using hlocked)
    simp only [BuilderRequest.run, BuilderCall.run, bufferSize, hmutable, capacityOf_ok_iff.2 rfl]
    rfl
  | validate hsource hsink =>
    have hv := validate_ok_iff (u := ()).2 ⟨hsource, hsink⟩
    rw [BuilderRequest.run, hv]
    rfl

/-- **A call goes through** just if it carries out what it stands for; only a question can be asked of a definition
that is locked. -/
theorem run_ok_iff (r : BuilderRequest) :
    r.run d = .ok d' ↔ Carried d r d' ∧ (d.locked = false ∨ r = .validate) := by
  constructor
  · intro h
    refine ⟨carried_of_run h, ?_⟩
    by_cases hr : r = .validate
    · exact .inr hr
    · cases hlocked : d.locked with
      | false => exact .inl rfl
      | true =>
        obtain ⟨f, hf, -⟩ := refused_of_locked_request hlocked hr
        cases hf.symm.trans h
  · rintro ⟨h, hlocked⟩
    exact run_of_carried h hlocked

/-! ### What stays true -/

/-- A definition as it is made, before the first call. -/
def IsNew (d : Definition) : Prop := (∃ v, withCapacity v = .ok d) ∨ ∃ settings, d = ofSettings settings

/-- The windows of the stages were made of field values. -/
def WindowsMade (d : Definition) : Prop := ∀ s ∈ d.stages, ∀ w, s.window? = some w → w.IsMade

theorem IsNew.windowsMade (h : d.IsNew) : d.WindowsMade := by
  have hnone : d.stages = [] := by
    rcases h with ⟨v, hv⟩ | ⟨settings, rfl⟩
    · unfold withCapacity at hv
      cases hn : capacityOf v with
      | error f =>
        rw [hn] at hv
        cases hv
      | ok n =>
        rw [hn] at hv
        cases hv
        rfl
    · rfl
  intro s hs
  rw [hnone] at hs
  cases hs

theorem WindowsMade.withStage (h : d.WindowsMade) {s : Stage} (hs : ∀ w, s.window? = some w → w.IsMade) :
    (d.withStage s).WindowsMade := by
  intro s' hs' w hw
  rcases List.mem_append.1 hs' with hs' | hs'
  · exact h s' hs' w hw
  · cases List.mem_singleton.1 hs'
    exact hs w hw

/-- **A call keeps the windows made**, if it is not given one that was not. -/
theorem WindowsMade.carried {r : BuilderRequest} (h : d.WindowsMade) (hr : ∀ w ∈ r.windows, w.IsMade)
    (hd : Carried d r d') : d'.WindowsMade := by
  cases hd with
  | connect role _ config => cases role <;> exact h
  | addStage s => exact h.withStage fun w hw => hr w (Option.mem_toList.2 hw)
  | aggregateWindow w reduce source =>
    refine h.withStage fun w' hw => ?_
    cases hw
    exact hr w (Option.mem_toList.2 rfl)
  | aggregateBounds hw reduce source =>
    refine h.withStage fun w' hw' => ?_
    cases hw'
    exact ⟨_, _, hw⟩
  | bufferSize n => exact h
  | validate => exact h

end Definition

/-! ### What a description says -/

/-- What an object holds under a name. -/
def Value.under (v : Value) (key : Text) : Option Value := v.asFields?.bind (·.find? (.name key))

/-- What a description says of the capacity and of windows is as it should be. -/
structure Value.SoundDescription (v : Value) : Prop where
  /-- The capacity is an integer from zero on. -/
  capacity : ∃ n, v.under "buffer_capacity" = some (.nat n)
  /-- There are stages. -/
  stages : ∃ items, v.under "stages" = some (.array items)
  /-- Each field of a window is null or a positive integer. -/
  windows : ∀ items, v.under "stages" = some (.array items) → ∀ item ∈ items, ∀ w, item.under "window" = some w →
    ∀ key ∈ [Window.countKey, Window.spanKey], ∃ b, w.under key = some b ∧ (b = .null ∨ ∃ n, 0 < n ∧ b = .nat n)

theorem Stage.under_window {s : Stage} {v : Value} (h : s.toValue.under "window" = some v) :
    ∃ w, s.window? = some w ∧ v = w.toValue := by
  cases s with
  | filter => cases h
  | transform => cases h
  | aggregate w => exact ⟨w, rfl, (Option.some.inj h).symm⟩

theorem Definition.WindowsMade.soundDescription {d : Definition} (h : d.WindowsMade) :
    d.describe.SoundDescription := by
  have hstages : d.describe.under "stages" = some (.array (d.stages.map Stage.toValue)) := rfl
  refine ⟨⟨d.capacity, rfl⟩, ⟨_, hstages⟩, fun items hitems item hitem v hv key hkey => ?_⟩
  cases hstages.symm.trans hitems
  obtain ⟨s, hs, rfl⟩ := List.mem_map.1 hitem
  obtain ⟨w, hw, rfl⟩ := Stage.under_window hv
  have hbounds := (h s hs w hw).bounds
  simp only [List.mem_cons, List.not_mem_nil, or_false] at hkey
  rcases hkey with rfl | rfl
  · exact ⟨_, rfl, hbounds _ (by simp)⟩
  · exact ⟨_, rfl, hbounds _ (by simp)⟩

/-! ### Calls in a row -/

/-- What is done with a pipeline while it is described. -/
inductive BuilderAct where
  /-- The builder is called. -/
  | call (r : BuilderRequest)
  /-- The definition is locked, or unlocked, by a start. -/
  | lock (locked : Bool)

namespace Pipeline

variable {σ κ : Type}

/-- A call to the builder as a step of the pipeline. -/
def request (r : BuilderRequest) : PipelineAction σ κ Unit := define r.run

/-- The pipeline after an act, whatever came of it. -/
def afterBuilderAct (p : Pipeline σ κ) : BuilderAct → Pipeline σ κ
  | .call r => (perform (request r) p).2
  | .lock locked => (perform (lock locked) p).2

/-- The pipeline after acts in a row. -/
def afterBuilding (p : Pipeline σ κ) (acts : List BuilderAct) : Pipeline σ κ := acts.foldl afterBuilderAct p

variable {p q : Pipeline σ κ} {r : BuilderRequest}

/-- A call that is refused changes nothing, and one that goes through changes the definition. -/
theorem perform_request (r : BuilderRequest) (p : Pipeline σ κ) :
    perform (request r) p =
      match r.run p.world.definition with
      | .ok d => (.ok (), { p with world.definition := d })
      | .error f => (.error f, p) := by
  unfold request define
  rw [perform_bind_ok (perform_get p)]
  cases r.run p.world.definition <;> rfl

theorem perform_request_error {f : Failure} (h : perform (request r) p = (.error f, q)) : q = p := by
  rw [perform_request] at h
  split at h <;> cases h
  rfl

theorem perform_request_ok_iff :
    perform (request r) p = (.ok (), q) ↔
      ∃ d, r.run p.world.definition = .ok d ∧ q = { p with world.definition := d } := by
  rw [perform_request]
  cases r.run p.world.definition with
  | ok d =>
    constructor
    · intro h
      cases h
      exact ⟨d, rfl, rfl⟩
    · rintro ⟨d', hd, rfl⟩
      cases hd
      rfl
  | error f =>
    constructor
    · intro h
      cases h
    · rintro ⟨d', hd, -⟩
      cases hd

/-- One act keeps the windows made. -/
theorem windowsMade_afterBuilderAct (h : p.world.definition.WindowsMade) {a : BuilderAct}
    (ha : ∀ r, a = .call r → ∀ w ∈ r.windows, w.IsMade) : (p.afterBuilderAct a).world.definition.WindowsMade := by
  cases a with
  | lock locked => exact h
  | call r =>
    rcases hp : perform (request r) p with ⟨f | u, q⟩
    · rw [afterBuilderAct, hp, perform_request_error hp]
      exact h
    · obtain ⟨d, hd, rfl⟩ := perform_request_ok_iff.1 hp
      rw [afterBuilderAct, hp]
      exact h.carried (ha r rfl) (Definition.carried_of_run hd)

/-- Acts in a row keep the windows made. -/
theorem windowsMade_afterBuilding {acts : List BuilderAct} (h : p.world.definition.WindowsMade)
    (hacts : ∀ r, .call r ∈ acts → ∀ w ∈ r.windows, w.IsMade) :
    (p.afterBuilding acts).world.definition.WindowsMade := by
  induction acts generalizing p with
  | nil => exact h
  | cons a acts ih =>
    refine ih (windowsMade_afterBuilderAct h ?_) fun r hr => hacts r (List.mem_cons_of_mem a hr)
    rintro r rfl
    exact hacts r List.mem_cons_self

/-- **Calls to the builder are atomic.** Take a pipeline with a new definition, and any calls in a row, with a lock
set or taken off in between; of windows that are handed over it is asked only that they were made. Then the
description has an integer from zero on for the capacity and null or a positive integer for each bound of a window.
The next call, if it is refused, leaves all as it was; it goes through just if what it asks for can be carried out
and the definition is not locked, and then its own part of the definition changes and nothing else does. While the
definition is locked, each call but the question whether it is complete is refused with a failure of configuration. -/
theorem builder_calls_atomic (p : Pipeline σ κ) (hnew : p.world.definition.IsNew) (acts : List BuilderAct)
    (hacts : ∀ r, .call r ∈ acts → ∀ w ∈ r.windows, w.IsMade) :
    let q := p.afterBuilding acts
    q.world.definition.describe.SoundDescription ∧
      (∀ r f q', perform (request r) q = (.error f, q') → q' = q) ∧
      (∀ r q', perform (request r) q = (.ok (), q') ↔
        ∃ d, Definition.Carried q.world.definition r d ∧ (q.world.definition.locked = false ∨ r = .validate) ∧
          q' = { q with world.definition := d }) ∧
      (q.world.definition.locked = true → ∀ r ≠ BuilderRequest.validate, ∃ f, perform (request r) q = (.error f, q) ∧
        f.IsConfiguration) := by
  intro q
  refine ⟨(windowsMade_afterBuilding hnew.windowsMade hacts).soundDescription, fun r f q' => perform_request_error,
    fun r q' => ?_, fun hlocked r hr => ?_⟩
  · simp only [perform_request_ok_iff, Definition.run_ok_iff, and_assoc]
  · obtain ⟨f, hf, hconfiguration⟩ := Definition.refused_of_locked_request hlocked hr
    exact ⟨f, by rw [perform_request, hf], hconfiguration⟩

/-- A call for a stage that makes one array of so many values. -/
def gather (count : Value) : BuilderAct :=
  .call (.build (.aggregate (fun held => .ok (.array held)) none none count .null))

theorem builder_calls_atomic_refused_window :
    let p : Pipeline Unit Unit := .ofDefinition (.empty 3) ⟨.empty "/work", [], []⟩ ⟨[]⟩
    let q := p.afterBuilding [gather (.nat 2), gather (.nat 0), .lock true, gather (.nat 1)]
    p.world.definition.IsNew ∧ q.world.definition.stages.map Stage.window? = [some ⟨some 2, none⟩] ∧
      q.world.definition.describe.SoundDescription ∧
      ∃ f, perform (request (.build (.bufferSize (.nat 5)))) q = (.error f, q) ∧ f.IsConfiguration := by
  intro p q
  have hnew : p.world.definition.IsNew := .inl ⟨.nat 3, rfl⟩
  have h := builder_calls_atomic p hnew [gather (.nat 2), gather (.nat 0), .lock true, gather (.nat 1)]
    (by simp [gather, BuilderRequest.windows])
  exact ⟨hnew, rfl, h.1, h.2.2.2 rfl _ (by simp)⟩

end Pipeline

end EventPipeline
