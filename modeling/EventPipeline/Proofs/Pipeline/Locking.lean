import EventPipeline.Pipeline.Definition
import EventPipeline.Proofs.Fallible

/-!
# Locked definitions

The calls that build a definition, as data. A locked definition refuses each of them with a failure of configuration
(`Definition.refuses_of_locked`), and none of them locks or unlocks a definition.
-/

namespace EventPipeline

/-- The failure is one of configuration. -/
def Failure.IsConfiguration (f : Failure) : Prop := ∃ message details hint, f = .configuration message details hint

/-- A call that changes a definition. -/
inductive BuilderCall where
  /-- Names a connector at one end. -/
  | connect (role : Role) (type : Value) (config : Fields)
  /-- Adds a stage. -/
  | addStage (s : Stage)
  /-- Tries to add a value that is no stage. -/
  | addNoStage (v : Value)
  /-- Adds an aggregate stage. -/
  | aggregate (reduce : List Value → Except Failure Value) (source : Option Text) (window : Option Window)
    (count span : Value)
  /-- Sets the capacity. -/
  | bufferSize (capacity : Value)

/-- What a call makes of a definition. -/
def BuilderCall.run : BuilderCall → Definition → Except Failure Definition
  | connect role type config, d => d.connect role type config
  | addStage s, d => d.addStage s
  | addNoStage v, d => d.addNoStage v
  | aggregate reduce source window count span, d => d.aggregate reduce source window count span
  | bufferSize capacity, d => d.bufferSize capacity

namespace Definition

/-- The definition refuses every call. -/
def Refuses (d : Definition) : Prop := ∀ b : BuilderCall, ∃ f, b.run d = .error f ∧ f.IsConfiguration

/-! ### Locked definitions -/

theorem isConfiguration_of_bound {key : Text} {v : Value} {f : Failure} (h : Window.bound key v = .error f) :
    f.IsConfiguration := by
  unfold Window.bound at h
  split at h
  all_goals cases h
  exact ⟨_, _, _, rfl⟩

theorem isConfiguration_of_window {count span : Value} {f : Failure} (h : Window.ofValues count span = .error f) :
    f.IsConfiguration := by
  unfold Window.ofValues at h
  cases hcount : Window.bound Window.countKey count with
  | error g =>
    rw [hcount] at h
    cases h
    exact isConfiguration_of_bound hcount
  | ok c =>
    rw [hcount] at h
    cases hspan : Window.bound Window.spanKey span with
    | error g =>
      simp only [hspan, bind, Except.bind] at h
      cases h
      exact isConfiguration_of_bound hspan
    | ok s =>
      simp only [hspan, bind, Except.bind] at h
      cases h

variable {d d' : Definition}

/-- An aggregate stage is added like any stage once its window is known. -/
theorem aggregate_cases (d : Definition) (reduce : List Value → Except Failure Value) (source : Option Text)
    (window : Option Window) (count span : Value) :
    (∃ w, d.aggregate reduce source window count span = d.addStage (.aggregate w reduce source)) ∨
      ∃ f, d.aggregate reduce source window count span = .error f ∧ f.IsConfiguration := by
  unfold aggregate
  cases window with
  | some w =>
    dsimp only
    split
    · exact .inl ⟨w, rfl⟩
    · exact .inr ⟨_, rfl, _, _, _, rfl⟩
  | none =>
    cases hw : Window.ofValues count span with
    | error f => exact .inr ⟨f, rfl, isConfiguration_of_window hw⟩
    | ok w => exact .inl ⟨w, rfl⟩

/-- A step that asks first whether the definition may be changed. -/
theorem refused_of_locked {α : Type} (h : d.locked = true) (rest : Except Failure α) :
    ∃ f, (do d.ensureMutable; rest) = .error f ∧ f.IsConfiguration := by
  rw [ensureMutable, if_pos h]
  exact ⟨_, rfl, _, _, _, rfl⟩

/-- **A locked definition refuses every call.** -/
theorem refuses_of_locked (h : d.locked = true) : d.Refuses := by
  intro b
  cases b with
  | aggregate reduce source window count span =>
    rcases aggregate_cases d reduce source window count span with ⟨w, hw⟩ | hf
    · rw [BuilderCall.run, hw]
      exact refused_of_locked h _
    · exact hf
  | connect | addStage | addNoStage | bufferSize => exact refused_of_locked h _

theorem locked_addStage {s : Stage} (h : d.addStage s = .ok d') : d'.locked = d.locked := by
  obtain ⟨-, -, h⟩ := ok_of_bind_ok h
  cases h
  rfl

/-- **No call locks or unlocks a definition.** -/
theorem locked_run {b : BuilderCall} (h : b.run d = .ok d') : d'.locked = d.locked := by
  cases b with
  | connect role type config =>
    obtain ⟨-, -, h⟩ := ok_of_bind_ok h
    obtain ⟨descriptor, -, h⟩ := ok_of_bind_ok h
    cases role <;> cases h <;> rfl
  | addStage s => exact locked_addStage h
  | addNoStage v =>
    obtain ⟨-, -, h⟩ := ok_of_bind_ok h
    cases h
  | aggregate reduce source window count span =>
    rcases aggregate_cases d reduce source window count span with ⟨w, hw⟩ | ⟨f, hf, -⟩
    · exact locked_addStage (hw.symm.trans h)
    · cases hf.symm.trans h
  | bufferSize capacity =>
    obtain ⟨-, -, h⟩ := ok_of_bind_ok h
    obtain ⟨n, -, h⟩ := ok_of_bind_ok h
    cases h
    rfl

end Definition

end EventPipeline
