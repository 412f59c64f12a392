import EventPipeline.Proofs.Fallible
import EventPipeline.Signal.Emitter

/-!
# Delivery of signals

A sending takes the handlers that are subscribed as it begins and calls them in turn, up to the first one that fails.
Meanwhile they may subscribe, cancel and send signals themselves, to any depth. The journal tells of all sendings in
one row; what is said of one of them is what remains when those that are begun later are left out (`own`).

A piece of the journal is in order (`Accounts`) if the handlers are at its end what the subscriptions and cancellations
in it make of those at its beginning, and if every sending in it runs its course (`Course`) on the handlers at the
moment when it began. Single steps are, and pieces in a row; so a handler does nothing else (`Leads Fits`), by induction
on what it does and on how deep sendings are nested.
-/

namespace EventPipeline

variable {η : Type}

/-! ### Changes of the handlers -/

/-- The happening is a change of the handlers of a signal. -/
def Happening.Changes (signal : Text) : Happening η → Prop
  | .subscribed other _ => other = signal
  | .cancelled other _ => other = signal
  | _ => False

section Turn

variable [DecidableEq η]

/-- What a happening makes of the handlers of a signal. -/
def Happening.turn (signal : Text) (hs : List η) : Happening η → List η
  | .subscribed other h => if other = signal then hs ++ [h] else hs
  | .cancelled other h => if other = signal then hs.erase h else hs
  | _ => hs

/-- A change of the handlers of a signal does nothing to those of other ones. -/
theorem Happening.turn_of_changes {x : Happening η} {signal : Text} (h : x.Changes signal) (other : Text)
    (hs : List η) : x.turn other hs = if signal = other then x.turn signal hs else hs := by
  cases x with
  | subscribed | cancelled =>
    cases h
    by_cases ho : signal = other <;> simp [turn, ho]
  | _ => cases h

end Turn

namespace Emitter

variable {e : Emitter η} {signal : Text}

/-- The emitter with other handlers of a signal. -/
def withHandlers (e : Emitter η) (signal : Text) (hs : List η) : Emitter η :=
  { e with handlers := e.handlers.set signal hs }

theorem handlersOf_withHandlers (hs : List η) (other : Text) :
    (e.withHandlers signal hs).handlersOf other = if signal = other then hs else e.handlersOf other := by
  unfold handlersOf withHandlers
  rw [Table.find?_set]
  split <;> rfl

theorem check_of_mem (h : signal ∈ e.declared) : e.check signal = .ok () := by
  rw [check, if_pos (List.contains_iff_mem.2 h)]

theorem check_of_not_mem (h : signal ∉ e.declared) : ∃ message, e.check signal = .error (.plain .value message) := by
  rw [check, if_neg fun hc => h (List.contains_iff_mem.1 hc)]
  exact ⟨_, rfl⟩

section Changes

variable [DecidableEq η]

theorem subscribe_eq (e : Emitter η) (signal : Text) (h : η) :
    e.subscribe signal h =
      (e.check signal).map fun () =>
        e.withHandlers signal (Happening.turn signal (e.handlersOf signal) (.subscribed signal h)) := by
  rw [subscribe, Happening.turn, if_pos rfl]
  cases e.check signal <;> rfl

theorem cancel_eq (e : Emitter η) (signal : Text) (h : η) :
    e.cancel signal h =
      (e.check signal).map fun () =>
        e.withHandlers signal (Happening.turn signal (e.handlersOf signal) (.cancelled signal h)) := by
  rw [cancel, Happening.turn, if_pos rfl]
  cases e.check signal <;> rfl

end Changes

end Emitter

namespace Delivered

/-! ### What a journal tells of a sending -/

/-- What is told of the sending that is under way, up to its end; what it calls and what comes of that. Sendings that
are begun later are left out; `n` of them are not over yet. -/
def own : Nat → List (Happening η) → List (Happening η)
  | _, [] => []
  | n, .begun _ _ :: js => own (n + 1) js
  | n, .subscribed _ _ :: js => own n js
  | n, .cancelled _ _ :: js => own n js
  | 0, .ended r :: _ => [.ended r]
  | n + 1, .ended _ :: js => own n js
  | 0, .called h arguments :: js => .called h arguments :: own 0 js
  | n + 1, .called _ _ :: js => own (n + 1) js
  | 0, .left h r :: js => .left h r :: own 0 js
  | n + 1, .left _ _ :: js => own (n + 1) js

/-- How a sending goes to handlers: each is called in turn and comes to its end, up to the first one that fails, whose
failure is that of the sending. -/
inductive Course (arguments : List Value) : List η → List (Happening η) → Prop
  /-- All handlers have been called. -/
  | over : Course arguments [] [.ended (.ok ())]
  /-- A handler comes to its end, and it is the turn of the next one. -/
  | next {h : η} {hs : List η} {js : List (Happening η)} (hrest : Course arguments hs js) :
    Course arguments (h :: hs) (.called h arguments :: .left h (.ok ()) :: js)
  /-- A handler fails, and no other one is called. -/
  | fails (h : η) (hs : List η) (f : Failure) :
    Course arguments (h :: hs) [.called h arguments, .left h (.error f), .ended (.error f)]

/-- Nothing in the piece is told of the sending that is under way. -/
def Silent (js : List (Happening η)) : Prop := ∀ n more, own n (js ++ more) = own n more

/-- The piece belongs to the sending that is under way, and to those begun later. -/
def Inner (js : List (Happening η)) : Prop := ∀ n more, own (n + 1) (js ++ more) = own (n + 1) more

theorem Silent.append {js ks : List (Happening η)} (hj : Silent js) (hk : Silent ks) : Silent (js ++ ks) := by
  intro n more
  rw [List.append_assoc, hj, hk]

theorem Inner.append {js ks : List (Happening η)} (hj : Inner js) (hk : Inner ks) : Inner (js ++ ks) := by
  intro n more
  rw [List.append_assoc, hj, hk]

/-- A whole sending is not told of the one that it is begun in. -/
theorem Inner.silent_sending {js : List (Happening η)} (h : Inner js) (signal : Text) (arguments : List Value)
    (r : Except Failure Unit) : Silent (.begun signal arguments :: js ++ [.ended r]) := by
  intro n more
  rw [List.cons_append, List.cons_append, List.append_assoc, own, h]
  rfl

theorem own_call {body : List (Happening η)} (h : Silent body) (x : η) (arguments : List Value)
    (r : Except Failure Unit) (more : List (Happening η)) :
    own 0 (.called x arguments :: body ++ [.left x r] ++ more) = .called x arguments :: .left x r :: own 0 more := by
  rw [List.cons_append, List.cons_append, List.append_assoc, own, h]
  rfl

theorem inner_call {body : List (Happening η)} (h : Silent body) (x : η) (arguments : List Value)
    (r : Except Failure Unit) : Inner (.called x arguments :: body ++ [.left x r]) := by
  intro n more
  rw [List.cons_append, List.cons_append, List.append_assoc, own, h]
  rfl

/-! ### Pieces of the journal that are in order -/

section Accounts

variable [DecidableEq η]

/-- The handlers of a signal after some happenings. -/
def subscribers (signal : Text) (hs : List η) (js : List (Happening η)) : List η :=
  js.foldl (Happening.turn signal) hs

theorem subscribers_append (signal : Text) (hs : List η) (js ks : List (Happening η)) :
    subscribers signal hs (js ++ ks) = subscribers signal (subscribers signal hs js) ks :=
  List.foldl_append

/-- What has happened between two states of an emitter is in order. -/
structure Accounts (e : Emitter η) (js : List (Happening η)) (e' : Emitter η) : Prop where
  /-- The emitter is of the same kind. -/
  name : e'.name = e.name
  /-- It sends the same signals. -/
  declared : e'.declared = e.declared
  /-- The handlers are what has been subscribed and not been cancelled. -/
  handlers : ∀ signal, e'.handlersOf signal = subscribers signal (e.handlersOf signal) js
  /-- Only handlers of declared signals have changed. -/
  changed : ∀ x ∈ js, ∀ signal, x.Changes signal → signal ∈ e.declared
  /-- Each sending is one of a declared signal. It runs its course on the handlers that are subscribed when it begins,
  whatever happens after it. -/
  sendings : ∀ before signal arguments after, js = before ++ .begun signal arguments :: after →
    signal ∈ e.declared ∧
      ∀ more, Course arguments (subscribers signal (e.handlersOf signal) before) (own 0 (after ++ more))

variable {e e' e'' : Emitter η} {js ks : List (Happening η)}

theorem Accounts.nil (e : Emitter η) : Accounts e [] e where
  name := rfl
  declared := rfl
  handlers _ := rfl
  changed x hx := by cases hx
  sendings before signal arguments after h := by simp at h

/-- Pieces in a row are in order if each of them is. -/
theorem Accounts.append (hj : Accounts e js e') (hk : Accounts e' ks e'') : Accounts e (js ++ ks) e'' where
  name := hk.name.trans hj.name
  declared := hk.declared.trans hj.declared
  handlers signal := by rw [hk.handlers, hj.handlers, subscribers_append]
  changed x hx signal hsignal := by
    rcases List.mem_append.1 hx with hx | hx
    · exact hj.changed x hx signal hsignal
    · exact hj.declared ▸ hk.changed x hx signal hsignal
  sendings before signal arguments after h := by
    rcases List.append_eq_append_iff.1 h with ⟨before', rfl, hks⟩ | ⟨after', hjs, hafter⟩
    · obtain ⟨hmem, hcourse⟩ := hk.sendings before' signal arguments after hks
      refine ⟨hj.declared ▸ hmem, fun more => ?_⟩
      rw [subscribers_append]
      exact hj.handlers signal ▸ hcourse more
    · cases after' with
      | nil =>
        obtain ⟨hmem, hcourse⟩ := hk.sendings [] signal arguments after (by simpa using hafter.symm)
        refine ⟨hj.declared ▸ hmem, fun more => ?_⟩
        rw [List.append_nil] at hjs
        subst hjs
        exact hj.handlers signal ▸ hcourse more
      | cons x after' =>
        obtain ⟨rfl, rfl⟩ := List.cons.inj hafter
        obtain ⟨hmem, hcourse⟩ := hj.sendings before signal arguments after' hjs
        exact ⟨hmem, fun more => List.append_assoc .. ▸ hcourse (ks ++ more)⟩

theorem Accounts.single {x : Happening η} (hname : e'.name = e.name) (hdeclared : e'.declared = e.declared)
    (hhandlers : ∀ signal, e'.handlersOf signal = x.turn signal (e.handlersOf signal))
    (hchanged : ∀ signal, x.Changes signal → signal ∈ e.declared)
    (hbegun : ∀ signal arguments, x ≠ .begun signal arguments) : Accounts e [x] e' where
  name := hname
  declared := hdeclared
  handlers := hhandlers
  changed y hy := by rwa [List.mem_singleton.1 hy]
  sendings before signal arguments after h := by
    have hx : .begun signal arguments ∈ [x] := h ▸ List.mem_append_right before List.mem_cons_self
    exact absurd (List.mem_singleton.1 hx).symm (hbegun signal arguments)

/-- A change of the handlers of a declared signal is in order. -/
theorem Accounts.change {x : Happening η} {signal : Text} (hx : x.Changes signal) (hmem : signal ∈ e.declared) :
    Accounts e [x] (e.withHandlers signal (x.turn signal (e.handlersOf signal))) := by
  refine .single rfl rfl (fun other => ?_) (fun other hother => ?_) fun other arguments hbegun => ?_
  · rw [Emitter.handlersOf_withHandlers, Happening.turn_of_changes hx other]
    split_ifs with h
    · rw [h]
    · rfl
  · cases x with
    | subscribed | cancelled => exact hother ▸ hx ▸ hmem
    | _ => cases hx
  · rw [hbegun] at hx
    cases hx

/-- A sending is in order if what happens in it is and if it runs its course. -/
theorem Accounts.sending {signal : Text} {arguments : List Value} {r : Except Failure Unit}
    (hmem : signal ∈ e.declared) (hj : Accounts e js e')
    (hcourse : ∀ more, Course arguments (e.handlersOf signal) (own 0 (js ++ .ended r :: more))) :
    Accounts e (.begun signal arguments :: js ++ [.ended r]) e' where
  name := hj.name
  declared := hj.declared
  handlers other := by rw [subscribers_append, hj.handlers]; rfl
  changed x hx other hother := by
    rcases List.mem_append.1 hx with hx | hx
    · rcases List.mem_cons.1 hx with rfl | hx
      · cases hother
      · exact hj.changed x hx other hother
    · cases List.mem_singleton.1 hx
      cases hother
  sendings before other arguments' after h := by
    cases before with
    | nil =>
      cases h
      refine ⟨hmem, fun more => ?_⟩
      rw [show js.append [.ended r] ++ more = js ++ .ended r :: more from List.append_assoc ..]
      exact hcourse more
    | cons x before =>
      rw [List.cons_append, List.cons_append] at h
      obtain ⟨hx, hrest⟩ := List.cons.inj h
      subst hx
      have hend : Accounts e' [.ended r] e' := .single rfl rfl (fun _ => rfl) (fun _ h => h.elim) nofun
      exact (hj.append hend).sendings before other arguments' after hrest

end Accounts

/-! ### Steps of handlers -/

variable [DecidableEq η] {s t : Delivered η}

/-- From one state to another one only things in order have happened, and nothing is told of the sending under way. -/
def Fits (s t : Delivered η) : Prop :=
  ∃ js, t.journal = s.journal ++ js ∧ Accounts s.emitter js t.emitter ∧ Silent js

instance : IsPreorder (Delivered η) Fits where
  refl s := ⟨[], (List.append_nil _).symm, .nil _, fun _ _ => rfl⟩
  trans := by
    rintro s t u ⟨js, hjs, haccounts, hsilent⟩ ⟨ks, hks, haccounts', hsilent'⟩
    exact ⟨js ++ ks, by rw [hks, hjs, List.append_assoc], haccounts.append haccounts', hsilent.append hsilent'⟩

omit [DecidableEq η] in
/-- A step with a beginning and an end does what it does in between. -/
theorem perform_enclose (start : Happening η) (stop : Except Failure Unit → Happening η) (body : Delivery η Unit)
    (s : Delivered η) :
    perform (enclose start stop body) s =
      let p := perform body { s with journal := s.journal ++ [start] }
      (p.1, { p.2 with journal := p.2.journal ++ [stop p.1] }) := by
  unfold enclose note
  rw [perform_bind_ok (perform_modify _ s), perform_bind_ok (perform_lift _ _), perform_bind_ok (perform_modify _ _)]
  rcases perform body { s with journal := s.journal ++ [start] } with ⟨_ | _, t⟩ <;> rfl

omit [DecidableEq η] in
theorem perform_change (x : Happening η) (step : Emitter η → Except Failure (Emitter η)) (s : Delivered η) :
    perform (change x step) s =
      match step s.emitter with
      | .ok e => (.ok (), ⟨e, s.journal ++ [x]⟩)
      | .error f => (.error f, s) := by
  unfold change
  rw [perform_bind_ok (perform_get s)]
  cases step s.emitter <;> rfl

omit [DecidableEq η] in
theorem silent_change {x : Happening η} {signal : Text} (hx : x.Changes signal) : Silent [x] := by
  intro n more
  cases x with
  | subscribed | cancelled => rw [List.singleton_append, own]
  | _ => cases hx

section Changes

variable {x : Happening η} {step : Emitter η → Except Failure (Emitter η)} {signal : Text}
  (hstep : ∀ e, step e = (e.check signal).map fun () => e.withHandlers signal (x.turn signal (e.handlersOf signal)))

include hstep

theorem perform_change_of_mem (hmem : signal ∈ s.emitter.declared) :
    perform (change x step) s =
      (.ok (), ⟨s.emitter.withHandlers signal (x.turn signal (s.emitter.handlersOf signal)), s.journal ++ [x]⟩) := by
  rw [perform_change, hstep, Emitter.check_of_mem hmem]
  rfl

theorem perform_change_refused (hmem : signal ∉ s.emitter.declared) :
    ∃ message, perform (change x step) s = (.error (.plain .value message), s) := by
  obtain ⟨message, hf⟩ := Emitter.check_of_not_mem hmem
  refine ⟨message, ?_⟩
  rw [perform_change, hstep, hf]
  rfl

/-- **Subscribing and cancelling** are in order. -/
theorem fits_change (hx : x.Changes signal) : Leads Fits (change x step) := by
  intro s
  by_cases hmem : signal ∈ s.emitter.declared
  · rw [perform_change_of_mem hstep hmem]
    exact ⟨[x], rfl, .change hx hmem, silent_change hx⟩
  · obtain ⟨message, hp⟩ := perform_change_refused hstep hmem
    rw [hp]
    exact refl_of Fits s

end Changes

/-- What a handler does is in order if the sendings that it begins are. -/
theorem fits_react {send : Text → List Value → Delivery η Unit}
    (hsend : ∀ signal arguments, Leads Fits (send signal arguments)) (r : Reaction η) : Leads Fits (react send r) := by
  induction r with
  | fail f => exact Leads.throw f
  | subscribe signal h => exact fits_change (fun e => e.subscribe_eq signal h) rfl
  | cancel signal h => exact fits_change (fun e => e.cancel_eq signal h) rfl
  | send signal arguments => exact hsend signal arguments
  | count signal => exact Leads.pure ()
  | attempt first next ihfirst ihnext =>
    refine Leads.bind ihfirst.lift fun outcome => Leads.get_bind fun s => ?_
    exact ihnext outcome s s

variable (behaviour : Behaviour η) {send : Text → List Value → Delivery η Unit}

/-- **A call of a handler** is in order, and of what happens in it nothing else is told of the sending under way. -/
theorem perform_call (hsend : ∀ signal arguments, Leads Fits (send signal arguments)) (arguments : List Value) (h : η)
    (s : Delivered η) :
    let p := perform (call behaviour send arguments h) s
    ∃ body, p.2.journal = s.journal ++ (.called h arguments :: body ++ [.left h p.1]) ∧ Silent body ∧
      Accounts s.emitter (.called h arguments :: body ++ [.left h p.1]) p.2.emitter := by
  intro p
  have hp : p = perform (call behaviour send arguments h) s := rfl
  rw [call, perform_enclose] at hp
  obtain ⟨body, hjournal, haccounts, hsilent⟩ : Fits _ _ :=
    Leads.get_bind (fun s => Leads.forM (fits_react hsend) (behaviour s.calls) s)
      { s with journal := s.journal ++ [.called h arguments] }
  have hcalled : Accounts s.emitter [.called h arguments] s.emitter :=
    .single rfl rfl (fun _ => rfl) (fun _ h => h.elim) nofun
  have hleft : Accounts p.2.emitter [.left h p.1] p.2.emitter :=
    .single rfl rfl (fun _ => rfl) (fun _ h => h.elim) nofun
  refine ⟨body, ?_, hsilent, ?_⟩
  · rw [hp]
    dsimp only
    rw [hjournal]
    simp
  · rw [hp] at hleft ⊢
    exact (hcalled.append haccounts).append hleft

/-- **The calls of a sending**: the handlers are called in turn, up to the first one that fails. -/
theorem perform_handlers (hsend : ∀ signal arguments, Leads Fits (send signal arguments)) (arguments : List Value)
    (hs : List η) (s : Delivered η) :
    let p := perform (hs.forM (call behaviour send arguments)) s
    ∃ js shown, p.2.journal = s.journal ++ js ∧ Accounts s.emitter js p.2.emitter ∧ Inner js ∧
      (∀ more, own 0 (js ++ more) = shown ++ own 0 more) ∧ Course arguments hs (shown ++ [.ended p.1]) := by
  induction hs generalizing s with
  | nil => exact ⟨[], [], (List.append_nil _).symm, .nil _, fun _ _ => rfl, fun _ => rfl, .over⟩
  | cons h hs ih =>
    obtain ⟨body, hjournal, hsilent, haccounts⟩ := perform_call behaviour hsend arguments h s
    intro p
    rcases hc : perform (call behaviour send arguments h) s with ⟨f | u, t⟩
    · have hp : p = (.error f, t) := by
        show perform (call behaviour send arguments h >>= fun _ => hs.forM (call behaviour send arguments)) s = _
        rw [perform_bind, hc]
      rw [hc] at hjournal haccounts
      rw [hp]
      exact ⟨_, [.called h arguments, .left h (.error f)], hjournal, haccounts, inner_call hsilent _ _ _,
        own_call hsilent _ _ _, .fails h hs f⟩
    · have hp : p = perform (hs.forM (call behaviour send arguments)) t := perform_bind_ok hc
      obtain ⟨js, shown, hjournal', haccounts', hinner, hshown, hcourse⟩ := ih t
      rw [hc] at hjournal haccounts
      rw [hp]
      refine ⟨_, .called h arguments :: .left h (.ok ()) :: shown, ?_, haccounts.append haccounts',
        (inner_call hsilent _ _ _).append hinner, fun more => ?_, .next hcourse⟩
      · rw [hjournal', hjournal, List.append_assoc]
      · rw [List.append_assoc, own_call hsilent, hshown]
        rfl

theorem perform_send_refused {signal : Text} (hmem : signal ∉ s.emitter.declared) (depth : Nat)
    (arguments : List Value) :
    ∃ message,
      perform (Delivered.send behaviour (depth + 1) signal arguments) s = (.error (.plain .value message), s) := by
  obtain ⟨message, hf⟩ := Emitter.check_of_not_mem hmem
  refine ⟨message, ?_⟩
  rw [Delivered.send, perform_bind_ok (perform_get s), hf]
  rfl

/-- **A sending** is told with its beginning and its end, and runs its course in between. -/
theorem perform_send {depth : Nat}
    (hsend : ∀ signal arguments, Leads Fits (Delivered.send behaviour depth signal arguments)) {signal : Text}
    (hmem : signal ∈ s.emitter.declared) (arguments : List Value) :
    let p := perform (Delivered.send behaviour (depth + 1) signal arguments) s
    ∃ js, p.2.journal = s.journal ++ (.begun signal arguments :: js ++ [.ended p.1]) ∧
      Accounts s.emitter js p.2.emitter ∧ Inner js ∧ (∀ more, own 0 (js ++ more) = own 0 js ++ own 0 more) ∧
      Course arguments (s.emitter.handlersOf signal) (own 0 js ++ [.ended p.1]) := by
  intro p
  have hp : p = perform (Delivered.send behaviour (depth + 1) signal arguments) s := rfl
  rw [Delivered.send, perform_bind_ok (perform_get s), Emitter.check_of_mem hmem] at hp
  dsimp only at hp
  rw [perform_enclose] at hp
  obtain ⟨js, shown, hjournal, haccounts, hinner, hshown, hcourse⟩ :=
    perform_handlers behaviour hsend arguments (s.emitter.handlersOf signal)
      { s with journal := s.journal ++ [.begun signal arguments] }
  have hown : own 0 js = shown := by simpa [own] using hshown []
  subst hown
  rw [hp]
  refine ⟨js, ?_, haccounts, hinner, hshown, hcourse⟩
  dsimp only
  rw [hjournal]
  simp

/-- **Sendings are in order**, however deep handlers send signals in turn. -/
theorem fits_send (depth : Nat) (signal : Text) (arguments : List Value) :
    Leads Fits (Delivered.send behaviour depth signal arguments) := by
  induction depth generalizing signal arguments with
  | zero => exact Leads.throw tooDeep
  | succ depth ih =>
    intro s
    by_cases hmem : signal ∈ s.emitter.declared
    · obtain ⟨js, hjournal, haccounts, hinner, hown, hcourse⟩ := perform_send behaviour ih hmem arguments
      refine ⟨_, hjournal, .sending hmem haccounts fun more => ?_, hinner.silent_sending _ _ _⟩
      rw [hown, own]
      exact hcourse
    · obtain ⟨message, hp⟩ := perform_send_refused behaviour hmem depth arguments
      rw [hp]
      exact refl_of Fits s

/-! ### What can be asked of an emitter -/

/-- Of some handlers the earliest that is a given one is left out, if there is one. -/
inductive Without (h : η) : List η → List η → Prop
  /-- There is none. -/
  | none {hs : List η} (hnone : h ∉ hs) : Without h hs hs
  /-- There is one. -/
  | earliest {before after : List η} (hbefore : h ∉ before) : Without h (before ++ h :: after) (before ++ after)

theorem without_erase (h : η) (hs : List η) : Without h hs (hs.erase h) := by
  by_cases hmem : h ∈ hs
  · obtain ⟨before, after, hbefore, hhs, herase⟩ := List.exists_erase_eq hmem
    rw [herase, hhs]
    exact .earliest hbefore
  · rw [List.erase_of_not_mem hmem]
    exact .none hmem

/-- **A signal is delivered to the handlers of the moment.** Take an emitter in any state, handlers that do whatever
they do, and a caller that does whatever it does. All sendings, also those begun by handlers, run their course on the
handlers that are subscribed as they begin: what is subscribed or cancelled later makes no difference to them. What the
caller sends itself comes to the same end as that course. To subscribe puts a handler behind all others of the signal,
to cancel leaves the earliest subscription of a handler out, if there is one, and neither does anything else. A signal
that is not declared is refused, with a failure of its value, and nothing changes. Handlers may send signals in turn to
any depth that is given beforehand; deeper down a sending fails before it begins. -/
theorem snapshot_delivery (behaviour : Behaviour η) (depth : Nat) (s : Delivered η) :
    let run (r : Reaction η) := perform (react (Delivered.send behaviour (depth + 1)) r) s
    (∀ r, ∃ js, (run r).2.journal = s.journal ++ js ∧ Accounts s.emitter js (run r).2.emitter) ∧
      (∀ signal ∈ s.emitter.declared, ∀ arguments,
        let p := run (.send signal arguments)
        ∃ js, p.2.journal = s.journal ++ (.begun signal arguments :: js ++ [.ended p.1]) ∧
          Course arguments (s.emitter.handlersOf signal) (own 0 js ++ [.ended p.1])) ∧
      (∀ signal ∈ s.emitter.declared, ∀ h,
        run (.subscribe signal h) =
          (.ok (), ⟨s.emitter.withHandlers signal (s.emitter.handlersOf signal ++ [h]),
            s.journal ++ [.subscribed signal h]⟩)) ∧
      (∀ signal ∈ s.emitter.declared, ∀ h, ∃ hs, Without h (s.emitter.handlersOf signal) hs ∧
        run (.cancel signal h) = (.ok (), ⟨s.emitter.withHandlers signal hs, s.journal ++ [.cancelled signal h]⟩)) ∧
      ∀ signal ∉ s.emitter.declared, ∀ h arguments,
        ∀ r ∈ [Reaction.subscribe signal h, .cancel signal h, .send signal arguments],
          ∃ message, run r = (.error (.plain .value message), s) := by
  intro run
  refine ⟨fun r => ?_, fun signal hmem arguments => ?_, fun signal hmem h => ?_, fun signal hmem h => ?_,
    fun signal hmem h arguments r hr => ?_⟩
  · obtain ⟨js, hjournal, haccounts, -⟩ := fits_react (fits_send behaviour (depth + 1)) r s
    exact ⟨js, hjournal, haccounts⟩
  · obtain ⟨js, hjournal, -, -, -, hcourse⟩ := perform_send behaviour (fits_send behaviour depth) hmem arguments
    exact ⟨js, hjournal, hcourse⟩
  · have hp := perform_change_of_mem (fun e => e.subscribe_eq signal h) hmem
    rwa [Happening.turn, if_pos rfl] at hp
  · refine ⟨_, without_erase h _, ?_⟩
    have hp := perform_change_of_mem (fun e => e.cancel_eq signal h) hmem
    rwa [Happening.turn, if_pos rfl] at hp
  · simp only [List.mem_cons, List.not_mem_nil, or_false] at hr
    rcases hr with rfl | rfl | rfl
    · exact perform_change_refused (fun e => e.subscribe_eq signal h) hmem
    · exact perform_change_refused (fun e => e.cancel_eq signal h) hmem
    · exact perform_send_refused behaviour hmem depth arguments

/-- The first call of the first handler subscribes a third one, cancels the second one and sends the signal again. -/
def chatter : Behaviour Nat
  | [_] => [.subscribe "tick" 3, .cancel "tick" 2, .send "tick" []]
  | _ => []

theorem snapshot_delivery_nested :
    let s : Delivered Nat := ⟨⟨"Ticker", ["tick"], [("tick", [1, 2])]⟩, []⟩
    let p := perform (react (Delivered.send chatter 2) (.send "tick" [])) s
    p.2.calls.map (·.1) = [1, 1, 3, 2] ∧ p.2.emitter.handlersOf "tick" = [1, 3] ∧
      ∃ js, p.2.journal = .begun "tick" [] :: js ++ [.ended p.1] ∧ Course [] [1, 2] (own 0 js ++ [.ended p.1]) := by
  intro s p
  exact ⟨by decide +kernel, by decide +kernel, (snapshot_delivery chatter 1 s).2.1 "tick" (by decide) []⟩

end Delivered

end EventPipeline
