import Epoller.TcpStream.ArmedMask

/-!
# One Wake-Up at a Time

`writeTriggered` of an accepted stream is a token. `queueWrite` makes it and hands
it to an event; `handleWrite` takes it from the event, and hands it to the egress
timer when the stream is too fast; the timer hands it to `asyncEgress` and that to
an event again. `EPOLLOUT` is never armed for such a stream.

## Contents

- `wakeUps`: the wake-ups that are outstanding
- `OneWakeUp`: there is at most one, and `writeTriggered` tells of it
- `Limited.step`: every step passes the token on
- `oneWakeUp_of_run`: every state that a run reaches has one wake-up or none
-/

namespace Epoller

open Foundation

/-! ## Wake-Ups -/

/-- An `EPOLLOUT` event, or the event of the egress timer -/
def StreamEvent.isWakeUp : StreamEvent → Bool
  | run events => events.out
  | egress => true
  | notifyWriteComplete | activity => false

/-- A worker that has taken an `EPOLLOUT` event and not called `handleWrite` yet, or runs
`asyncEgress` -/
def Handler.isWakeUp : Handler → Bool
  | entered events | write events => events.out
  | egress => true
  | read _ | finish _ | rearm _ | notifyWriteComplete | activity => false

/-- A call that queues an `EPOLLOUT` event or sets the egress timer -/
def EngineCall.isWakeUp : EngineCall → Bool
  | setEgress _ | triggerWrites => true
  | setActivity | runWriteComplete => false

theorem StreamEvent.isWakeUp_handler (event : StreamEvent) :
    event.handler.isWakeUp = event.isWakeUp := by
  cases event <;> rfl

/-! ## The Calls of `handleWrite` -/

namespace TcpStream

variable {start : TimePointNs} {ws : List WriteCall} {p p' : Progress}

/-- The loop has called for no wake-up yet. -/
structure Progress.Quiet (p : Progress) : Prop where
  calls : p.calls.countP EngineCall.isWakeUp = 0
  triggered : p.stream.writeTriggered = false

/-- As many wake-ups are called for as `writeTriggered` tells of. -/
def Progress.Told (p : Progress) : Prop :=
  p.calls.countP EngineCall.isWakeUp ≤ p.stream.writeTriggered.toNat

theorem Progress.Quiet.told (h : p.Quiet) : p.Told := by
  rw [Told, h.calls]
  exact Nat.zero_le _

theorem writeOnce_told (start : TimePointNs) (w : WriteCall) (data : Bytes) (rest : List Bytes)
    (h : p.Quiet) : (writeOnce start w data rest p).1.Told ∧
      ((writeOnce start w data rest p).2 = true → (writeOnce start w data rest p).1.Quiet) := by
  have hsent : (p.calls ++ [EngineCall.setActivity]).countP EngineCall.isWakeUp = 0 := by
    rw [List.countP_append, h.calls]
    rfl
  simp only [writeOnce]
  split
  · split
    · -- the timer is set and the token made
      refine ⟨?_, fun hgo => (by cases hgo)⟩
      rw [Progress.Told, List.countP_append, hsent]
      exact le_refl 1
    · have hquiet : Progress.Quiet
          { stream := { p.stream with
              writeQueue := if w.actuallySent.toNat ≠ data.length then
                data.drop w.actuallySent.toNat :: rest else rest }
            totalWritten := p.totalWritten + w.actuallySent.toNat
            wire := p.wire ++ data.take w.actuallySent.toNat
            calls := p.calls ++ [.setActivity] } := ⟨hsent, h.triggered⟩
      exact ⟨hquiet.told, fun _ => hquiet⟩
  · split
    · have hquiet : Progress.Quiet
          { p with stream := { p.stream with writeQueue := data :: rest, blocked := true } } :=
        ⟨h.calls, h.triggered⟩
      exact ⟨hquiet.told, fun _ => hquiet⟩
    · have hquiet : Progress.Quiet { p with stream := { p.stream with writeQueue := rest } } :=
        ⟨h.calls, h.triggered⟩
      exact ⟨hquiet.told, fun _ => hquiet⟩

theorem writeLoop_told (h : p.Quiet) (hloop : writeLoop start ws p = .ok p') : p'.Told := by
  -- only the last round makes the token
  induction ws generalizing p with
  | nil =>
    obtain ⟨-, rfl⟩ := writeLoop_nil hloop
    exact h.told
  | cons w ws ih =>
    obtain ⟨data, rest, -, -, hloop⟩ := writeLoop_cons hloop
    obtain ⟨htold, hquiet⟩ := writeOnce_told start w data rest h
    rcases hloop with ⟨p₁, heq, hloop⟩ | ⟨heq, -⟩
    · rw [heq] at hquiet
      exact ih (hquiet rfl) hloop
    · rw [heq] at htold
      exact htold

theorem writeLoop_error {e : StreamHalt} (h : writeLoop start ws p = .error e) : e = .disabled := by
  induction ws generalizing p with
  | nil =>
    simp only [writeLoop] at h
    split at h <;> cases h
    rfl
  | cons w ws ih =>
    cases hqueue : p.stream.writeQueue with
    | nil =>
      simp only [writeLoop, hqueue] at h
      cases h
      rfl
    | cons data rest =>
      simp only [writeLoop, hqueue] at h
      split at h
      · split at h
        · exact ih h
        · split at h <;> cases h
          rfl
      · cases h
        rfl

/-- `handleWrite` asserts nothing. -/
theorem handleWrite_error {s : TcpStream} {e : StreamHalt} (h : s.handleWrite start ws = .error e) :
    e = .disabled := by
  simp only [handleWrite] at h
  split at h
  · cases hloop : writeLoop start ws
        ⟨{ s with writeTriggered := false, blocked := false }, 0, [], []⟩ with
    | error e' =>
      rw [hloop] at h
      cases h
      exact writeLoop_error hloop
    | ok p =>
      rw [hloop] at h
      simp only [ok_bind] at h
      split at h <;> cases h
  · split at h
    · split at h <;> cases h
    · cases h
      rfl

/-- **`handleWrite`** calls for at most one wake-up, and only with `writeTriggered` set. -/
theorem handleWrite_told {s : TcpStream} (h : s.handleWrite start ws = .ok p) : p.Told := by
  simp only [handleWrite] at h
  split at h
  · obtain ⟨p₁, hloop, h⟩ := bind_eq_ok_iff.mp h
    have htold := writeLoop_told ⟨rfl, rfl⟩ hloop
    split at h <;> cases h
    · -- the completion event is no wake-up
      rw [Progress.Told, List.countP_append]
      exact htold
    · exact htold
  · split at h
    · split at h <;> cases h
      · exact le_refl 1
      · exact Nat.zero_le _
    · cases h

end TcpStream

/-! ## The Wake-Ups of a Stream -/

namespace StreamSystem

/-- The wake-ups that are outstanding: `EPOLLOUT` events that are queued or taken by a worker and
not handled yet, the egress timer, and events of that timer that are queued or running. -/
def wakeUps (s : StreamSystem) : ℕ :=
  s.eventQueue.countP StreamEvent.isWakeUp + s.handlers.countP Handler.isWakeUp +
    s.egressTimer.toNat

/-- At most one wake-up is outstanding, none without `writeTriggered`, and the assertion of
`asyncEgress` holds. -/
structure OneWakeUp (s : StreamSystem) : Prop where
  atMostOne : s.wakeUps ≤ 1
  noneUnlessTriggered : s.stream.writeTriggered ≠ true → s.wakeUps = 0
  asserted : ∀ l, s.step l ≠ .error .notTriggered

variable {s s' : StreamSystem}

/-- Nothing has happened to the stream before `create` gives it its rate. -/
structure Unaccepted (s : StreamSystem) : Prop where
  kind : s.kind = .accepted
  stage : s.stage = .attached
  connected : s.stream.connected = false
  triggered : s.stream.writeTriggered = false
  eventQueue : s.eventQueue = []
  handlers : s.handlers = []
  armed : s.armed = none
  report : s.report = none
  activityTimer : s.activityTimer = false
  egressTimer : s.egressTimer = false

/-- An accepted stream has a rate, and `EPOLLOUT` is never armed or reported. -/
structure NoEpollOut (s : StreamSystem) : Prop where
  kind : s.kind = .accepted
  connected : s.stream.connected = true
  rate : s.stream.egressRate ≠ 0
  armed : s.armed ≠ some true
  report : ∀ events, s.report = some events → events.out = false
  rearm : .rearm true ∉ s.handlers

/-- **The invariant** of an accepted stream -/
structure Limited (s : StreamSystem) : Prop extends NoEpollOut s where
  token : s.wakeUps ≤ s.stream.writeTriggered.toNat

theorem wakeUps_addEvent (event : StreamEvent) :
    { s with eventQueue := s.eventQueue ++ [event] }.wakeUps =
      s.wakeUps + event.isWakeUp.toNat := by
  have hcount : (s.eventQueue ++ [event]).countP StreamEvent.isWakeUp =
      s.eventQueue.countP StreamEvent.isWakeUp + event.isWakeUp.toNat := by
    rw [List.countP_append, List.countP_singleton]
    cases event.isWakeUp <;> rfl
  simp only [wakeUps, hcount]
  omega

theorem wakeUps_newEvent_le (s : StreamSystem) (events : EpollEvents) :
    (s.newEvent events).wakeUps ≤ s.wakeUps + events.out.toNat := by
  unfold newEvent
  split
  · exact (wakeUps_addEvent (.run events)).le
  · exact Nat.le_add_right ..

/-- A call into the engine hands on as many wake-ups as it calls for. -/
theorem wakeUps_engineCall_le (s : StreamSystem) (call : EngineCall) :
    (s.engineCall call).wakeUps ≤ s.wakeUps + call.isWakeUp.toNat := by
  cases call with
  | setActivity => exact le_refl _
  | setEgress delay =>
    simp only [engineCall, wakeUps, EngineCall.isWakeUp, Bool.toNat_true]
    omega
  | triggerWrites => exact wakeUps_newEvent_le s _
  | runWriteComplete => exact (wakeUps_addEvent .notifyWriteComplete).le

theorem wakeUps_engineCalls_le (s : StreamSystem) (calls : List EngineCall) :
    (s.engineCalls calls).wakeUps ≤ s.wakeUps + calls.countP EngineCall.isWakeUp := by
  -- in the order in which the calls are made
  induction calls generalizing s with
  | nil => exact le_refl _
  | cons call calls ih =>
    have hcall := wakeUps_engineCall_le s call
    have hcalls := ih (s.engineCall call)
    have hcount : (call :: calls).countP EngineCall.isWakeUp =
        calls.countP EngineCall.isWakeUp + call.isWakeUp.toNat := by
      rw [List.countP_cons]
      cases call.isWakeUp <;> rfl
    change ((s.engineCall call).engineCalls calls).wakeUps ≤ _
    omega

/-- A worker that goes on hands its wake-up on, or uses it up. -/
theorem wakeUps_advance {h : Handler} {next : Option Handler} (hmem : h ∈ s.handlers) :
    (s.advance h next).wakeUps + h.isWakeUp.toNat =
      s.wakeUps + next.toList.countP Handler.isWakeUp := by
  have hcount := (List.perm_cons_erase hmem).countP_eq Handler.isWakeUp
  simp only [advance, wakeUps, List.countP_append]
  rw [List.countP_cons] at hcount
  cases hwake : h.isWakeUp <;> simp [hwake] at hcount ⊢ <;> omega

/-- `disconnect` stops the timers, and queues nothing. -/
theorem wakeUps_disconnect_le (hdone : s.disconnect = .ok s') : s'.wakeUps ≤ s.wakeUps := by
  have hd := disconnects_of_disconnect hdone
  have htimer : s'.egressTimer.toNat ≤ s.egressTimer.toNat := by
    rcases disconnect_cases hdone with ⟨-, rfl⟩ | ⟨-, -, rfl⟩ | ⟨-, rfl⟩
    · exact le_refl _
    · exact Nat.zero_le _
    · exact le_refl _
  rw [wakeUps, hd.eventQueue, hd.handlers]
  exact Nat.add_le_add_left htimer _

theorem disconnect_stream (hdone : s.disconnect = .ok s') :
    s'.stream.connected = s.stream.connected ∧ s'.stream.egressRate = s.stream.egressRate ∧
      s'.stream.writeTriggered = s.stream.writeTriggered := by
  rcases disconnect_cases hdone with ⟨-, rfl⟩ | ⟨-, -, rfl⟩ | ⟨-, rfl⟩
  all_goals exact ⟨rfl, rfl, rfl⟩

/-! ## Steps -/

/-- `EPOLLOUT` is never asked for. -/
theorem NoEpollOut.waitingOutEvent (h : NoEpollOut s) : s.stream.waitingOutEvent = false := by
  rw [← Bool.not_eq_true, TcpStream.waitingOutEvent_eq_true_iff]
  rintro ⟨-, -, hconnecting | hrate⟩
  · exact absurd (h.connected.symm.trans hconnecting) (by decide)
  · exact h.rate hrate

theorem NoEpollOut.advance (h : NoEpollOut s) {x : Handler} {next : Option Handler}
    (hnext : next ≠ some (.rearm true)) : NoEpollOut (s.advance x next) :=
  { h with rearm := fun hmem => (mem_advance hmem).elim hnext h.rearm }

theorem Grows.noEpollOut (h : Grows s s') (hs : NoEpollOut s) : NoEpollOut s' where
  kind := h.kind.trans hs.kind
  connected := h.stream ▸ hs.connected
  rate := h.stream ▸ hs.rate
  armed := h.armed ▸ hs.armed
  report := h.report ▸ hs.report
  rearm := h.handlers ▸ hs.rearm

/-- A worker that goes on and hands on no more than it had -/
theorem Limited.advance (h : Limited s) {x : Handler} {next : Option Handler}
    (hmem : x ∈ s.handlers) (hnext : next ≠ some (.rearm true))
    (hwake : next.toList.countP Handler.isWakeUp ≤ x.isWakeUp.toNat) :
    Limited (s.advance x next) := by
  have hcount : (s.advance x next).wakeUps + _ = _ := wakeUps_advance hmem
  have htoken := h.token
  exact ⟨h.toNoEpollOut.advance hnext, show _ ≤ s.stream.writeTriggered.toNat by omega⟩

theorem Limited.disconnect (h : Limited s) (hdone : s.disconnect = .ok s') : Limited s' := by
  have hd := disconnects_of_disconnect hdone
  obtain ⟨hconnected, hrate, htriggered⟩ := disconnect_stream hdone
  refine ⟨⟨hd.kind.trans h.kind, hconnected.trans h.connected, hrate ▸ h.rate, hd.armed ▸ h.armed,
    hd.report ▸ h.report, hd.handlers ▸ h.rearm⟩, ?_⟩
  rw [htriggered]
  exact (wakeUps_disconnect_le hdone).trans h.token

/-- Calls into the engine that the token covers -/
theorem NoEpollOut.engineCalls (h : NoEpollOut s) (calls : List EngineCall)
    (htoken : s.wakeUps + calls.countP EngineCall.isWakeUp ≤ s.stream.writeTriggered.toNat) :
    Limited (s.engineCalls calls) := by
  have hgrows := engineCalls_grows s calls
  refine ⟨hgrows.noEpollOut h, ?_⟩
  rw [hgrows.stream]
  exact (wakeUps_engineCalls_le s calls).trans htoken

/-- `queueWrite` makes the token if there is none. -/
theorem Limited.queueWrite (h : Limited s) (data : Bytes) :
    Limited ({ s with stream := (s.stream.queueWrite data).1 }.engineCalls
      (s.stream.queueWrite data).2) := by
  rcases queueWrite_cases s.stream data with ⟨heq, -⟩ | ⟨heq, -⟩ | ⟨heq, -, hnone⟩
  · rw [heq]
    exact h
  · rw [heq]
    exact { h with }
  -- `writeTriggered` was false, so no wake-up is outstanding and there is room for one
  · have hzero : s.wakeUps = 0 := by
      have htoken := h.token
      rw [hnone] at htoken
      exact Nat.eq_zero_of_le_zero htoken
    let stream : TcpStream :=
      { s.stream with writeQueue := s.stream.writeQueue ++ [data], writeTriggered := true }
    have hlimited : NoEpollOut { s with stream } := { h with }
    rw [heq]
    refine hlimited.engineCalls _ ?_
    change s.wakeUps + 1 ≤ 1
    rw [hzero]

/-- `handleWrite` takes the token of its event, and makes a new one for the timer. -/
theorem Limited.write (h : Limited s) {events : EpollEvents} {start : TimePointNs}
    {ws : List WriteCall} {p : TcpStream.Progress} (hmem : .write events ∈ s.handlers)
    (hout : events.out = true) (hp : s.stream.handleWrite start ws = .ok p) :
    Limited ({ s.advance (.write events) (some (.read events)) with
      stream := p.stream }.engineCalls p.calls) := by
  obtain ⟨hconnected, -, hrate⟩ := TcpStream.handleWrite_link hp
  let s₁ := s.advance (.write events) (some (.read events))
  have hcount : s₁.wakeUps + events.out.toNat = s.wakeUps := wakeUps_advance hmem
  -- the event of this call was the only wake-up
  have hused : s₁.wakeUps = 0 := by
    have htoken := h.token
    have hone := Bool.toNat_le s.stream.writeTriggered
    rw [hout, Bool.toNat_true] at hcount
    omega
  have hs₁ : NoEpollOut s₁ := h.toNoEpollOut.advance (by simp)
  have hlimited : NoEpollOut { s₁ with stream := p.stream } :=
    { hs₁ with connected := hconnected, rate := hrate ▸ h.rate }
  refine hlimited.engineCalls _ ?_
  change s₁.wakeUps + _ ≤ _
  rw [hused, Nat.zero_add]
  exact TcpStream.handleWrite_told hp

/-- **Step**: every step passes the token on. -/
theorem Limited.step {l : StreamStep} (h : Limited s) (hstep : s.step l = .ok s') :
    Limited s' := by
  cases moves_of_step hstep with
  | accept =>
    have hwake := wakeUps_addEvent (s := s) .notifyWriteComplete
    exact ⟨{ h with connected := rfl, rate := fun hrate => (by cases hrate) },
      hwake.le.trans h.token⟩
  | connect hkind | abandon hkind => exact absurd (h.kind.symm.trans hkind) (by decide)
  | add =>
    -- the mask is `waitingOutEvent`, which the rate keeps false
    refine ⟨{ h with armed := fun harmed => ?_ }, h.token⟩
    exact absurd (h.waitingOutEvent.symm.trans (Option.some.inj harmed)) (by decide)
  | queueWrite data => exact h.queueWrite data
  | disconnect hdone => exact h.disconnect hdone
  | expireActivity =>
    exact ⟨{ h with }, (wakeUps_addEvent (s := s) .activity).le.trans h.token⟩
  | expireEgress htimer =>
    -- the timer hands the token to its event
    have hwake := wakeUps_addEvent (s := { s with egressTimer := false }) .egress
    refine ⟨{ h with }, hwake.le.trans (le_trans ?_ h.token)⟩
    simp [wakeUps, htimer, StreamEvent.isWakeUp]
  | report _ _ hout =>
    -- epoll reports only what it was armed for
    refine ⟨{ h with armed := fun harmed => (by cases harmed), report := fun events heq => ?_ },
      h.token⟩
    cases heq
    exact Bool.eq_false_of_not_eq_true fun htrue => h.armed (hout htrue)
  | @newEvent events hreport =>
    have hgrows := newEvent_grows { s with report := none } events
    have hwake := wakeUps_newEvent_le { s with report := none } events
    have hnone : NoEpollOut { s with report := none } :=
      { h with report := fun _ heq => (by cases heq) }
    rw [h.report events hreport] at hwake
    refine ⟨hgrows.noEpollOut hnone, ?_⟩
    rw [hgrows.stream]
    exact hwake.trans h.token
  | @pop event rest hqueue =>
    refine ⟨{ h with rearm := fun hmem => ?_ }, le_trans (le_of_eq ?_) h.token⟩
    · rcases List.mem_cons.mp hmem with heq | hmem
      · cases event <;> cases heq
      · exact h.rearm hmem
    · simp only [wakeUps, hqueue, List.countP_cons, StreamEvent.isWakeUp_handler]
      omega
  | @check events hmem =>
    refine h.advance hmem ?_ ?_
    · split <;> simp
    · split
      · cases hout : events.out <;> simp [Handler.isWakeUp, hout]
      · exact Nat.zero_le _
  | write hmem hout hp => exact h.write hmem hout hp
  | skipWrite hmem => exact h.advance hmem (by simp) (Nat.zero_le _)
  | @read events _ hmem =>
    have hread : Limited (s.advance (.read events) (some (.finish events))) :=
      h.advance hmem (by simp) (Nat.zero_le _)
    exact ⟨{ hread with }, hread.token⟩
  | finish hmem =>
    refine h.advance hmem ?_ (Nat.zero_le _)
    rw [h.waitingOutEvent]
    simp
  | handleError hmem _ hdone => exact (h.advance hmem (by simp) (Nat.zero_le _)).disconnect hdone
  | @rearm needOut hmem =>
    have hdone : Limited (s.advance (.rearm needOut) none) :=
      h.advance hmem (by simp) (Nat.zero_le _)
    refine ⟨{ hdone with armed := fun harmed => ?_ }, hdone.token⟩
    change (if s.registered = true then some needOut else s.armed) = some true at harmed
    split at harmed
    · cases Option.some.inj harmed
      exact h.rearm hmem
    · exact h.armed harmed
  | asyncWriteComplete hmem => exact h.advance hmem (by simp) (Nat.zero_le _)
  | asyncDisconnect hmem hdone =>
    exact (h.advance hmem (by simp) (Nat.zero_le _)).disconnect hdone
  | asyncEgress hmem =>
    -- the event of the timer hands the token to an `EPOLLOUT` event
    have hcount : (s.advance .egress none).wakeUps + 1 = s.wakeUps := wakeUps_advance hmem
    have hdone : NoEpollOut (s.advance .egress none) := h.toNoEpollOut.advance (by simp)
    refine hdone.engineCalls [.triggerWrites] ?_
    exact hcount.le.trans h.token

/-- Before `create` gives the stream its rate nothing wakes it up. -/
theorem Unaccepted.step {l : StreamStep} (h : Unaccepted s) (hstep : s.step l = .ok s') :
    Unaccepted s' ∨ Limited s' := by
  have hnobody : ∀ {x : Handler}, x ∉ s.handlers := fun hmem => by
    rw [h.handlers] at hmem
    cases hmem
  cases moves_of_step hstep with
  | accept =>
    -- `create` gives the stream its rate and queues an event that is no wake-up
    refine Or.inr ⟨⟨h.kind, rfl, fun hrate => (by cases hrate), fun harmed => ?_,
      fun events heq => ?_, hnobody⟩, ?_⟩
    · exact absurd (h.armed.symm.trans harmed) nofun
    · exact absurd (h.report.symm.trans heq) nofun
    · simp [wakeUps, h.eventQueue, h.handlers, h.egressTimer, StreamEvent.isWakeUp]
  | connect hkind | abandon hkind => exact absurd (h.kind.symm.trans hkind) (by decide)
  | add hstage => exact absurd (h.stage.symm.trans hstage) (by decide)
  | queueWrite data =>
    rcases queueWrite_cases s.stream data with ⟨heq, -⟩ | ⟨heq, -⟩ | ⟨-, hconnected, -⟩
    · rw [heq]
      exact Or.inl h
    · rw [heq]
      exact Or.inl { h with }
    · exact absurd (h.connected.symm.trans hconnected) (by decide)
  | disconnect hdone =>
    rcases disconnect_cases hdone with ⟨-, rfl⟩ | ⟨hstage, -⟩ | ⟨-, rfl⟩
    · exact Or.inl h
    · exact absurd (h.stage.symm.trans hstage) (by decide)
    · exact Or.inl { h with }
  | expireActivity htimer => exact absurd (h.activityTimer.symm.trans htimer) (by decide)
  | expireEgress htimer => exact absurd (h.egressTimer.symm.trans htimer) (by decide)
  | report harmed => exact absurd h.armed harmed
  | newEvent hreport => exact absurd (h.report.symm.trans hreport) nofun
  | pop hqueue => exact absurd (h.eventQueue.symm.trans hqueue) nofun
  | check hmem | write hmem | skipWrite hmem | read hmem | finish hmem | handleError hmem
  | rearm hmem | asyncWriteComplete hmem | asyncDisconnect hmem | asyncEgress hmem =>
    exact absurd hmem hnobody

/-! ## The Assertion -/

theorem handlerStep_eq_error {x : Handler} {body : Except StreamHalt StreamSystem} {e : StreamHalt}
    (h : s.handlerStep x body = .error e) : e = .disabled ∨ x ∈ s.handlers ∧ body = .error e := by
  unfold handlerStep at h
  split at h
  · exact Or.inr ⟨‹_›, h⟩
  · cases h
    exact Or.inl rfl

theorem disconnect_ne_notTriggered : s.disconnect ≠ .error .notTriggered := by
  intro h
  unfold disconnect at h
  split at h
  · cases h
  · simp only at h
    split at h
    · split at h <;> cases h
    · cases h

/-- Only `asyncEgress` asserts that the stream is triggered. -/
theorem asyncEgress_of_notTriggered {l : StreamStep} (h : s.step l = .error .notTriggered) :
    .egress ∈ s.handlers ∧ s.stream.writeTriggered ≠ true := by
  have hbody : ∀ {x : Handler} {body : Except StreamHalt StreamSystem},
      s.handlerStep x body = .error .notTriggered → x ∈ s.handlers ∧ body = .error .notTriggered :=
    fun h => (handlerStep_eq_error h).resolve_left (by decide)
  cases l with
  | asyncEgress =>
    obtain ⟨hmem, hbody⟩ := hbody h
    simp only at hbody
    split at hbody <;> cases hbody
    exact ⟨hmem, ‹_›⟩
  | write events start ws =>
    obtain ⟨-, hbody⟩ := hbody h
    simp only at hbody
    split at hbody
    · cases hp : (s.advance (.write events) (some (.read events))).stream.handleWrite start ws with
      | ok p =>
        rw [hp] at hbody
        cases hbody
      | error e =>
        -- only a loop that is not answered in full stops `handleWrite`
        rw [hp] at hbody
        cases hbody
        cases TcpStream.handleWrite_error hp
    · split at hbody <;> cases hbody
  | finish events =>
    obtain ⟨-, hbody⟩ := hbody h
    split at hbody
    · exact absurd hbody disconnect_ne_notTriggered
    · cases hbody
  | asyncDisconnect => exact absurd (hbody h).2 disconnect_ne_notTriggered
  | disconnect => exact absurd h disconnect_ne_notTriggered
  | check | asyncWriteComplete => exact absurd (hbody h).2 nofun
  | read events received =>
    obtain ⟨-, hbody⟩ := hbody h
    simp only at hbody
    split at hbody <;> cases hbody
  | rearm needOut =>
    obtain ⟨-, hbody⟩ := hbody h
    simp only at hbody
    split at hbody <;> cases hbody
  | queueWrite data => cases h
  | connect err =>
    simp only [step] at h
    split at h
    · split at h
      · cases h
      · split at h <;> cases h
    · cases h
  | accept | add | expireActivity | expireEgress | report | newEvent | pop =>
    simp only [step] at h
    split at h <;> cases h

theorem Unaccepted.oneWakeUp (h : Unaccepted s) : OneWakeUp s := by
  have hzero : s.wakeUps = 0 := by simp [wakeUps, h.eventQueue, h.handlers, h.egressTimer]
  refine ⟨hzero.le.trans (Nat.zero_le 1), fun _ => hzero, fun l hl => ?_⟩
  have hmem := (asyncEgress_of_notTriggered hl).1
  rw [h.handlers] at hmem
  cases hmem

theorem Limited.oneWakeUp (h : Limited s) : OneWakeUp s := by
  have hnone : s.stream.writeTriggered ≠ true → s.wakeUps = 0 := by
    intro htriggered
    have htoken := h.token
    rw [Bool.eq_false_of_not_eq_true htriggered] at htoken
    exact Nat.eq_zero_of_le_zero htoken
  refine ⟨h.token.trans (Bool.toNat_le _), hnone, fun l hl => ?_⟩
  -- a running `asyncEgress` is itself a wake-up
  obtain ⟨hmem, htriggered⟩ := asyncEgress_of_notTriggered hl
  have hrunning : 0 < s.handlers.countP Handler.isWakeUp :=
    List.countP_pos_iff.mpr ⟨.egress, hmem, rfl⟩
  have hzero := hnone htriggered
  unfold wakeUps at hzero
  omega

/-- **One wake-up**: in every state that a run of an accepted stream reaches, at most one wake-up
is outstanding, none without `writeTriggered`, and the assertion of `asyncEgress` holds. -/
theorem oneWakeUp_of_run {ls : List StreamStep} (hrun : runFrom step (init .accepted) ls = .ok s) :
    OneWakeUp s := by
  have hinv : Unaccepted s ∨ Limited s := by
    refine runFrom_invariant (fun s => Unaccepted s ∨ Limited s) ?_ (Or.inl ?_) hrun
    · intro s l s' h hstep
      exact h.elim (fun h => h.step hstep) fun h => Or.inr (h.step hstep)
    · exact ⟨rfl, rfl, rfl, rfl, rfl, rfl, rfl, rfl, rfl, rfl⟩
  exact hinv.elim (fun h => h.oneWakeUp) fun h => h.oneWakeUp

/-- An accepted stream that was too fast: its timer has expired, and a worker runs
`asyncEgress`. -/
theorem oneWakeUp_asyncEgress : ∃ s, runFrom step (init .accepted) [.accept, .add,
      .queueWrite [1], .pop, .asyncWriteComplete, .pop, .check ⟨true, false, false⟩,
      .write ⟨true, false, false⟩ 0 [⟨1, .EAGAIN, 1⟩], .expireEgress, .pop, .asyncWriteComplete,
      .pop] = .ok s ∧ .egress ∈ s.handlers ∧ OneWakeUp s := by
  obtain ⟨s, hrun, hmem⟩ : ∃ s, runFrom step (init .accepted) [.accept, .add,
      .queueWrite [1], .pop, .asyncWriteComplete, .pop, .check ⟨true, false, false⟩,
      .write ⟨true, false, false⟩ 0 [⟨1, .EAGAIN, 1⟩], .expireEgress, .pop, .asyncWriteComplete,
      .pop] = .ok s ∧ .egress ∈ s.handlers := by
    decide +kernel
  exact ⟨s, hrun, hmem, oneWakeUp_of_run hrun⟩

end StreamSystem

end Epoller
