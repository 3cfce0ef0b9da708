import Epoller.TcpStream.WakeUp

/-!
# The Armed Mask

`Engine::run` asks `waitingOutEvent` whether the stream needs `EPOLLOUT` under
`writeLock`, and arms the registration with the answer under `evHashLock`. Between
the two another worker may write, block and arm its own answer. The mask is out of
date if the older answer comes last.

## Contents

- `InProgress`: a run of the stream is in progress, queued or reported
- `ArmedForOutput`: a stream at rest that waits for `EPOLLOUT` is armed with it
- `StaleRearm`: the last run arms an answer that is out of date
- `armedForOutput_iff_not_staleRearm`: the mask is right in exactly the runs without it
-/

namespace Epoller

open Foundation

/-- A worker that is inside `Engine::run` -/
def Handler.isRun : Handler → Bool
  | entered _ | write _ | read _ | finish _ | rearm _ => true
  | notifyWriteComplete | activity | egress => false

/-- An event that calls `Engine::run` -/
def StreamEvent.isRun : StreamEvent → Bool
  | run _ => true
  | notifyWriteComplete | activity | egress => false

theorem StreamEvent.isRun_handler (event : StreamEvent) : event.handler.isRun = event.isRun := by
  cases event <;> rfl

namespace StreamSystem

/-- A run of the stream is in progress, queued, or reported and about to be queued. -/
def InProgress (s : StreamSystem) : Prop :=
  s.report ≠ none ∨ (∃ event ∈ s.eventQueue, event.isRun = true) ∨
    ∃ h ∈ s.handlers, h.isRun = true

instance (s : StreamSystem) : Decidable s.InProgress :=
  inferInstanceAs (Decidable (_ ∨ _ ∨ _))

/-- A registered stream without a rate limit that waits for `EPOLLOUT` while nothing is in progress
is armed with it. -/
def ArmedForOutput (s : StreamSystem) : Prop :=
  ¬ s.InProgress → s.registered = true → s.stream.connected = true → s.stream.egressRate = 0 →
    s.stream.waitingOutEvent = true → s.armed = some true

/-- The last run in progress arms a mask without `EPOLLOUT`, which was right when it was computed,
although the stream waits for `EPOLLOUT` now. -/
def StaleRearm (s : StreamSystem) : StreamStep → Prop
  | .rearm needOut => .rearm needOut ∈ s.handlers ∧ needOut = false ∧ s.registered = true ∧
      s.stream.connected = true ∧ s.stream.egressRate = 0 ∧ s.stream.waitingOutEvent = true ∧
      ¬ (s.advance (.rearm needOut) none).InProgress
  | _ => False

variable {s s' : StreamSystem} {l : StreamStep} {ls : List StreamStep}

/-! ## What Keeps a Run in Progress -/

theorem Grows.inProgress (h : Grows s s') (hprogress : InProgress s) : InProgress s' := by
  unfold InProgress
  rw [h.report, h.handlers]
  exact hprogress.imp_right (Or.imp_left fun ⟨event, he, hrun⟩ => ⟨event, h.events he, hrun⟩)

theorem InProgress.advance {h : Handler} {next : Option Handler} (hprogress : InProgress s)
    (hnext : h.isRun = true → ∃ n, next = some n ∧ n.isRun = true) :
    InProgress (s.advance h next) :=
  hprogress.imp_right (Or.imp_right fun hex => exists_advance hex hnext)

/-- A worker that goes on inside `Engine::run` -/
theorem inProgress_advance {h next : Handler} (hrun : next.isRun = true) :
    InProgress (s.advance h (some next)) :=
  Or.inr (Or.inr ⟨next, List.mem_cons_self .., hrun⟩)

/-- An event that is queued for a registered stream -/
theorem inProgress_newEvent {events : EpollEvents} (h : s.registered = true) :
    InProgress (s.newEvent events) :=
  Or.inr (Or.inl ⟨_, newEvent_mem h, rfl⟩)

/-- What a worker pops it runs. -/
theorem InProgress.pop {event : StreamEvent} {rest : List StreamEvent} (h : InProgress s)
    (hqueue : s.eventQueue = event :: rest) :
    InProgress { s with eventQueue := rest, handlers := event.handler :: s.handlers } := by
  rcases h with hreport | ⟨e, he, hrun⟩ | ⟨x, hx, hrun⟩
  · exact Or.inl hreport
  · rcases List.mem_cons.mp (hqueue ▸ he) with rfl | hrest
    · exact Or.inr (Or.inr
        ⟨e.handler, List.mem_cons_self .., (StreamEvent.isRun_handler e).trans hrun⟩)
    · exact Or.inr (Or.inl ⟨e, hrest, hrun⟩)
  · exact Or.inr (Or.inr ⟨x, List.mem_cons_of_mem _ hx, hrun⟩)

/-- One more event in the queue -/
theorem InProgress.addEvent (h : InProgress s) (event : StreamEvent) :
    InProgress { s with eventQueue := s.eventQueue ++ [event] } :=
  h.imp_right (Or.imp_left fun ⟨e, he, hrun⟩ => ⟨e, List.mem_append_left _ he, hrun⟩)

/-! ## The Registration -/

/-- Only `Engine::add` puts the stream into `eventHash`. -/
def AddedIfRegistered (s : StreamSystem) : Prop := s.registered = true → s.stage = .added

/-- What `disconnect` may change -/
structure Disconnects (s t : StreamSystem) : Prop where
  kind : t.kind = s.kind
  stage : t.stage = s.stage
  registered : t.registered = true → s.registered = true
  armed : t.armed = s.armed
  report : t.report = s.report
  eventQueue : t.eventQueue = s.eventQueue
  handlers : t.handlers = s.handlers

theorem disconnects_of_disconnect (hdone : s.disconnect = .ok s') : Disconnects s s' := by
  rcases disconnect_cases hdone with ⟨-, rfl⟩ | ⟨-, -, rfl⟩ | ⟨-, rfl⟩
  · exact ⟨rfl, rfl, id, rfl, rfl, rfl, rfl⟩
  · exact ⟨rfl, rfl, fun h => (by cases h), rfl, rfl, rfl, rfl⟩
  · exact ⟨rfl, rfl, id, rfl, rfl, rfl, rfl⟩

theorem Disconnects.inProgress (h : Disconnects s s') (hprogress : InProgress s) :
    InProgress s' := by
  unfold InProgress
  rw [h.report, h.eventQueue, h.handlers]
  exact hprogress

theorem AddedIfRegistered.step (h : AddedIfRegistered s) (hstep : s.step l = .ok s') :
    AddedIfRegistered s' := by
  intro hregistered
  cases moves_of_step hstep with
  -- these come before `Engine::add`
  | accept _ hstage | connect _ hstage | abandon _ hstage =>
    have hadded := h hregistered
    rw [hstage] at hadded
    cases hadded
  | add => rfl
  | queueWrite data =>
    have hgrows := engineCalls_grows { s with stream := (s.stream.queueWrite data).1 }
      (s.stream.queueWrite data).2
    exact hgrows.stage.trans (h (hgrows.registered.symm.trans hregistered))
  | disconnect hdone =>
    have hd := disconnects_of_disconnect hdone
    exact hd.stage.trans (h (hd.registered hregistered))
  | handleError _ _ hdone | asyncDisconnect _ hdone =>
    have hd := disconnects_of_disconnect hdone
    have hadded := h (hd.registered hregistered)
    exact hd.stage.trans hadded
  | @newEvent events hreport =>
    have hgrows := newEvent_grows { s with report := none } events
    exact hgrows.stage.trans (h (hgrows.registered.symm.trans hregistered))
  | @write events _ _ p hmem hout hp =>
    have hgrows := engineCalls_grows
      { s.advance (.write events) (some (.read events)) with stream := p.stream } p.calls
    exact hgrows.stage.trans (h (hgrows.registered.symm.trans hregistered))
  | asyncEgress =>
    have hgrows := engineCall_grows (s.advance .egress none) .triggerWrites
    exact hgrows.stage.trans (h (hgrows.registered.symm.trans hregistered))
  | expireActivity | expireEgress | report | pop | check | skipWrite | read | finish | rearm
  | asyncWriteComplete => exact h hregistered

theorem addedIfRegistered_init (kind : Kind) : AddedIfRegistered (init kind) :=
  fun h => (by cases h)

/-- Only a second `disconnect` leaves a stream in `eventHash`. -/
theorem eq_of_disconnect (hadded : AddedIfRegistered s) (hdone : s.disconnect = .ok s')
    (hregistered : s'.registered = true) : s.stream.disconnecting = true ∧ s' = s := by
  rcases disconnect_cases hdone with hbefore | ⟨-, -, rfl⟩ | ⟨hstage, rfl⟩
  · exact hbefore
  · cases hregistered
  · exact absurd (hadded hregistered) hstage

/-! ## Steps -/

theorem ArmedForOutput.of_inProgress (h : InProgress s) : ArmedForOutput s :=
  fun hrest => absurd h hrest

theorem ArmedForOutput.of_not_registered (h : ¬ s.registered = true) : ArmedForOutput s :=
  fun _ hregistered => absurd hregistered h

theorem ArmedForOutput.of_disconnecting (h : s.stream.disconnecting = true) :
    ArmedForOutput s := by
  intro _ _ _ _ hwaiting
  have hlive := (TcpStream.waitingOutEvent_eq_true_iff.mp hwaiting).2.1
  rw [h] at hlive
  cases hlive

/-- A step that leaves the mask and what the stream waits for alone, and ends no run. -/
theorem ArmedForOutput.of_same (h : ArmedForOutput s) (hprogress : InProgress s → InProgress s')
    (hregistered : s'.registered = s.registered) (harmed : s'.armed = s.armed)
    (hconnected : s'.stream.connected = s.stream.connected)
    (hrate : s'.stream.egressRate = s.stream.egressRate)
    (hwaiting : s'.stream.waitingOutEvent = s.stream.waitingOutEvent) : ArmedForOutput s' := by
  unfold ArmedForOutput
  rw [hregistered, harmed, hconnected, hrate, hwaiting]
  exact fun hrest => h fun hbefore => hrest (hprogress hbefore)

theorem ArmedForOutput.queueWrite (h : ArmedForOutput s) (data : Bytes) :
    ArmedForOutput ({ s with stream := (s.stream.queueWrite data).1 }.engineCalls
      (s.stream.queueWrite data).2) := by
  have hgrows := engineCalls_grows { s with stream := (s.stream.queueWrite data).1 }
    (s.stream.queueWrite data).2
  have hstream := hgrows.stream
  refine h.of_same (fun hprogress => hgrows.inProgress hprogress) hgrows.registered hgrows.armed
    ?_ ?_ ?_
  all_goals
    rw [hstream]
    rcases queueWrite_cases s.stream data with ⟨heq, -⟩ | ⟨heq, -⟩ | ⟨heq, -⟩ <;> rw [heq] <;> rfl

/-- A re-arm is right unless it is stale. -/
theorem armedForOutput_rearm {needOut : Bool} (hmem : .rearm needOut ∈ s.handlers) :
    ArmedForOutput { s.advance (.rearm needOut) none with
      armed := if s.registered = true then some needOut else s.armed } ↔
      ¬ StaleRearm s (.rearm needOut) := by
  constructor
  · rintro h ⟨-, rfl, hregistered, hconnected, hrate, hwaiting, hrest⟩
    have harmed := h hrest hregistered hconnected hrate hwaiting
    rw [if_pos hregistered] at harmed
    cases harmed
  · intro hstale hrest hregistered hconnected hrate hwaiting
    change (if s.registered = true then some needOut else s.armed) = some true
    have hregistered' : s.registered = true := hregistered
    rw [if_pos hregistered']
    cases needOut with
    | true => rfl
    | false => exact absurd ⟨hmem, rfl, hregistered, hconnected, hrate, hwaiting, hrest⟩ hstale

/-- **Step**: a step keeps the mask right if and only if it is no stale re-arm. -/
theorem armedForOutput_step (hadded : AddedIfRegistered s) (h : ArmedForOutput s)
    (hstep : s.step l = .ok s') : ArmedForOutput s' ↔ ¬ StaleRearm s l := by
  have hmoves := moves_of_step hstep
  -- of all steps only a re-arm can be stale, so the others have to keep the mask right
  by_cases hrearm : ∃ needOut, l = .rearm needOut
  · obtain ⟨needOut, rfl⟩ := hrearm
    cases hmoves with
    | rearm hmem => exact armedForOutput_rearm hmem
  refine iff_of_true ?_ fun hstale => ?_
  · cases hmoves with
    | accept _ hstage | connect _ hstage | abandon _ hstage =>
      refine .of_not_registered fun hregistered => ?_
      have hadded' := hadded hregistered
      rw [hstage] at hadded'
      cases hadded'
    -- `Engine::add` asks the stream itself
    | add => exact fun _ _ _ _ hwaiting => congrArg some hwaiting
    | queueWrite data => exact h.queueWrite data
    | disconnect hdone | handleError _ _ hdone | asyncDisconnect _ hdone =>
      exact .of_disconnecting (disconnect_disconnecting hdone)
    | expireActivity => exact h.of_same (fun hp => hp.addEvent .activity) rfl rfl rfl rfl rfl
    | expireEgress => exact h.of_same (fun hp => hp.addEvent .egress) rfl rfl rfl rfl rfl
    | report => exact .of_inProgress (Or.inl (Option.some_ne_none _))
    | @newEvent events hreport =>
      by_cases hregistered : s.registered = true
      · exact .of_inProgress (inProgress_newEvent (s := { s with report := none }) hregistered)
      · have hgrows := newEvent_grows { s with report := none } events
        exact .of_not_registered fun hr => hregistered (hgrows.registered.symm.trans hr)
    | pop hqueue => exact h.of_same (fun hp => hp.pop hqueue) rfl rfl rfl rfl rfl
    | check =>
      by_cases hregistered : s.registered = true
      · rw [if_pos hregistered]
        exact .of_inProgress (inProgress_advance rfl)
      · exact .of_not_registered hregistered
    -- the run that writes goes on, so nothing is claimed of the mask yet
    | write =>
      exact .of_inProgress ((engineCalls_grows _ _).inProgress
        (Or.inr (Or.inr ⟨_, List.mem_cons_self .., rfl⟩)))
    | skipWrite | finish => exact .of_inProgress (inProgress_advance rfl)
    | read => exact .of_inProgress (Or.inr (Or.inr ⟨_, List.mem_cons_self .., rfl⟩))
    | rearm => exact absurd ⟨_, rfl⟩ hrearm
    | asyncWriteComplete =>
      exact h.of_same (fun hp => hp.advance fun hrun => (by cases hrun)) rfl rfl rfl rfl rfl
    | asyncEgress =>
      have hgrows := engineCall_grows (s.advance .egress none) .triggerWrites
      refine h.of_same (fun hp => hgrows.inProgress (hp.advance fun hrun => (by cases hrun)))
        hgrows.registered hgrows.armed ?_ ?_ ?_
      all_goals rw [hgrows.stream]; rfl
  · cases l with
    | rearm needOut => exact hrearm ⟨needOut, rfl⟩
    | _ => exact hstale

/-- **Armed mask**: every state that a run reaches has the right mask if and only if the run has no
stale re-arm. -/
theorem armedForOutput_iff_not_staleRearm (kind : Kind) (ls : List StreamStep) :
    (∀ ms t, ms <+: ls → runFrom step (init kind) ms = .ok t → ArmedForOutput t) ↔
      AllSteps step (fun s l => ¬ StaleRearm s l) (init kind) ls := by
  refine forall_prefix_iff_allSteps AddedIfRegistered.step armedForOutput_step ?_
    (addedIfRegistered_init kind) fun _ hregistered => (by cases hregistered)
  intro s l e hrefused hstale
  cases l with
  | rearm needOut =>
    simp only [step, handlerStep, if_pos hstale.1] at hrefused
    split at hrefused <;> cases hrefused
  | _ => exact hstale

/-- Two workers run the same outgoing stream. The first asks `waitingOutEvent`; the second writes,
would block and arms `EPOLLOUT`; then the first arms its own answer. -/
theorem not_armedForOutput_two_workers :
    ¬ ∀ kind ls s, runFrom step (init kind) ls = .ok s → ArmedForOutput s := by
  intro h
  obtain ⟨s, hrun, hrest, hregistered, hconnected, hrate, hwaiting, harmed⟩ : ∃ s,
      runFrom step (init .outgoing) [.connect 0, .add,
        .report ⟨true, false, false⟩, .newEvent, .pop, .check ⟨true, false, false⟩,
        .write ⟨true, false, false⟩ 0 [], .read ⟨true, false, false⟩ false,
        .finish ⟨true, false, false⟩,
        .queueWrite [1], .pop, .asyncWriteComplete, .pop, .check ⟨true, false, false⟩,
        .write ⟨true, false, false⟩ 0 [⟨-1, .EAGAIN, 1⟩], .read ⟨true, false, false⟩ false,
        .finish ⟨true, false, false⟩, .rearm true, .rearm false] = .ok s ∧
      ¬ s.InProgress ∧ s.registered = true ∧ s.stream.connected = true ∧
      s.stream.egressRate = 0 ∧ s.stream.waitingOutEvent = true ∧ s.armed = some false := by
    decide +kernel
  have harmed' := h _ _ s hrun hrest hregistered hconnected hrate hwaiting
  rw [harmed] at harmed'
  cases harmed'

end StreamSystem

end Epoller
