import Epoller.TcpStream.Finality

/-!
# Inactivity

A stream is watched if its activity timer is pending, or the event of that timer
is queued or running. Connecting, reading and writing start the timer; an
accepted stream is made without it.

## Contents

- `Watched`, `Restarts`: the watch, and the steps that start it
- `handleWrite_setActivity_iff`: which calls of `handleWrite` do
- `watched_step`: only `disconnect` ends the watch
- `watched_of_run`: which streams are watched, and that a watch is enough
-/

namespace Epoller

open Foundation

namespace TcpStream

variable {start : TimePointNs} {ws : List WriteCall} {p p' : Progress} {s : TcpStream}

/-! ## Which Writes Start the Timer -/

theorem writeOnce_keeps_calls (start : TimePointNs) (w : WriteCall) (data : Bytes)
    (rest : List Bytes) (p : Progress) : p.calls ⊆ (writeOnce start w data rest p).1.calls ∧
      (0 ≤ w.actuallySent → .setActivity ∈ (writeOnce start w data rest p).1.calls) := by
  by_cases hw : 0 ≤ w.actuallySent
  · simp only [writeOnce, if_pos hw]
    split <;> exact ⟨fun call hcall => by simp [hcall], fun _ => by simp⟩
  · refine ⟨?_, fun h => absurd h hw⟩
    rw [(writeOnce_refused hw start data rest p).1]
    exact List.Subset.refl _

theorem writeLoop_keeps_calls (h : writeLoop start ws p = .ok p') : p.calls ⊆ p'.calls := by
  induction ws generalizing p with
  | nil =>
    rw [(writeLoop_nil h).2]
    exact List.Subset.refl _
  | cons w ws ih =>
    obtain ⟨data, rest, -, -, hround⟩ := writeLoop_cons h
    have hcalls := (writeOnce_keeps_calls start w data rest p).1
    rcases hround with ⟨p₁, hmore, hrest⟩ | ⟨hlast, -⟩
    · rw [hmore] at hcalls
      exact List.Subset.trans hcalls (ih hrest)
    · rwa [hlast] at hcalls

/-- The first write that is accepted starts the timer. -/
theorem writeLoop_setActivity (h : writeLoop start ws p = .ok p')
    (haccepted : ∃ w ∈ ws, 0 ≤ w.actuallySent) : .setActivity ∈ p'.calls := by
  cases ws with
  | nil => exact absurd haccepted (by simp)
  | cons w ws =>
    obtain ⟨data, rest, -, -, hround⟩ := writeLoop_cons h
    by_cases hw : 0 ≤ w.actuallySent
    · have hset := (writeOnce_keeps_calls start w data rest p).2 hw
      rcases hround with ⟨p₁, hmore, hrest⟩ | ⟨hlast, -⟩
      · rw [hmore] at hset
        exact writeLoop_keeps_calls hrest hset
      · rwa [hlast] at hset
    · -- a write that is refused is the last
      have hstops := (writeOnce_refused hw start data rest p).2
      rcases hround with ⟨p₁, hmore, -⟩ | ⟨-, rfl⟩
      · rw [hmore] at hstops
        cases hstops
      · obtain ⟨w', hw', hsent⟩ := haccepted
        rw [List.mem_singleton.mp hw'] at hsent
        exact absurd hsent hw

/-- `handleWrite` starts the timer if it connects the stream, or if the kernel accepts something. -/
theorem handleWrite_setActivity_iff (h : s.handleWrite start ws = .ok p) :
    .setActivity ∈ p.calls ↔ s.connected = false ∨ ∃ w ∈ ws, 0 ≤ w.actuallySent := by
  cases hconnected : s.connected with
  | true =>
    simp only [Bool.true_eq_false, false_or]
    constructor
    · intro hset
      by_contra hrefused
      push Not at hrefused
      have hsets := handleWrite_refused hconnected (fun w hw => not_le.mpr (hrefused w hw)) h _ hset
      cases hsets
    · intro haccepted
      simp only [handleWrite, hconnected, if_true] at h
      obtain ⟨p₁, hloop, h⟩ := bind_eq_ok_iff.mp h
      have hset := writeLoop_setActivity hloop haccepted
      split at h <;> cases h
      · exact List.mem_append_left _ hset
      · exact hset
  | false =>
    simp only [handleWrite, hconnected, Bool.false_eq_true, if_false] at h
    split at h
    · split at h <;> cases h <;> simp
    · cases h

end TcpStream

namespace StreamSystem

variable {kind : Kind} {s s' : StreamSystem} {l : StreamStep} {ls ms : List StreamStep}
  {h : Handler} {next : Option Handler}

/-! ## The Watch -/

/-- The inactivity timeout is on its way. -/
def Watched (s : StreamSystem) : Prop :=
  s.activityTimer = true ∨ .activity ∈ s.eventQueue ∨ .activity ∈ s.handlers

/-- The step starts the activity timer: `create` when the stream connects or begins to, `handleRead`
when it gets something, and `handleWrite`. -/
def Restarts (s : StreamSystem) : StreamStep → Prop
  | .connect err => -1 ≤ err
  | .read events received => events.inp = true ∧ received = true
  | l => s.WriteSetsTimer l

instance (s : StreamSystem) (l : StreamStep) : Decidable (Restarts s l) :=
  match l with
  | .connect err => inferInstanceAs (Decidable (-1 ≤ err))
  | .read events received =>
    inferInstanceAs (Decidable (events.inp = true ∧ received = true))
  | .write events start ws =>
    inferInstanceAs (Decidable (s.WriteSetsTimer (.write events start ws)))
  | .accept | .add | .queueWrite _ | .disconnect | .expireActivity | .expireEgress | .report _
  | .newEvent | .pop | .check _ | .finish _ | .rearm _ | .asyncWriteComplete | .asyncDisconnect
  | .asyncEgress => .isFalse id

theorem watched_newEvent (s : StreamSystem) (events : EpollEvents) :
    Watched (s.newEvent events) ↔ Watched s := by
  unfold Watched newEvent
  split <;> simp

theorem watched_engineCalls (s : StreamSystem) (calls : List EngineCall) :
    Watched (s.engineCalls calls) ↔ Watched s ∨ .setActivity ∈ calls := by
  induction calls generalizing s with
  | nil => simp [engineCalls]
  | cons call calls ih =>
    have hcall : Watched (s.engineCall call) ↔ Watched s ∨ .setActivity = call := by
      cases call with
      | setActivity => simp [Watched, engineCall]
      | setEgress => simp [Watched, engineCall]
      | triggerWrites => simpa [engineCall] using watched_newEvent s _
      | runWriteComplete => simp [Watched, engineCall]
    rw [engineCalls, List.foldl_cons, ← engineCalls, ih, hcall, List.mem_cons, or_assoc]

/-- A worker that does not run the event of the timer goes on. -/
theorem watched_advance (s : StreamSystem) (hne : h ≠ .activity) (hnext : next ≠ some .activity) :
    Watched (s.advance h next) ↔ Watched s := by
  have hmem : .activity ∈ next.toList ++ s.handlers.erase h ↔ Handler.activity ∈ s.handlers := by
    rw [List.mem_append, Option.mem_toList, List.mem_erase_of_ne hne.symm]
    exact ⟨fun hor => hor.resolve_left hnext, .inr⟩
  simp only [Watched, advance, hmem]

/-- **Step**: a stream that is not disconnecting is watched if it was, or if the step starts the
timer. -/
theorem watched_step (hstep : s.step l = .ok s') (hopen : s'.stream.disconnecting = false) :
    Watched s' ↔ Watched s ∨ Restarts s l := by
  -- most steps neither start the timer nor let the watch end
  have hidle : ¬ Restarts s l → (Watched s' ↔ Watched s) →
      (Watched s' ↔ Watched s ∨ Restarts s l) :=
    fun hnot hsame => by rw [hsame, or_iff_left hnot]
  cases moves_of_step hstep with
  | accept => exact hidle id (by simp [Watched])
  | connect hkind hstage herr => exact iff_of_true (.inl rfl) (.inr herr)
  | abandon hkind hstage herr => exact hidle (not_le.mpr herr) Iff.rfl
  | add | report => exact hidle id Iff.rfl
  | queueWrite data =>
    refine hidle id ((watched_engineCalls _ _).trans (or_iff_left ?_))
    rcases queueWrite_cases s.stream data with ⟨heq, -⟩ | ⟨heq, -⟩ | ⟨heq, -⟩ <;> simp [heq]
  | disconnect hdone | handleError _ _ hdone | asyncDisconnect _ hdone =>
    exact absurd ((disconnect_disconnecting hdone).symm.trans hopen) (by decide)
  | expireActivity htimer => exact hidle id (by simp [Watched, htimer])
  | expireEgress => exact hidle id (by simp [Watched])
  | newEvent => exact hidle id (watched_newEvent _ _)
  | @pop event rest hqueue =>
    refine hidle id ?_
    -- the event of the timer moves to a worker
    have hhandler : Handler.activity = event.handler ↔ StreamEvent.activity = event := by
      cases event <;> simp [StreamEvent.handler]
    simp only [Watched, hqueue, List.mem_cons, hhandler]
    exact or_congr_right (or_left_comm.trans or_assoc.symm)
  | check hmem =>
    refine hidle id (watched_advance s nofun ?_)
    split <;> simp
  | @write events _ _ _ hmem hout hp =>
    rw [watched_engineCalls, TcpStream.handleWrite_setActivity_iff hp]
    have hadvance : Watched (s.advance (.write events) (some (.read events))) ↔ Watched s :=
      watched_advance s nofun (by simp)
    exact or_congr hadvance (and_iff_right hout).symm
  | skipWrite hmem hout =>
    exact hidle (fun hsets => hout hsets.1) (watched_advance s nofun (by simp))
  | @read events received hmem =>
    have hadvance : Watched (s.advance (.read events) (some (.finish events))) ↔ Watched s :=
      watched_advance s nofun (by simp)
    simp only [Watched, advance, Restarts, Bool.or_eq_true, Bool.and_eq_true] at hadvance ⊢
    rw [← hadvance, or_right_comm]
  | finish => exact hidle id (watched_advance s nofun (by simp))
  | rearm => exact hidle id (watched_advance s nofun (by simp))
  | asyncWriteComplete => exact hidle id (watched_advance s nofun (by simp))
  | asyncEgress =>
    exact hidle id ((watched_newEvent _ _).trans (watched_advance s nofun (by simp)))

/-! ## The End of the Watch -/

/-- A stream that is added and not disconnecting is in `eventHash`. -/
def InHash (s : StreamSystem) : Prop :=
  s.stage = .added → s.stream.disconnecting = false → s.registered = true

theorem InHash.of_eq (hin : InHash s) (hstage : s'.stage = s.stage)
    (hregistered : s'.registered = s.registered)
    (hdisconnecting : s'.stream.disconnecting = s.stream.disconnecting) : InHash s' :=
  fun hadded hopen => hregistered.trans (hin (hstage ▸ hadded) (hdisconnecting ▸ hopen))

/-- **Step** -/
theorem inHash_step (hin : InHash s) (hstep : s.step l = .ok s') : InHash s' := by
  cases moves_of_step hstep with
  | accept | connect | abandon => exact fun hadded => (by cases hadded)
  | add => exact fun _ _ => rfl
  | queueWrite data =>
    have hgrows := engineCalls_grows { s with stream := (s.stream.queueWrite data).1 }
      (s.stream.queueWrite data).2
    refine hin.of_eq hgrows.stage hgrows.registered ?_
    rw [hgrows.stream]
    rcases queueWrite_cases s.stream data with ⟨heq, -⟩ | ⟨heq, -⟩ | ⟨heq, -⟩ <;> rw [heq]
  | disconnect hdone | handleError _ _ hdone | asyncDisconnect _ hdone =>
    exact fun _ hopen => absurd ((disconnect_disconnecting hdone).symm.trans hopen) (by decide)
  | @newEvent events =>
    have hgrows := newEvent_grows { s with report := none } events
    exact hin.of_eq hgrows.stage hgrows.registered (congrArg TcpStream.disconnecting hgrows.stream)
  | @write events _ _ p _ _ hp =>
    have hgrows := engineCalls_grows
      { s.advance (.write events) (some (.read events)) with stream := p.stream } p.calls
    refine hin.of_eq hgrows.stage hgrows.registered ?_
    rw [hgrows.stream]
    exact (TcpStream.handleWrite_link hp).2.1
  | asyncEgress =>
    have hgrows := engineCall_grows (s.advance .egress none) .triggerWrites
    exact hin.of_eq hgrows.stage hgrows.registered (congrArg TcpStream.disconnecting hgrows.stream)
  | expireActivity | expireEgress | report | pop | check | skipWrite | read | finish | rearm
  | asyncWriteComplete => exact hin.of_eq rfl rfl rfl

/-- A step on the way from the timer to `disconnect` -/
def StreamStep.isTimeout : StreamStep → Bool
  | .expireActivity | .pop | .asyncDisconnect => true
  | _ => false

/-- **Timeout**: a stream that is watched is disconnected by the steps of its timer alone. -/
theorem exists_timedOut (hwatched : Watched s) (hin : InHash s)
    (hopen : s.stream.disconnecting = false) : ∃ ms s',
    (∀ l ∈ ms, StreamStep.isTimeout l = true) ∧ runFrom step s ms = .ok s' ∧
      s'.stream.disconnecting = true := by
  -- a worker that runs the event
  have hrunning : ∀ t : StreamSystem, .activity ∈ t.handlers → InHash t →
      t.stream.disconnecting = false → ∃ t', t.step .asyncDisconnect = .ok t' := by
    intro t hmem hint hopent
    simp only [step, handlerStep, if_pos hmem, disconnect, advance, hopent, Bool.false_eq_true,
      if_false]
    by_cases hadded : t.stage = .added
    · simp [hadded, hint hadded hopent]
    · simp [hadded]
  -- the event in the queue
  have hqueued : ∀ t : StreamSystem, .activity ∈ t.eventQueue → InHash t →
      t.stream.disconnecting = false → ∃ ms t', (∀ l ∈ ms, StreamStep.isTimeout l = true) ∧
        runFrom step t ms = .ok t' ∧ t'.stream.disconnecting = true := by
    intro t hmem hint hopent
    obtain ⟨ms, t₁, hms, hrun, hhandler, hstream, hstage, hregistered⟩ := leadsTo_popped hmem
    have hopen₁ : t₁.stream.disconnecting = false := by rw [hstream, hopent]
    obtain ⟨t₂, hstep⟩ := hrunning t₁ hhandler
      (hint.of_eq hstage hregistered (congrArg _ hstream)) hopen₁
    refine ⟨ms ++ [.asyncDisconnect], t₂, ?_, ?_, ?_⟩
    · simp only [List.mem_append, List.mem_singleton]
      rintro l (hl | rfl)
      · rw [hms l hl]
        rfl
      · rfl
    · rw [runFrom_append_ok hrun]
      exact runFrom_cons_ok [] hstep
    · obtain ⟨-, hdone⟩ := handlerStep_eq_ok_iff.mp hstep
      exact disconnect_disconnecting hdone
  rcases hwatched with htimer | hmem | hmem
  · have hstep : s.step .expireActivity = .ok { s with
        activityTimer := false, eventQueue := s.eventQueue ++ [.activity] } := by
      simp only [step, htimer, if_true]
    obtain ⟨ms, s', hms, hrun, hdone⟩ := hqueued
      { s with activityTimer := false, eventQueue := s.eventQueue ++ [.activity] }
      (List.mem_append_right _ (List.mem_singleton_self _)) (hin.of_eq rfl rfl rfl) hopen
    exact ⟨.expireActivity :: ms, s', by simpa [StreamStep.isTimeout] using hms,
      (runFrom_cons_ok ms hstep).trans hrun, hdone⟩
  · exact hqueued s hmem hin hopen
  · obtain ⟨s', hstep⟩ := hrunning s hmem hin hopen
    obtain ⟨-, hdone⟩ := handlerStep_eq_ok_iff.mp hstep
    exact ⟨[.asyncDisconnect], s', by simp [StreamStep.isTimeout], runFrom_cons_ok [] hstep,
      disconnect_disconnecting hdone⟩

/-! ## Runs -/

/-- **Inactivity**: in every run a stream that has not been disconnected is watched exactly if some
step has started its timer, and then the timer, unless it is started again, disconnects it. -/
theorem watched_of_run (hrun : runFrom step (init kind) ls = .ok s)
    (hopen : s.stream.disconnecting = false) :
    (Watched s ↔ ¬ AllSteps step (fun s l => ¬ Restarts s l) (init kind) ls) ∧
      (Watched s → ∃ ms s', (∀ l ∈ ms, StreamStep.isTimeout l = true) ∧
        runFrom step s ms = .ok s' ∧ s'.stream.disconnecting = true) := by
  have hlatch := (runFrom_latch (P := Watched) (Q := fun s => s.stream.disconnecting = false)
    (C := Restarts) (fun {s l s'} hstep hopen' => by
      by_contra hne
      rw [disconnecting_step (Bool.eq_true_of_not_eq_false hne) hstep] at hopen'
      cases hopen') watched_step hrun hopen).2
  refine ⟨hlatch.trans (or_iff_right ?_), fun hwatched => exists_timedOut hwatched ?_ hopen⟩
  · simp [Watched, init]
  · exact runFrom_invariant InHash inHash_step (fun hadded => (by cases hadded)) hrun

/-- An accepted stream over which nothing was transferred yet is not watched; its first byte
changes that. -/
theorem watched_first_byte : ∃ s, runFrom step (init .accepted)
      [.accept, .add, .report ⟨false, true, false⟩, .newEvent, .pop, .pop, .asyncWriteComplete,
        .check ⟨false, true, false⟩, .write ⟨false, true, false⟩ 0 [],
        .read ⟨false, true, false⟩ true] = .ok s ∧
    ∃ ms s', (∀ l ∈ ms, StreamStep.isTimeout l = true) ∧ runFrom step s ms = .ok s' ∧
      s'.stream.disconnecting = true := by
  obtain ⟨s, hrun, hopen⟩ : ∃ s, runFrom step (init .accepted)
      [.accept, .add, .report ⟨false, true, false⟩, .newEvent, .pop, .pop, .asyncWriteComplete,
        .check ⟨false, true, false⟩, .write ⟨false, true, false⟩ 0 [],
        .read ⟨false, true, false⟩ true] = .ok s ∧ s.stream.disconnecting = false := by
    decide +kernel
  obtain ⟨hiff, htimeout⟩ := watched_of_run hrun hopen
  exact ⟨s, hrun, htimeout (hiff.mpr (by decide +kernel))⟩

end StreamSystem

end Epoller
