import Epoller.TcpStream.Conservation
import Epoller.TcpStream.WakeUp

/-!
# What Is Queued Can Be Written

A stream that is not stuck can be drained: whatever the clients and the workers have
done before, a kernel that reports the socket writable and accepts data, the epoll
thread, the egress timer and the workers write everything that is in the queue. The
duty to write is followed from where it is to the next call of `handleWrite`, and each
such call makes the queue shorter.

## Contents

- `exists_handleWrite`: a call that makes the queue shorter
- `Serves`: the steps that are needed
- `leadsTo_write`: whoever has the duty calls `handleWrite`
- `delivered_of_run`: every byte that is queued can be written
-/

namespace Epoller

open Foundation

/-! ## A Kernel That Accepts Data -/

namespace TcpStream

variable {start : TimePointNs} {p : Progress} {s : TcpStream}

/-- The kernel takes a chunk whole. -/
def whole (data : Bytes) : WriteCall := ⟨data.length, .other 0, 0⟩

theorem whole_actuallySent (data : Bytes) : (whole data).actuallySent = data.length := by
  unfold whole WriteCall.actuallySent convertFromStdError
  exact if_pos (Int.natCast_nonneg data.length)

/-- A chunk that is taken whole leaves the queue. -/
theorem writeOnce_whole (start : TimePointNs) (data : Bytes) (rest : List Bytes) (p : Progress) :
    (writeOnce start (whole data) data rest p).1.stream.writeQueue = rest := by
  simp only [writeOnce, whole_actuallySent, Int.natCast_nonneg, if_true, Int.toNat_natCast, ne_eq,
    not_true_eq_false, if_false]
  split <;> rfl

/-- A loop whose chunks are taken whole comes to its end, and the first chunk is written. -/
theorem exists_writeLoop (start : TimePointNs) (hchunks : NonEmptyChunks p.stream.writeQueue) :
    ∃ ws p', (∀ w ∈ ws, 0 < w.actuallySent) ∧ writeLoop start ws p = .ok p' ∧
      p'.stream.writeQueue.length ≤ p.stream.writeQueue.length - 1 := by
  induction hqueue : p.stream.writeQueue generalizing p with
  | nil => exact ⟨[], p, by simp, by rw [writeLoop, if_pos hqueue], by simp [hqueue]⟩
  | cons data rest ih =>
    rw [hqueue] at hchunks
    have hpos : 0 < (whole data).actuallySent := by
      rw [whole_actuallySent]
      exact_mod_cast List.length_pos_iff.mpr (hchunks data (List.mem_cons_self ..))
    have hrest := writeOnce_whole start data rest p
    cases hround : writeOnce start (whole data) data rest p with
    | mk p₁ more =>
      rw [hround] at hrest
      cases more with
      | false =>
        -- the limit is reached
        refine ⟨[whole data], p₁, by simpa using hpos, ?_, ?_⟩
        · simp only [writeLoop, hqueue, whole_actuallySent, le_refl, if_true, hround]
        · exact (congrArg List.length hrest).le
      | true =>
        obtain ⟨ws, p', hws, hloop, hlength⟩ := ih
          (fun chunk hchunk => hchunks chunk (List.mem_cons_of_mem _ (hrest ▸ hchunk))) hrest
        refine ⟨whole data :: ws, p', by simpa [hpos] using hws, ?_, ?_⟩
        · simp only [writeLoop, hqueue, whole_actuallySent, le_refl, if_true, hround]
          exact hloop
        · simp only [List.length_cons]
          omega

/-- The first event of a stream that was connecting -/
theorem handleWrite_connecting (start : TimePointNs) (hconnecting : s.connected = false) :
    ∃ p, s.handleWrite start [] = .ok p ∧ p.stream.connected = true ∧
      p.stream.writeQueue = s.writeQueue ∧
      (s.writeQueue = [] → .runWriteComplete ∈ p.calls) := by
  simp only [handleWrite, hconnecting, Bool.false_eq_true, if_false, if_true]
  by_cases hqueue : s.writeQueue = []
  · rw [if_neg (not_not.mpr hqueue)]
    exact ⟨_, rfl, rfl, rfl, fun _ => by simp⟩
  · rw [if_pos hqueue]
    exact ⟨_, rfl, rfl, rfl, fun hnil => absurd hnil hqueue⟩

/-- How many calls of `handleWrite` are left at most -/
def callsLeft (s : TcpStream) : ℕ := s.writeQueue.length + if s.connected = true then 0 else 1

/-- **A call that gets on**: it connects the stream, or writes the first chunk. -/
theorem exists_handleWrite (start : TimePointNs) (hchunks : NonEmptyChunks s.writeQueue)
    (hqueue : s.writeQueue ≠ []) : ∃ ws p, (∀ w ∈ ws, 0 < w.actuallySent) ∧
      s.handleWrite start ws = .ok p ∧ p.stream.callsLeft < s.callsLeft := by
  cases hconnected : s.connected with
  | false =>
    obtain ⟨p, hp, hconnects, hkept, -⟩ := handleWrite_connecting start hconnected
    refine ⟨[], p, by simp, hp, ?_⟩
    simp [callsLeft, hconnects, hkept, hconnected]
  | true =>
    obtain ⟨ws, p, hws, hloop, hlength⟩ := exists_writeLoop start
      (p := ⟨{ s with writeTriggered := false, blocked := false }, 0, [], []⟩) hchunks
    have hpos := List.length_pos_iff.mpr hqueue
    have hshorter : p.stream.writeQueue.length < s.writeQueue.length := by
      simp only at hlength
      omega
    have hdone : ∃ q, s.handleWrite start ws = .ok q ∧
        q.stream.writeQueue = p.stream.writeQueue := by
      simp only [handleWrite]
      rw [if_pos hconnected, hloop, ok_bind]
      split <;> exact ⟨_, rfl, rfl⟩
    obtain ⟨q, hq, hsame⟩ := hdone
    refine ⟨ws, q, hws, hq, ?_⟩
    simp only [callsLeft, (handleWrite_link hq).1, if_true, hsame, hconnected]
    omega

end TcpStream

/-! ## The Steps That Are Needed -/

/-- A step of the kernel (which reports the socket writable and accepts data), of the epoll thread,
of the egress timer or of a worker inside `Engine::run` or `asyncEgress`. -/
def StreamStep.Serves : StreamStep → Prop
  | .report events => events = ⟨true, false, false⟩
  | .newEvent | .pop | .check _ | .finish _ | .expireEgress | .asyncEgress => True
  | .write _ _ ws => ∀ w ∈ ws, 0 < w.actuallySent
  | .read _ received => received = false
  | .rearm needOut => needOut = true
  | .accept | .connect _ | .add | .queueWrite _ | .disconnect | .expireActivity
  | .asyncWriteComplete | .asyncDisconnect => False

/-- The bytes that the kernel accepts in the step -/
def StreamStep.accepted : StreamStep → ℕ
  | .write _ _ ws => (ws.map TcpStream.sentBy).sum
  | _ => 0

/-- epoll reports `EPOLLRDHUP` or `EPOLLERR`. -/
def StreamStep.ReportsError : StreamStep → Prop
  | .report events => events.err = true
  | _ => False

/-- The handler is not about to disconnect because of an error. -/
def Handler.Clean : Handler → Prop
  | entered events | write events | read events | finish events => events.err = false
  | rearm _ | notifyWriteComplete | activity | egress => True

theorem StreamEvent.clean_handler {event : StreamEvent}
    (h : ∀ events, event = .run events → events.err = false) : event.handler.Clean := by
  cases event with
  | run events => exact h events rfl
  | notifyWriteComplete | activity | egress => trivial

namespace StreamSystem

variable {kind : Kind} {s s' : StreamSystem} {l : StreamStep} {ls ms : List StreamStep}
  {events : EpollEvents}

/-- No error is on its way. -/
structure NoError (s : StreamSystem) : Prop where
  report : ∀ events, s.report = some events → events.err = false
  queued : ∀ events, .run events ∈ s.eventQueue → events.err = false
  handlers : ∀ h ∈ s.handlers, h.Clean

theorem noError_init : NoError (init kind) :=
  ⟨fun events h => (by cases h), fun events h => (by cases h), fun h hmem => (by cases hmem)⟩

theorem NoError.newEvent (h : NoError s) (hclean : events.err = false) :
    NoError (s.newEvent events) := by
  unfold StreamSystem.newEvent
  split
  · refine ⟨h.report, fun events' hmem => ?_, h.handlers⟩
    rcases List.mem_append.mp hmem with hmem | hmem
    · exact h.queued events' hmem
    · cases List.mem_singleton.mp hmem
      exact hclean
  · exact h

theorem NoError.addEvent (h : NoError s) (hreport : s'.report = s.report)
    (hhandlers : s'.handlers = s.handlers) {event : StreamEvent}
    (hqueue : s'.eventQueue = s.eventQueue ++ [event]) (hevent : ∀ events, event ≠ .run events) :
    NoError s' := by
  refine ⟨hreport ▸ h.report, fun events hmem => ?_, hhandlers ▸ h.handlers⟩
  rw [hqueue] at hmem
  rcases List.mem_append.mp hmem with hmem | hmem
  · exact h.queued events hmem
  · exact absurd (List.mem_singleton.mp hmem).symm (hevent events)

theorem NoError.engineCalls (h : NoError s) (calls : List EngineCall) :
    NoError (s.engineCalls calls) := by
  induction calls generalizing s with
  | nil => exact h
  | cons call calls ih =>
    refine ih ?_
    cases call with
    | setActivity | setEgress => exact ⟨h.report, h.queued, h.handlers⟩
    | triggerWrites => exact h.newEvent rfl
    | runWriteComplete => exact h.addEvent rfl rfl rfl nofun

theorem NoError.advance (h : NoError s) (handler : Handler) {next : Handler}
    (hnext : next.Clean) : NoError (s.advance handler (some next)) := by
  refine ⟨h.report, h.queued, fun n hmem => ?_⟩
  rcases mem_advance hmem with heq | hmem
  · exact Option.some.inj heq ▸ hnext
  · exact h.handlers n hmem

theorem NoError.leave (h : NoError s) (handler : Handler) : NoError (s.advance handler none) := by
  refine ⟨h.report, h.queued, fun n hmem => ?_⟩
  exact (mem_advance hmem).elim nofun (h.handlers n)

/-- A handler inside `Engine::run` has the event that it was called with. -/
theorem NoError.clean (h : NoError s) (hmem : .entered events ∈ s.handlers ∨
    .write events ∈ s.handlers ∨ .read events ∈ s.handlers ∨ .finish events ∈ s.handlers) :
    events.err = false := by
  rcases hmem with hmem | hmem | hmem | hmem
  all_goals exact h.handlers _ hmem

theorem NoError.disconnect (h : NoError s) (hdone : s.disconnect = .ok s') : NoError s' := by
  rcases disconnect_cases hdone with ⟨-, rfl⟩ | ⟨-, -, rfl⟩ | ⟨-, rfl⟩
  · exact h
  · exact ⟨h.report, h.queued, h.handlers⟩
  · exact ⟨h.report, h.queued, h.handlers⟩

/-- **Step**: an error comes from epoll. -/
theorem noError_step (h : NoError s) (hl : ¬ l.ReportsError) (hstep : s.step l = .ok s') :
    NoError s' := by
  cases moves_of_step hstep with
  | accept => exact h.addEvent rfl rfl rfl nofun
  | connect | abandon | add => exact ⟨h.report, h.queued, h.handlers⟩
  | queueWrite data =>
    have hsame : NoError { s with stream := (s.stream.queueWrite data).1 } :=
      ⟨h.report, h.queued, h.handlers⟩
    exact hsame.engineCalls _
  | disconnect hdone => exact h.disconnect hdone
  | expireActivity | expireEgress => exact h.addEvent rfl rfl rfl nofun
  | report =>
    refine ⟨fun events hevents => ?_, h.queued, h.handlers⟩
    cases hevents
    exact Bool.eq_false_of_not_eq_true hl
  | newEvent hreport =>
    have hsame : NoError { s with report := none } :=
      ⟨fun events hnone => (by cases hnone), h.queued, h.handlers⟩
    exact hsame.newEvent (h.report _ hreport)
  | pop hqueue =>
    refine ⟨h.report, fun events hmem => h.queued events (hqueue ▸ List.mem_cons_of_mem _ hmem),
      List.forall_mem_cons.mpr ⟨StreamEvent.clean_handler fun events heq => ?_, h.handlers⟩⟩
    exact h.queued events (by rw [hqueue, heq]; exact List.mem_cons_self ..)
  | check hmem =>
    split
    · exact h.advance _ (h.clean (.inl hmem))
    · exact h.leave _
  | @write events start ws p hmem hout hp =>
    have hclean : (Handler.read events).Clean := h.clean (.inr (.inl hmem))
    have hnext := h.advance (.write events) hclean
    have hsame : NoError { s.advance (.write events) (some (.read events)) with
      stream := p.stream } := ⟨hnext.report, hnext.queued, hnext.handlers⟩
    exact hsame.engineCalls _
  | skipWrite hmem => exact h.advance _ (h.clean (.inr (.inl hmem)))
  | @read events received hmem =>
    have hclean : (Handler.finish events).Clean := h.clean (.inr (.inr (.inl hmem)))
    have hnext := h.advance (.read events) hclean
    exact ⟨hnext.report, hnext.queued, hnext.handlers⟩
  | finish => exact h.advance _ trivial
  | handleError _ _ hdone => exact (h.leave _).disconnect hdone
  | @rearm needOut =>
    have hnext := h.leave (.rearm needOut)
    exact ⟨hnext.report, hnext.queued, hnext.handlers⟩
  | asyncWriteComplete => exact h.leave _
  | asyncDisconnect _ hdone => exact (h.leave _).disconnect hdone
  | asyncEgress => exact (h.leave _).newEvent rfl

/-- **Step**: no empty chunk is queued. -/
theorem chunks_step (h : TcpStream.NonEmptyChunks s.stream.writeQueue)
    (hstep : s.step l = .ok s') : TcpStream.NonEmptyChunks s'.stream.writeQueue := by
  cases moves_of_step hstep with
  | accept | connect | abandon | add | expireActivity | expireEgress | report | pop | check
  | skipWrite | read | finish | rearm | asyncWriteComplete => exact h
  | queueWrite data =>
    rw [(engineCalls_grows _ _).stream]
    simp only [TcpStream.queueWrite_writeQueue]
    split
    · exact h
    · rename_i hdata
      intro chunk hchunk
      rcases List.mem_append.mp hchunk with hchunk | hchunk
      · exact h chunk hchunk
      · exact List.mem_singleton.mp hchunk ▸ hdata
  | disconnect hdone | handleError _ _ hdone | asyncDisconnect _ hdone =>
    rcases disconnect_cases hdone with ⟨-, rfl⟩ | ⟨-, -, rfl⟩ | ⟨-, rfl⟩ <;> exact h
  | newEvent =>
    rw [(newEvent_grows _ _).stream]
    exact h
  | write hmem hout hp =>
    rw [(engineCalls_grows _ _).stream]
    exact (TcpStream.handleWrite_content h hp).1
  | asyncEgress =>
    rw [(engineCall_grows _ _).stream]
    exact h

/-! ### What They Keep -/

theorem Serves.progresses (hl : l.Serves) : Progresses l := by
  cases l with
  | write events start ws => exact fun w hw => .inl (hl w hw)
  | _ => trivial

theorem Serves.not_stalls (hl : l.Serves) : ¬ Stalls s l := by
  cases l with
  | write events start ws =>
    rintro ⟨-, w, hw, hblocked⟩
    have hpos := hl w hw
    omega
  | rearm needOut =>
    rintro ⟨hneed, -⟩
    exact Bool.false_ne_true (hneed.symm.trans hl)
  | queueWrite => exact hl.elim
  | _ => exact id

theorem Serves.not_reportsError (hl : l.Serves) : ¬ l.ReportsError := by
  cases l with
  | report events =>
    have hevents : events = ⟨true, false, false⟩ := hl
    simp [StreamStep.ReportsError, hevents]
  | _ => exact id

/-- **What the steps do to the stream**: it stays where it is, and what is written was queued. -/
theorem kept_of_serves (hl : l.Serves) (hclean : NoError s)
    (hchunks : TcpStream.NonEmptyChunks s.stream.writeQueue) (hstep : s.step l = .ok s') :
    s'.stage = s.stage ∧ s'.stream.disconnecting = s.stream.disconnecting ∧
      l.accepted + s'.stream.writeQueue.flatten.length = s.stream.writeQueue.flatten.length := by
  cases moves_of_step hstep with
  | expireEgress | report | pop | check | finish | rearm | read =>
    exact ⟨rfl, rfl, Nat.zero_add _⟩
  | @newEvent events hreport =>
    have hgrows := newEvent_grows { s with report := none } events
    rw [hgrows.stage, hgrows.stream]
    exact ⟨rfl, rfl, Nat.zero_add _⟩
  | @write events start ws p hmem hout hp =>
    have hgrows := engineCalls_grows
      { s.advance (.write events) (some (.read events)) with stream := p.stream } p.calls
    rw [hgrows.stage, hgrows.stream]
    refine ⟨rfl, (TcpStream.handleWrite_link hp).2.1, ?_⟩
    -- the kernel has accepted a part of what was queued, and the rest is queued still
    have hcontent := (TcpStream.handleWrite_content hchunks hp).2.1 fun w hw hfailed => by
      have hpos := hl w hw
      omega
    rw [← hcontent, TcpStream.Progress.content, List.length_append,
      TcpStream.handleWrite_wire_length hp]
    rfl
  | skipWrite => exact ⟨rfl, rfl, Nat.zero_add _⟩
  | handleError hmem herr =>
    exact absurd (hclean.clean (.inr (.inr (.inr hmem)))) (by rw [herr]; decide)
  | asyncEgress =>
    have hgrows := engineCall_grows (s.advance .egress none) .triggerWrites
    rw [hgrows.stage, hgrows.stream]
    exact ⟨rfl, rfl, Nat.zero_add _⟩
  | accept | connect | abandon | add | queueWrite | disconnect | expireActivity
  | asyncWriteComplete | asyncDisconnect => exact hl.elim

/-- A registered stream that is not stuck, and that no error is on its way to -/
structure Ready (s : StreamSystem) : Prop where
  live : Live s
  clean : NoError s
  chunks : TcpStream.NonEmptyChunks s.stream.writeQueue
  added : s.stage = .added

theorem ready_step (h : Ready s) (hl : l.Serves) (hstep : s.step l = .ok s') : Ready s' := by
  obtain ⟨hstage, hdisconnecting, -⟩ := kept_of_serves hl h.clean h.chunks hstep
  refine ⟨(h.live.step (Serves.progresses hl) (Serves.not_stalls hl) hstep).resolve_left ?_,
    noError_step h.clean (Serves.not_reportsError hl) hstep, chunks_step h.chunks hstep,
    hstage.trans h.added⟩
  rw [hdisconnecting, h.live.live]
  decide

/-- What the kernel accepts in a run of these steps, and what is left in the queue -/
theorem accepted_run (h : Ready s) (hms : ∀ l ∈ ms, StreamStep.Serves l)
    (hrun : runFrom step s ms = .ok s') :
    (ms.map StreamStep.accepted).sum + s'.stream.writeQueue.flatten.length =
      s.stream.writeQueue.flatten.length := by
  induction ms generalizing s with
  | nil =>
    cases hrun
    exact Nat.zero_add _
  | cons l ms ih =>
    obtain ⟨hl, hms⟩ := List.forall_mem_cons.mp hms
    obtain ⟨t, hstep, hrest⟩ := runFrom_cons_eq_ok.mp hrun
    have hfirst := (kept_of_serves hl h.clean h.chunks hstep).2.2
    have hbehind := ih (ready_step h hl hstep) hms hrest
    rw [List.map_cons, List.sum_cons]
    omega

/-! ### Whoever Has the Duty Writes -/

/-- A worker is about to call `handleWrite` on the stream as it is now. -/
def AtWrite (stream : TcpStream) (s : StreamSystem) : Prop :=
  s.stream = stream ∧ ∃ events, events.out = true ∧ .write events ∈ s.handlers

/-- The steps lead to a call of `handleWrite`. -/
def ToWrite (s : StreamSystem) : Prop := LeadsTo step StreamStep.Serves (AtWrite s.stream) s

theorem ToWrite.cons (hstep : s.step l = .ok s') (hl : l.Serves) (hstream : s'.stream = s.stream)
    (h : ToWrite s') : ToWrite s := by
  rw [ToWrite, hstream] at h
  exact LeadsTo.cons hl hstep h

theorem toWrite_here (hout : events.out = true) (hmem : .write events ∈ s.handlers) : ToWrite s :=
  LeadsTo.here ⟨rfl, events, hout, hmem⟩

theorem step_check (hregistered : s.registered = true) (hmem : .entered events ∈ s.handlers) :
    s.step (.check events) = .ok (s.advance (.entered events) (some (.write events))) := by
  simp only [step, handlerStep, if_pos hmem, hregistered, if_true]

/-- A worker has found the stream in `eventHash`. -/
theorem toWrite_entered (hregistered : s.registered = true) (hout : events.out = true)
    (hmem : .entered events ∈ s.handlers) : ToWrite s :=
  ToWrite.cons (step_check hregistered hmem) trivial rfl
    (toWrite_here hout (List.mem_cons_self ..))

/-- An event is popped, and its handler does the rest. -/
theorem toWrite_popped {event : StreamEvent} (hregistered : s.registered = true)
    (hmem : event ∈ s.eventQueue)
    (hnext : ∀ t : StreamSystem, t.registered = true → t.stream = s.stream →
      event.handler ∈ t.handlers → ToWrite t) : ToWrite s := by
  have hpopped : LeadsTo step StreamStep.Serves _ s :=
    (leadsTo_popped hmem).of_imp fun l hl => by rw [hl]; trivial
  refine hpopped.bind fun t ht => ?_
  obtain ⟨hhandler, hstream, -, hkept⟩ := ht
  have hwrite := hnext t (hkept.trans hregistered) hstream hhandler
  rwa [ToWrite, hstream] at hwrite

theorem toWrite_run (hregistered : s.registered = true) (hout : events.out = true)
    (hmem : .run events ∈ s.eventQueue) : ToWrite s :=
  toWrite_popped hregistered hmem fun _ hkept _ hhandler => toWrite_entered hkept hout hhandler

/-! ### A Stream That Waits for `EPOLLOUT` -/

theorem step_newEvent (hreport : s.report = some events) :
    s.step .newEvent = .ok ({ s with report := none }.newEvent events) := by
  simp only [step, hreport]

/-- epoll reports the socket writable. -/
theorem toWrite_armed (hregistered : s.registered = true) (harmed : s.armed = some true) :
    ToWrite s := by
  -- the epoll thread is free
  have hfree : ∀ t : StreamSystem, t.registered = true → t.armed = some true → t.report = none →
      ToWrite t := by
    intro t hregistered harmed hreport
    let reported : StreamSystem := { t with armed := none, report := some ⟨true, false, false⟩ }
    have hstep : t.step (.report ⟨true, false, false⟩) = .ok reported := by
      simp [step, harmed, hreport, reported]
    have hnew := step_newEvent (s := reported) rfl
    have hgrows := newEvent_grows { reported with report := none } ⟨true, false, false⟩
    apply ToWrite.cons hstep rfl rfl
    apply ToWrite.cons hnew trivial hgrows.stream
    exact toWrite_run (hgrows.registered.trans hregistered) rfl (newEvent_mem hregistered)
  cases hreport : s.report with
  | none => exact hfree s hregistered harmed hreport
  | some events =>
    have hgrows := newEvent_grows { s with report := none } events
    apply ToWrite.cons (step_newEvent hreport) trivial hgrows.stream
    exact hfree _ (hgrows.registered.trans hregistered) (hgrows.armed.trans harmed) hgrows.report

theorem toWrite_rearm (hregistered : s.registered = true) (hmem : .rearm true ∈ s.handlers) :
    ToWrite s := by
  have hstep : s.step (.rearm true) =
      .ok { s.advance (.rearm true) none with armed := some true } := by
    simp only [step, handlerStep, if_pos hmem]
    exact if_pos hregistered
  exact ToWrite.cons hstep rfl rfl (toWrite_armed hregistered rfl)

/-- A worker behind `handleRead` computes a mask with `EPOLLOUT`. -/
theorem toWrite_finish (hregistered : s.registered = true)
    (hwaiting : s.stream.waitingOutEvent = true) (hclean : events.err = false)
    (hmem : .finish events ∈ s.handlers) : ToWrite s := by
  have hstep : s.step (.finish events) =
      .ok (s.advance (.finish events) (some (.rearm true))) := by
    simp only [step, handlerStep, if_pos hmem, hclean, Bool.false_eq_true, if_false, hwaiting]
  exact ToWrite.cons hstep trivial rfl (toWrite_rearm hregistered (List.mem_cons_self ..))

theorem toWrite_read (hregistered : s.registered = true)
    (hwaiting : s.stream.waitingOutEvent = true) (hclean : events.err = false)
    (hmem : .read events ∈ s.handlers) : ToWrite s := by
  have hstep : s.step (.read events false) =
      .ok (s.advance (.read events) (some (.finish events))) := by
    simp only [step, handlerStep, if_pos hmem, Bool.false_eq_true, and_false, if_false]
  exact ToWrite.cons hstep rfl rfl
    (toWrite_finish hregistered hwaiting hclean (List.mem_cons_self ..))

/-- A worker in front of `handleWrite` calls it, or arms the registration. -/
theorem toWrite_write (hregistered : s.registered = true)
    (hwaiting : s.stream.waitingOutEvent = true) (hclean : events.err = false)
    (hmem : .write events ∈ s.handlers) : ToWrite s := by
  cases hout : events.out with
  | true => exact toWrite_here hout hmem
  | false =>
    have hstep : s.step (.write events 0 []) =
        .ok (s.advance (.write events) (some (.read events))) := by
      simp only [step, handlerStep, if_pos hmem, hout, Bool.false_eq_true, if_false, if_true]
    have hnone : StreamStep.Serves (.write events 0 []) := fun w hw => by cases hw
    exact ToWrite.cons hstep hnone rfl
      (toWrite_read hregistered hwaiting hclean (List.mem_cons_self ..))

theorem toWrite_willArm {h : Handler} (hregistered : s.registered = true)
    (hwaiting : s.stream.waitingOutEvent = true) (hclean : h.Clean) (harm : h.WillArm)
    (hmem : h ∈ s.handlers) : ToWrite s := by
  cases h with
  | entered events =>
    exact ToWrite.cons (step_check hregistered hmem) trivial rfl
      (toWrite_write hregistered hwaiting hclean (List.mem_cons_self ..))
  | write events => exact toWrite_write hregistered hwaiting hclean hmem
  | read events => exact toWrite_read hregistered hwaiting hclean hmem
  | finish events => exact toWrite_finish hregistered hwaiting hclean hmem
  | rearm needOut =>
    rw [show needOut = true from harm] at hmem
    exact toWrite_rearm hregistered hmem
  | notifyWriteComplete | activity | egress => exact harm.elim

/-- A worker pops an event of epoll, and arms the registration behind it. -/
theorem toWrite_runAny (hregistered : s.registered = true)
    (hwaiting : s.stream.waitingOutEvent = true) (hclean : events.err = false)
    (hmem : .run events ∈ s.eventQueue) : ToWrite s := by
  refine toWrite_popped hregistered hmem fun t hkept hstream hhandler => ?_
  rw [← hstream] at hwaiting
  exact toWrite_willArm (h := .entered events) hkept hwaiting hclean trivial hhandler

/-- **Whoever arms the registration**: a stream that waits for `EPOLLOUT` is written to. -/
theorem toWrite_outDuty (hregistered : s.registered = true)
    (hwaiting : s.stream.waitingOutEvent = true) (hclean : NoError s) (hduty : OutDuty s) :
    ToWrite s := by
  rcases hduty with harmed | hreport | ⟨events, hmem⟩ | ⟨h, hmem, harm⟩
  · exact toWrite_armed hregistered harmed
  · obtain ⟨events, hreport⟩ := Option.ne_none_iff_exists'.mp hreport
    have hgrows := newEvent_grows { s with report := none } events
    apply ToWrite.cons (step_newEvent hreport) trivial hgrows.stream
    apply toWrite_runAny (hgrows.registered.trans hregistered) _ (hclean.report events hreport)
      (newEvent_mem hregistered)
    rw [hgrows.stream]
    exact hwaiting
  · exact toWrite_runAny hregistered hwaiting (hclean.queued events hmem) hmem
  · exact toWrite_willArm hregistered hwaiting (hclean.handlers h hmem) harm hmem

/-! ### A Stream That Is Triggered -/

/-- A worker inside `asyncEgress` triggers the event. -/
theorem toWrite_egress (hregistered : s.registered = true)
    (htriggered : s.stream.writeTriggered = true) (hmem : .egress ∈ s.handlers) : ToWrite s := by
  have hstep : s.step .asyncEgress =
      .ok ((s.advance .egress none).newEvent ⟨true, false, false⟩) := by
    simp only [step, handlerStep, if_pos hmem]
    exact if_pos htriggered
  have hgrows := newEvent_grows (s.advance .egress none) ⟨true, false, false⟩
  apply ToWrite.cons hstep trivial hgrows.stream
  exact toWrite_run (hgrows.registered.trans hregistered) rfl (newEvent_mem hregistered)

theorem toWrite_egressEvent (hregistered : s.registered = true)
    (htriggered : s.stream.writeTriggered = true) (hmem : .egress ∈ s.eventQueue) : ToWrite s := by
  refine toWrite_popped hregistered hmem fun t hkept hstream hhandler => ?_
  rw [← hstream] at htriggered
  exact toWrite_egress hkept htriggered hhandler

/-- **Whoever has the token**: a stream that is triggered is written to. -/
theorem toWrite_token (hregistered : s.registered = true)
    (htriggered : s.stream.writeTriggered = true) (htoken : Token s) : ToWrite s := by
  rcases htoken with ⟨events, hout, hmem⟩ | htimer | hmem | ⟨h, hmem, hwrite⟩
  · exact toWrite_run hregistered hout hmem
  · have hstep : s.step .expireEgress =
        .ok { s with egressTimer := false, eventQueue := s.eventQueue ++ [.egress] } := by
      simp only [step, htimer, if_true]
    apply ToWrite.cons hstep trivial rfl
    exact toWrite_egressEvent hregistered htriggered
      (List.mem_append_right _ (List.mem_singleton_self _))
  · exact toWrite_egressEvent hregistered htriggered hmem
  · cases h with
    | entered events => exact toWrite_entered hregistered hwrite hmem
    | write events => exact toWrite_here hwrite hmem
    | egress => exact toWrite_egress hregistered htriggered hmem
    | read | finish | rearm | notifyWriteComplete | activity => exact hwrite.elim

/-- **The next call**: whatever a stream waits for, `handleWrite` is called. -/
theorem Ready.toWrite (h : Ready s) (hqueue : s.stream.writeQueue ≠ []) : ToWrite s := by
  have hregistered := h.live.registered h.added
  have hwaits : s.stream.waitingOutEvent = true → ToWrite s := fun hwaiting =>
    toWrite_outDuty hregistered hwaiting h.clean (h.live.outDuty h.added hwaiting)
  have htriggers : s.stream.writeTriggered = true → ToWrite s := fun htriggered =>
    (h.live.token htriggered).elim (toWrite_token hregistered htriggered) hwaits
  cases hconnected : s.stream.connected with
  | false =>
    -- `EPOLLOUT` tells that the stream is connected
    exact hwaits (TcpStream.waitingOutEvent_eq_true_iff.mpr
      ⟨.inr (.inr hconnected), h.live.live, .inl hconnected⟩)
  | true =>
    rcases h.live.pending hconnected hqueue with hblocked | htriggered | hwaiting
    · by_cases hrate : s.stream.egressRate = 0
      · exact hwaits (TcpStream.waitingOutEvent_eq_true_iff.mpr
          ⟨.inl hblocked, h.live.live, .inr hrate⟩)
      · exact htriggers ((h.live.limited hrate).2 hblocked)
    · exact htriggers htriggered
    · exact hwaits hwaiting

/-! ## The Queue Runs Empty -/

/-- **Progress**: one call of `handleWrite` fewer is left. -/
theorem Ready.progress (h : Ready s) (hqueue : s.stream.writeQueue ≠ []) :
    LeadsTo step StreamStep.Serves
      (fun t => Ready t ∧ t.stream.callsLeft < s.stream.callsLeft) s := by
  refine ((h.toWrite hqueue).keeping Ready ready_step h).bind fun t ht => ?_
  obtain ⟨hready, hstream, events, hout, hmem⟩ := ht
  obtain ⟨ws, p, hws, hp, hfewer⟩ :=
    TcpStream.exists_handleWrite 0 hready.chunks (hstream.symm ▸ hqueue)
  let written : StreamSystem :=
    { t.advance (.write events) (some (.read events)) with stream := p.stream }
  have hstep : t.step (.write events 0 ws) = .ok (written.engineCalls p.calls) := by
    simp only [step, handlerStep, if_pos hmem, hout, if_true]
    show (t.stream.handleWrite 0 ws >>= _) = _
    rw [hp, ok_bind]
  have hserves : StreamStep.Serves (.write events 0 ws) := hws
  refine LeadsTo.cons hserves hstep (LeadsTo.here ⟨ready_step hready hserves hstep, ?_⟩)
  rw [(engineCalls_grows written p.calls).stream, ← hstream]
  exact hfewer

theorem Ready.drains (h : Ready s) :
    LeadsTo step StreamStep.Serves (fun t => Ready t ∧ t.stream.writeQueue = []) s :=
  LeadsTo.of_measure Ready (fun t => t.stream.callsLeft) (fun _ hready => hready.progress) h

/-! ## Runs -/

theorem ready_of_run (hprogresses : ∀ l ∈ ls, Progresses l)
    (hstalls : AllSteps step (fun s l => ¬ Stalls s l) (init kind) ls)
    (hclean : ∀ l ∈ ls, ¬ l.ReportsError) (hrun : runFrom step (init kind) ls = .ok s)
    (hadded : s.stage = .added) (hlive : s.stream.disconnecting = false) : Ready s := by
  have hinv := AllSteps.invariant
    (fun s => (s.stream.disconnecting = true ∨ Live s) ∧ NoError s ∧
      TcpStream.NonEmptyChunks s.stream.writeQueue)
    (fun h hC hstep => ⟨h.1.elim (fun hdone => Or.inl (disconnecting_step hdone hstep))
      fun hlive => hlive.step hC.1.1 hC.1.2 hstep, noError_step h.2.1 hC.2 hstep,
      chunks_step h.2.2 hstep⟩)
    ⟨Or.inr (live_init kind), noError_init, fun chunk hmem => (by cases hmem)⟩
    (((AllSteps.of_forall_mem hprogresses).and hstalls).and (AllSteps.of_forall_mem hclean)) hrun
  obtain ⟨hstate, hclean, hchunks⟩ := hinv
  exact ⟨hstate.resolve_left (by rw [hlive]; decide), hclean, hchunks, hadded⟩

/-- **Run**: in every run that drops no duty and sees no error, a registered stream that is not
disconnecting can be drained: steps of the kernel, the epoll thread, the egress timer and the
workers write all that is queued, and nothing else. -/
theorem delivered_of_run (hprogresses : ∀ l ∈ ls, Progresses l)
    (hstalls : AllSteps step (fun s l => ¬ Stalls s l) (init kind) ls)
    (hclean : ∀ l ∈ ls, ¬ l.ReportsError) (hrun : runFrom step (init kind) ls = .ok s)
    (hadded : s.stage = .added) (hlive : s.stream.disconnecting = false) :
    ∃ ms t, (∀ l ∈ ms, StreamStep.Serves l) ∧ runFrom step s ms = .ok t ∧
      t.stream.writeQueue = [] ∧ t.stream.disconnecting = false ∧
      (ms.map StreamStep.accepted).sum = s.stream.writeQueue.flatten.length := by
  have hready := ready_of_run hprogresses hstalls hclean hrun hadded hlive
  obtain ⟨ms, t, hms, hserved, ht, hempty⟩ := hready.drains
  refine ⟨ms, t, hms, hserved, hempty, ht.live.live, ?_⟩
  have haccepted := accepted_run hready hms hserved
  rw [hempty] at haccepted
  exact haccepted

/-- The kernel has taken one byte of the first chunk, and would block. -/
theorem delivered_outgoing_would_block : ∃ s,
    runFrom step (init .outgoing) [.connect 0, .add, .queueWrite [1, 2], .queueWrite [3], .pop,
      .check ⟨true, false, false⟩,
      .write ⟨true, false, false⟩ 0 [⟨1, .other 0, 1⟩, ⟨-1, .EAGAIN, 1⟩],
      .read ⟨true, false, false⟩ false, .finish ⟨true, false, false⟩, .rearm true] = .ok s ∧
    s.stream.writeQueue = [[2], [3]] ∧
    ∃ ms t, (∀ l ∈ ms, StreamStep.Serves l) ∧ runFrom step s ms = .ok t ∧
      t.stream.writeQueue = [] ∧ t.stream.disconnecting = false ∧
      (ms.map StreamStep.accepted).sum = s.stream.writeQueue.flatten.length := by
  obtain ⟨s, hrun, hadded, hlive, hqueue⟩ : ∃ s,
      runFrom step (init .outgoing) [.connect 0, .add, .queueWrite [1, 2], .queueWrite [3], .pop,
        .check ⟨true, false, false⟩,
        .write ⟨true, false, false⟩ 0 [⟨1, .other 0, 1⟩, ⟨-1, .EAGAIN, 1⟩],
        .read ⟨true, false, false⟩ false, .finish ⟨true, false, false⟩, .rearm true] = .ok s ∧
      s.stage = .added ∧ s.stream.disconnecting = false ∧ s.stream.writeQueue = [[2], [3]] := by
    decide +kernel
  refine ⟨s, hrun, hqueue, delivered_of_run (by decide) (by decide) ?_ hrun hadded hlive⟩
  simp [StreamStep.ReportsError]

end StreamSystem

end Epoller
