import Epoller.TcpStream
import Epoller.Foundation.LeadsTo

/-!
# A Stream in the Engine

One `TcpStream` with everything that can run for it: the steps of `create`, its
events in `eventQueue`, its timers, its one-shot registration with epoll, and the
workers that are inside one of its handlers. `writeLock`, `evHashLock` and
`eqLock` make each step atomic; `Engine::run` takes several steps, between which
other workers, the epoll thread and clients may move.

- `StreamEvent`, `Handler`: what is queued and what is running
- `StreamSystem`, `StreamStep`: the states and the labels
- `StreamSystem.step`: the machine
- `StreamSystem.Moves`, `moves_of_step`: everything a step can do
-/

namespace Epoller

open Foundation

/-! ## Events and Handlers -/

/-- The bits of an epoll event: `EPOLLOUT`, `EPOLLIN`, and `EPOLLRDHUP` or `EPOLLERR`. -/
structure EpollEvents where
  out : Bool
  inp : Bool
  err : Bool
deriving DecidableEq, Repr

/-- An event for the stream in `eventQueue`. -/
inductive StreamEvent where
  /-- `Engine::run(sock, events)` -/
  | run (events : EpollEvents)
  | notifyWriteComplete
  | activity
  | egress
deriving DecidableEq, Repr

/-- A worker that has popped an event for the stream, and what it does next. -/
inductive Handler where
  /-- the look-up in `eventHash` at the start of `Engine::run` -/
  | entered (events : EpollEvents)
  /-- `handleWrite` -/
  | write (events : EpollEvents)
  /-- `handleRead` -/
  | read (events : EpollEvents)
  /-- `handleError` or `waitingOutEvent` -/
  | finish (events : EpollEvents)
  /-- `epoll_ctl(EPOLL_CTL_MOD)` -/
  | rearm (needOut : Bool)
  | notifyWriteComplete
  | activity
  | egress
deriving DecidableEq, Repr

/-- The handler that runs an event. -/
def StreamEvent.handler : StreamEvent → Handler
  | run events => .entered events
  | notifyWriteComplete => .notifyWriteComplete
  | activity => .activity
  | egress => .egress

/-! ## States -/

/-- Which `create` made the stream. -/
inductive Kind where
  | accepted
  | outgoing
deriving DecidableEq, Repr

/-- How far `create` is. -/
inductive Stage where
  /-- `client->tcpStream` is assigned: the client can see the stream. -/
  | attached
  /-- Before `Engine::add` -/
  | prepared
  | added
  /-- `connect` has failed, and `create` has returned. -/
  | abandoned
deriving DecidableEq, Repr

/-- The stream and what the engine holds for it. -/
structure StreamSystem where
  kind : Kind
  stage : Stage
  stream : TcpStream
  /-- The stream is in `eventHash`. -/
  registered : Bool
  eventQueue : List StreamEvent
  activityTimer : Bool
  egressTimer : Bool
  /-- The registration with epoll: not armed, or armed without or with `EPOLLOUT` -/
  armed : Option Bool
  /-- A report that `epoll_wait` has returned and the epoll thread has not queued yet -/
  report : Option EpollEvents
  handlers : List Handler
deriving DecidableEq, Repr

/-- A step of `create`, a client, the epoll thread or a worker. -/
inductive StreamStep where
  /-- `create(client, fd)` up to `Engine::add` -/
  | accept
  /-- `create(client, dest)` up to `Engine::add`; `err` is what `Socket::connect` returned. -/
  | connect (err : ℤ)
  /-- `Engine::add` -/
  | add
  | queueWrite (data : Bytes)
  | disconnect
  /-- `Engine::handleTimerExpired` queues the event of a timer. -/
  | expireActivity
  | expireEgress
  /-- `epoll_wait` returns a report. -/
  | report (events : EpollEvents)
  /-- `newEvent` for the report -/
  | newEvent
  /-- A worker pops the next event for the stream. -/
  | pop
  | check (events : EpollEvents)
  | write (events : EpollEvents) (start : TimePointNs) (ws : List WriteCall)
  /-- `handleRead`, which may have received something -/
  | read (events : EpollEvents) (received : Bool)
  | finish (events : EpollEvents)
  | rearm (needOut : Bool)
  | asyncWriteComplete
  | asyncDisconnect
  | asyncEgress
deriving DecidableEq, Repr

namespace StreamSystem

/-- A stream that was just made. -/
def init (kind : Kind) : StreamSystem where
  kind
  stage := .attached
  stream := .fresh
  registered := false
  eventQueue := []
  activityTimer := false
  egressTimer := false
  armed := none
  report := none
  handlers := []

/-! ## Parts of the Steps -/

/-- `Engine::newEvent`: an event for a stream that is not in `eventHash` is dropped. -/
def newEvent (s : StreamSystem) (events : EpollEvents) : StreamSystem :=
  if s.registered = true then { s with eventQueue := s.eventQueue ++ [.run events] } else s

/-- A call of the stream into the engine. -/
def engineCall (s : StreamSystem) : EngineCall → StreamSystem
  | .setActivity => { s with activityTimer := true }
  | .setEgress _ => { s with egressTimer := true }
  | .triggerWrites => s.newEvent ⟨true, false, false⟩
  | .runWriteComplete => { s with eventQueue := s.eventQueue ++ [.notifyWriteComplete] }

def engineCalls (s : StreamSystem) (calls : List EngineCall) : StreamSystem :=
  calls.foldl engineCall s

/-- `TcpStream::disconnect` with `Engine::remove`; the weak pointer `self` is set by
`Engine::add`. -/
def disconnect (s : StreamSystem) : Except StreamHalt StreamSystem :=
  if s.stream.disconnecting = true then .ok s
  else
    let s := { s with stream := { s.stream with disconnecting := true } }
    if s.stage = .added then
      if s.registered = true then
        .ok { s with registered := false, activityTimer := false, egressTimer := false }
      else .error .notFoundForRemoval
    else .ok s

/-- The worker inside `h` goes on with `next`, or is done. -/
def advance (s : StreamSystem) (h : Handler) (next : Option Handler) : StreamSystem :=
  { s with handlers := next.toList ++ s.handlers.erase h }

/-! ## Steps -/

/-- What a worker inside the handler `h` does. -/
def handlerStep (s : StreamSystem) (h : Handler)
    (body : Except StreamHalt StreamSystem) : Except StreamHalt StreamSystem :=
  if h ∈ s.handlers then body else .error .disabled

def step (s : StreamSystem) : StreamStep → Except StreamHalt StreamSystem
  | .accept =>
    if s.kind = .accepted ∧ s.stage = .attached then
      .ok { s with
        stage := .prepared
        stream := { s.stream with connected := true, egressRate := TcpStream.ACCEPTED_EGRESS_RATE }
        eventQueue := s.eventQueue ++ [.notifyWriteComplete] }
    else .error .disabled
  | .connect err =>
    if s.kind = .outgoing ∧ s.stage = .attached then
      if 0 ≤ err then
        .ok { s with
          stage := .prepared
          stream := { s.stream with connected := true }
          activityTimer := true }
      else if err = -1 then
        .ok { s with
          stage := .prepared
          stream := { s.stream with connected := false }
          activityTimer := true }
      else .ok { s with stage := .abandoned }
    else .error .disabled
  | .add =>
    if s.stage = .prepared then
      .ok { s with stage := .added, registered := true, armed := some s.stream.waitingOutEvent }
    else .error .disabled
  -- any thread may call these two, at any time
  | .queueWrite data =>
    let (stream, calls) := s.stream.queueWrite data
    .ok ({ s with stream }.engineCalls calls)
  | .disconnect => s.disconnect
  | .expireActivity =>
    if s.activityTimer = true then
      .ok { s with activityTimer := false, eventQueue := s.eventQueue ++ [.activity] }
    else .error .disabled
  | .expireEgress =>
    if s.egressTimer = true then
      .ok { s with egressTimer := false, eventQueue := s.eventQueue ++ [.egress] }
    else .error .disabled
  | .report events =>
    -- a report disarms the one-shot registration, and the epoll thread holds one report at a time
    if s.armed ≠ none ∧ s.report = none ∧ (events.out = true → s.armed = some true) then
      .ok { s with armed := none, report := some events }
    else .error .disabled
  | .newEvent =>
    match s.report with
    | some events => .ok ({ s with report := none }.newEvent events)
    | none => .error .disabled
  | .pop =>
    match s.eventQueue with
    | event :: rest => .ok { s with eventQueue := rest, handlers := event.handler :: s.handlers }
    | [] => .error .disabled
  | .check events =>
    s.handlerStep (.entered events)
      (.ok (s.advance (.entered events)
        (if s.registered = true then some (.write events) else none)))
  | .write events start ws =>
    s.handlerStep (.write events) <|
      let s := s.advance (.write events) (some (.read events))
      if events.out = true then do
        let p ← s.stream.handleWrite start ws
        .ok ({ s with stream := p.stream }.engineCalls p.calls)
      else if ws = [] then .ok s
      else .error .disabled
  | .read events received =>
    s.handlerStep (.read events) <|
      let s := s.advance (.read events) (some (.finish events))
      if events.inp = true ∧ received = true then .ok (s.engineCall .setActivity) else .ok s
  | .finish events =>
    s.handlerStep (.finish events) <|
      -- the mask for the re-arm is computed here, and used one step later
      if events.err = true then (s.advance (.finish events) none).disconnect
      else .ok (s.advance (.finish events) (some (.rearm s.stream.waitingOutEvent)))
  | .rearm needOut =>
    s.handlerStep (.rearm needOut) <|
      let s := s.advance (.rearm needOut) none
      -- a stream that was removed meanwhile stays disarmed
      if s.registered = true then .ok { s with armed := some needOut } else .ok s
  | .asyncWriteComplete =>
    s.handlerStep .notifyWriteComplete (.ok (s.advance .notifyWriteComplete none))
  | .asyncDisconnect =>
    s.handlerStep .activity (s.advance .activity none).disconnect
  | .asyncEgress =>
    s.handlerStep .egress <|
      let s := s.advance .egress none
      if s.stream.writeTriggered = true then .ok (s.engineCall .triggerWrites)
      else .error .notTriggered

/-! ## What a Step Does -/

variable {s s' : StreamSystem}

/-- **Specification of `step`**: everything a step can do. -/
inductive Moves (s : StreamSystem) : StreamStep → StreamSystem → Prop where
  | accept (hkind : s.kind = .accepted) (hstage : s.stage = .attached) :
      Moves s .accept { s with
        stage := .prepared
        stream := { s.stream with connected := true, egressRate := TcpStream.ACCEPTED_EGRESS_RATE }
        eventQueue := s.eventQueue ++ [.notifyWriteComplete] }
  /-- `Socket::connect` has connected the stream, or is still at it. -/
  | connect {err : ℤ} (hkind : s.kind = .outgoing) (hstage : s.stage = .attached)
      (herr : -1 ≤ err) :
      Moves s (.connect err) { s with
        stage := .prepared
        stream := { s.stream with connected := decide (0 ≤ err) }
        activityTimer := true }
  /-- `Socket::connect` has failed. -/
  | abandon {err : ℤ} (hkind : s.kind = .outgoing) (hstage : s.stage = .attached)
      (herr : err < -1) : Moves s (.connect err) { s with stage := .abandoned }
  | add (hstage : s.stage = .prepared) :
      Moves s .add { s with
        stage := .added, registered := true, armed := some s.stream.waitingOutEvent }
  | queueWrite (data : Bytes) :
      Moves s (.queueWrite data) ({ s with stream := (s.stream.queueWrite data).1 }.engineCalls
        (s.stream.queueWrite data).2)
  | disconnect {t : StreamSystem} (hdone : s.disconnect = .ok t) : Moves s .disconnect t
  | expireActivity (htimer : s.activityTimer = true) :
      Moves s .expireActivity
        { s with activityTimer := false, eventQueue := s.eventQueue ++ [.activity] }
  | expireEgress (htimer : s.egressTimer = true) :
      Moves s .expireEgress
        { s with egressTimer := false, eventQueue := s.eventQueue ++ [.egress] }
  | report {events : EpollEvents} (harmed : s.armed ≠ none) (hreport : s.report = none)
      (hout : events.out = true → s.armed = some true) :
      Moves s (.report events) { s with armed := none, report := some events }
  | newEvent {events : EpollEvents} (hreport : s.report = some events) :
      Moves s .newEvent ({ s with report := none }.newEvent events)
  | pop {event : StreamEvent} {rest : List StreamEvent} (hqueue : s.eventQueue = event :: rest) :
      Moves s .pop { s with eventQueue := rest, handlers := event.handler :: s.handlers }
  | check {events : EpollEvents} (hmem : .entered events ∈ s.handlers) :
      Moves s (.check events) (s.advance (.entered events)
        (if s.registered = true then some (.write events) else none))
  | write {events : EpollEvents} {start : TimePointNs} {ws : List WriteCall}
      {p : TcpStream.Progress} (hmem : .write events ∈ s.handlers) (hout : events.out = true)
      (hp : s.stream.handleWrite start ws = .ok p) :
      Moves s (.write events start ws)
        ({ s.advance (.write events) (some (.read events)) with stream := p.stream }.engineCalls
          p.calls)
  /-- An event without `EPOLLOUT` does not call `handleWrite`. -/
  | skipWrite {events : EpollEvents} {start : TimePointNs} (hmem : .write events ∈ s.handlers)
      (hout : ¬ events.out = true) :
      Moves s (.write events start []) (s.advance (.write events) (some (.read events)))
  | read {events : EpollEvents} {received : Bool} (hmem : .read events ∈ s.handlers) :
      Moves s (.read events received)
        { s.advance (.read events) (some (.finish events)) with
          activityTimer := s.activityTimer || (events.inp && received) }
  | finish {events : EpollEvents} (hmem : .finish events ∈ s.handlers)
      (herr : ¬ events.err = true) :
      Moves s (.finish events)
        (s.advance (.finish events) (some (.rearm s.stream.waitingOutEvent)))
  | handleError {events : EpollEvents} {t : StreamSystem} (hmem : .finish events ∈ s.handlers)
      (herr : events.err = true) (hdone : (s.advance (.finish events) none).disconnect = .ok t) :
      Moves s (.finish events) t
  | rearm {needOut : Bool} (hmem : .rearm needOut ∈ s.handlers) :
      Moves s (.rearm needOut) { s.advance (.rearm needOut) none with
        armed := if s.registered = true then some needOut else s.armed }
  | asyncWriteComplete (hmem : .notifyWriteComplete ∈ s.handlers) :
      Moves s .asyncWriteComplete (s.advance .notifyWriteComplete none)
  | asyncDisconnect {t : StreamSystem} (hmem : .activity ∈ s.handlers)
      (hdone : (s.advance .activity none).disconnect = .ok t) : Moves s .asyncDisconnect t
  | asyncEgress (hmem : .egress ∈ s.handlers) (htriggered : s.stream.writeTriggered = true) :
      Moves s .asyncEgress ((s.advance .egress none).engineCall .triggerWrites)

theorem handlerStep_eq_ok_iff {h : Handler} {body : Except StreamHalt StreamSystem} :
    s.handlerStep h body = .ok s' ↔ h ∈ s.handlers ∧ body = .ok s' := by
  unfold handlerStep
  split <;> simp [*]

theorem moves_of_step {l : StreamStep} (hstep : s.step l = .ok s') : Moves s l s' := by
  cases l with
  | accept =>
    simp only [step] at hstep
    split at hstep <;> cases hstep
    rename_i hready
    exact .accept hready.1 hready.2
  | connect err =>
    simp only [step] at hstep
    split at hstep
    · rename_i hready
      split at hstep
      · rename_i herr
        cases hstep
        have hmove := Moves.connect hready.1 hready.2 (by omega : -1 ≤ err)
        rwa [decide_eq_true herr] at hmove
      · rename_i hneg
        split at hstep <;> cases hstep
        · rename_i herr
          have hmove := Moves.connect hready.1 hready.2 herr.ge
          rwa [decide_eq_false hneg] at hmove
        · exact .abandon hready.1 hready.2 (by omega)
    · cases hstep
  | add =>
    simp only [step] at hstep
    split at hstep <;> cases hstep
    rename_i hready
    exact .add hready
  | queueWrite data =>
    cases hstep
    exact .queueWrite data
  | disconnect => exact .disconnect hstep
  | expireActivity =>
    simp only [step] at hstep
    split at hstep <;> cases hstep
    rename_i htimer
    exact .expireActivity htimer
  | expireEgress =>
    simp only [step] at hstep
    split at hstep <;> cases hstep
    rename_i htimer
    exact .expireEgress htimer
  | report events =>
    simp only [step] at hstep
    split at hstep <;> cases hstep
    rename_i hready
    exact .report hready.1 hready.2.1 hready.2.2
  | newEvent =>
    simp only [step] at hstep
    split at hstep <;> cases hstep
    rename_i hreport
    exact .newEvent hreport
  | pop =>
    simp only [step] at hstep
    split at hstep <;> cases hstep
    rename_i hqueue
    exact .pop hqueue
  | check events =>
    obtain ⟨hmem, hbody⟩ := handlerStep_eq_ok_iff.mp hstep
    cases hbody
    exact .check hmem
  | write events start ws =>
    obtain ⟨hmem, hbody⟩ := handlerStep_eq_ok_iff.mp hstep
    simp only at hbody
    split at hbody
    · rename_i hout
      obtain ⟨p, hp, hs'⟩ := bind_eq_ok_iff.mp hbody
      cases hs'
      exact .write hmem hout hp
    · rename_i hout
      split at hbody <;> cases hbody
      rename_i hws
      subst hws
      exact .skipWrite hmem hout
  | read events received =>
    obtain ⟨hmem, hbody⟩ := handlerStep_eq_ok_iff.mp hstep
    have hmove : Moves s (.read events received) _ := .read hmem
    simp only at hbody
    split at hbody <;> cases hbody
    · rename_i hreceived
      have htimer : (s.activityTimer || (events.inp && received)) = true := by simp [hreceived]
      rwa [htimer] at hmove
    · rename_i hnone
      have htimer : (s.activityTimer || (events.inp && received)) = s.activityTimer := by
        simpa using fun hinp hreceived => absurd ⟨hinp, hreceived⟩ hnone
      rwa [htimer] at hmove
  | finish events =>
    obtain ⟨hmem, hbody⟩ := handlerStep_eq_ok_iff.mp hstep
    split at hbody
    · rename_i herr
      exact .handleError hmem herr hbody
    · rename_i herr
      cases hbody
      exact .finish hmem herr
  | rearm needOut =>
    obtain ⟨hmem, hbody⟩ := handlerStep_eq_ok_iff.mp hstep
    have hmove := Moves.rearm hmem
    simp only at hbody
    split at hbody <;> cases hbody
    · rename_i hregistered
      rwa [if_pos (show s.registered = true from hregistered)] at hmove
    · rename_i hgone
      rwa [if_neg (show ¬ s.registered = true from hgone)] at hmove
  | asyncWriteComplete =>
    obtain ⟨hmem, hbody⟩ := handlerStep_eq_ok_iff.mp hstep
    cases hbody
    exact .asyncWriteComplete hmem
  | asyncDisconnect =>
    obtain ⟨hmem, hbody⟩ := handlerStep_eq_ok_iff.mp hstep
    exact .asyncDisconnect hmem hbody
  | asyncEgress =>
    obtain ⟨hmem, hbody⟩ := handlerStep_eq_ok_iff.mp hstep
    simp only at hbody
    split at hbody <;> cases hbody
    rename_i htriggered
    exact .asyncEgress hmem htriggered

/-- What a `disconnect` that returns did -/
theorem disconnect_cases (hdone : s.disconnect = .ok s') :
    (s.stream.disconnecting = true ∧ s' = s) ∨
    (s.stage = .added ∧ s.registered = true ∧
      s' = { s with
        stream := { s.stream with disconnecting := true }
        registered := false
        activityTimer := false
        egressTimer := false }) ∨
    (s.stage ≠ .added ∧ s' = { s with stream := { s.stream with disconnecting := true } }) := by
  unfold disconnect at hdone
  split at hdone
  · rename_i hbefore
    cases hdone
    exact Or.inl ⟨hbefore, rfl⟩
  · simp only at hdone
    split at hdone
    · rename_i hstage
      split at hdone <;> cases hdone
      rename_i hregistered
      exact Or.inr (Or.inl ⟨hstage, hregistered, rfl⟩)
    · rename_i hstage
      cases hdone
      exact Or.inr (Or.inr ⟨hstage, rfl⟩)

theorem disconnect_disconnecting (hdone : s.disconnect = .ok s') :
    s'.stream.disconnecting = true := by
  rcases disconnect_cases hdone with ⟨hbefore, rfl⟩ | ⟨-, -, rfl⟩ | ⟨-, rfl⟩
  · exact hbefore
  · rfl
  · rfl

/-- The workers reach every event that is queued. -/
theorem leadsTo_popped {event : StreamEvent} (hmem : event ∈ s.eventQueue) :
    LeadsTo step (fun l => l = .pop) (fun t => event.handler ∈ t.handlers ∧
      t.stream = s.stream ∧ t.stage = s.stage ∧ t.registered = s.registered) s := by
  induction hqueue : s.eventQueue generalizing s with
  | nil =>
    rw [hqueue] at hmem
    cases hmem
  | cons first rest ih =>
    have hstep : s.step .pop =
        .ok { s with eventQueue := rest, handlers := first.handler :: s.handlers } := by
      simp only [step, hqueue]
    refine LeadsTo.cons rfl hstep ?_
    by_cases hfirst : first = event
    · subst hfirst
      exact LeadsTo.here ⟨List.mem_cons_self .., rfl, rfl, rfl⟩
    · rw [hqueue] at hmem
      exact ih ((List.mem_cons.mp hmem).resolve_left (Ne.symm hfirst)) rfl

end StreamSystem

end Epoller
