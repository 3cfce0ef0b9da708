import Epoller.TcpStream.System
import Epoller.Foundation.Cursor
import Epoller.Foundation.UnorderedMap

/-!
# Event Ids

The sockets of the engine, with what `eventHash` and epoll hold of them. Epoll knows
a socket by its descriptor, which is used again once the socket is closed, and gives
back its `evId`, which stands for the socket in every report until `Engine::newEvent`
finds it in `eventHash`. Reports lie about for as long as they like. What the code
does not keep is recorded beside it: the socket that was registered when an event was
raised, and the one that was registered when `Engine::run` checked.

## Contents

- `EventIds`, `SocketStep`, `EventIds.step`: the machine
- `Moves`, `moves_of_step`: everything a step can do
- `Distinct`, `Rightful`: the ids, and the calls of the handlers
- `rightful_of_run`: both hold as long as `evCounter` has not come round
- `not_distinct_wrapped`: and not when it has
-/

namespace Epoller

open Foundation

/-! ## States -/

/-- A socket, by the order in which the sockets are made -/
abbrev SocketPtr := ℕ

/-- The id that stands for the timer. -/
def timerEvId : UInt64 := 0

/-- `Socket`; `evId` is set by `doAdd`. -/
structure SocketIds where
  fd : ℕ
  evId : Option UInt64
  /-- The destructor has closed the descriptor. -/
  closed : Bool
deriving DecidableEq, Repr

/-- A report of epoll, or what `triggerWrites` makes of its argument. -/
structure RaisedEvent where
  evId : UInt64
  events : EpollEvents
  /-- The socket that was registered under the id when the event was raised. -/
  origin : Option SocketPtr
deriving DecidableEq, Repr

/-- `Event(sock, std::bind(&Engine::run, this, sock, events))` -/
structure RunEvent where
  sock : SocketPtr
  raised : RaisedEvent
deriving DecidableEq, Repr

/-- What a worker in `Engine::run` does next. -/
inductive RunPhase where
  /-- The look-up in `eventHash` -/
  | check
  | handleWrite
  | handleRead
  /-- `handleError`, or else `waitingOutEvent` -/
  | finish
  /-- The look-up in `eventHash` and `epoll_ctl(EPOLL_CTL_MOD)` -/
  | rearm
deriving DecidableEq, Repr

/-- A worker in `Engine::run` -/
structure SocketRun where
  event : RunEvent
  phase : RunPhase
  /-- The socket that was registered under the id when `run` checked. -/
  found : Option SocketPtr
deriving DecidableEq, Repr

structure EventIds where
  sockets : List SocketIds
  evCounter : UInt64
  eventHash : UnorderedMap UInt64 SocketPtr
  /-- The registrations with epoll by descriptor: the id, and whether it is armed -/
  epoll : UnorderedMap ℕ (UInt64 × Bool)
  /-- The reports that `doEpoll` has not come to yet -/
  reports : List RaisedEvent
  eventQueue : List RunEvent
  runs : List SocketRun
  stopping : Bool

/-- A step of a client, the kernel, the epoll thread or the `k`-th worker in `Engine::run`. -/
inductive IdStep where
  /-- `Socket(type)` -/
  | socket (fd : ℕ)
  /-- `Engine::add`, which the `create` of a socket calls once -/
  | add (sock : SocketPtr)
  | remove (sock : SocketPtr)
  /-- The last reference to the socket is dropped. -/
  | destroy (sock : SocketPtr)
  /-- Epoll reports events of a descriptor. -/
  | report (fd : ℕ) (events : EpollEvents)
  | reportTimer
  /-- `doEpoll` comes to the `k`-th report. -/
  | newEvent (k : ℕ)
  | triggerWrites (sock : SocketPtr)
  /-- A worker pops the next event. -/
  | pop
  | check (k : ℕ)
  | handleWrite (k : ℕ)
  | handleRead (k : ℕ)
  | finish (k : ℕ)
  | rearm (k : ℕ)
  /-- The signal handler sets `stopping`. -/
  | stop
deriving DecidableEq, Repr

/-- A call of `Engine::add` -/
def IdStep.isAdd : IdStep → Bool
  | add _ => true
  | _ => false

/-- Why a step is refused. -/
inductive IdHalt where
  /-- "Already cound id" -/
  | alreadyFound
  /-- "Not found for removal" -/
  | notFoundForRemoval
  /-- The step is not possible now. -/
  | disabled
deriving DecidableEq, Repr

namespace EventIds

def init : EventIds := ⟨[], timerEvId, ∅, ∅, [], [], [], false⟩

/-! ## Steps -/

def withSocket (s : EventIds) (i : SocketPtr) (body : SocketIds → Except IdHalt EventIds) :
    Except IdHalt EventIds :=
  match s.sockets[i]? with
  | some socket => if socket.closed = true then .error .disabled else body socket
  | none => .error .disabled

/-- The `k`-th worker in `Engine::run` moves, from `phase`. -/
def withRun (s : EventIds) (k : ℕ) (phase : RunPhase)
    (body : SocketRun → Except IdHalt EventIds) : Except IdHalt EventIds :=
  match s.runs[k]? with
  | some run => if run.phase = phase then body run else .error .disabled
  | none => .error .disabled

def setRun (s : EventIds) (k : ℕ) (run : SocketRun) : EventIds :=
  { s with runs := s.runs.set k run }

/-- The worker leaves `Engine::run`. -/
def endRun (s : EventIds) (k : ℕ) : EventIds := { s with runs := s.runs.eraseIdx k }

/-- `Engine::newEvent` -/
def queueEvent (s : EventIds) (raised : RaisedEvent) : EventIds :=
  match s.eventHash.lookup raised.evId with
  | some sock => { s with eventQueue := s.eventQueue ++ [⟨sock, raised⟩] }
  | none => s

/-- The registration of `sock` is armed, if its id is in `eventHash`. -/
def armRun (s : EventIds) (socket : SocketIds) : EventIds :=
  match socket.evId with
  | some evId =>
    if evId ∈ s.eventHash then { s with epoll := s.epoll.insert socket.fd (evId, true) } else s
  | none => s

/-- Somebody holds a reference to the socket. -/
def held (s : EventIds) (i : SocketPtr) : Bool :=
  s.eventHash.entries.any (fun e => e.2 == i) || s.runs.any fun run => run.event.sock == i

def step (s : EventIds) : IdStep → Except IdHalt EventIds
  | .socket fd =>
    -- the kernel gives a descriptor that is not in use
    if s.sockets.all fun socket => socket.closed || socket.fd != fd then
      .ok { s with sockets := s.sockets ++ [⟨fd, none, false⟩] }
    else .error .disabled
  | .add i =>
    s.withSocket i fun socket =>
      if socket.evId ≠ none then .error .disabled
      else if s.stopping = true then .ok s
      else
        let evId := s.evCounter + 1
        if evId ∈ s.eventHash then .error .alreadyFound
        else .ok { s with
          sockets := s.sockets.set i { socket with evId := some evId }
          evCounter := evId
          eventHash := s.eventHash.insert evId i
          epoll := s.epoll.insert socket.fd (evId, true) }
  | .remove i =>
    s.withSocket i fun socket =>
      match socket.evId with
      | some evId =>
        if s.stopping = true then .ok s
        else if evId ∈ s.eventHash then .ok { s with eventHash := s.eventHash.erase evId }
        else .error .notFoundForRemoval
      -- `self` is empty
      | none => .ok s
  | .destroy i =>
    s.withSocket i fun socket =>
      if s.held i = true then .error .disabled
      else .ok { s with
        sockets := s.sockets.set i { socket with closed := true }
        epoll := s.epoll.erase socket.fd }
  | .report fd events =>
    match s.epoll.lookup fd with
    | some (evId, true) =>
      .ok { s with
        epoll := s.epoll.insert fd (evId, false)
        reports := s.reports ++ [⟨evId, events, s.eventHash.lookup evId⟩] }
    | _ => .error .disabled
  | .reportTimer =>
    .ok { s with
      reports := s.reports ++
        [⟨timerEvId, ⟨false, true, false⟩, s.eventHash.lookup timerEvId⟩] }
  | .newEvent k =>
    match s.reports[k]? with
    | some raised =>
      let s := { s with reports := s.reports.eraseIdx k }
      -- `handleTimerExpired` does not concern the sockets
      if raised.evId = timerEvId then .ok s else .ok (s.queueEvent raised)
    | none => .error .disabled
  | .triggerWrites i =>
    s.withSocket i fun socket =>
      match socket.evId with
      | some evId =>
        .ok (s.queueEvent ⟨evId, ⟨true, false, false⟩, s.eventHash.lookup evId⟩)
      | none => .error .disabled
  | .pop =>
    match s.eventQueue with
    | event :: rest =>
      let s := { s with eventQueue := rest }
      -- the event does nothing if its weak pointer has expired
      if s.sockets[event.sock]?.any (fun socket => !socket.closed) = true then
        .ok { s with runs := s.runs ++ [⟨event, .check, none⟩] }
      else .ok s
    | [] => .error .disabled
  | .check k =>
    s.withRun k .check fun run =>
      s.withSocket run.event.sock fun socket =>
        match socket.evId.bind s.eventHash.lookup with
        | some found => .ok (s.setRun k { run with phase := .handleWrite, found := some found })
        | none => .ok (s.endRun k)
  | .handleWrite k =>
    s.withRun k .handleWrite fun run => .ok (s.setRun k { run with phase := .handleRead })
  | .handleRead k =>
    s.withRun k .handleRead fun run => .ok (s.setRun k { run with phase := .finish })
  | .finish k =>
    s.withRun k .finish fun run =>
      if run.event.raised.events.err = true then .ok (s.endRun k)
      else .ok (s.setRun k { run with phase := .rearm })
  | .rearm k =>
    s.withRun k .rearm fun run =>
      s.withSocket run.event.sock fun socket => .ok ((s.endRun k).armRun socket)
  | .stop => .ok { s with stopping := true }

/-- The run in which the step calls a handler of the socket. -/
def calling (s : EventIds) : IdStep → Option SocketRun
  | .handleWrite k =>
    s.runs[k]?.filter fun run => run.phase = .handleWrite ∧ run.event.raised.events.out = true
  | .handleRead k =>
    s.runs[k]?.filter fun run => run.phase = .handleRead ∧ run.event.raised.events.inp = true
  | .finish k =>
    s.runs[k]?.filter fun run => run.phase = .finish ∧ run.event.raised.events.err = true
  | _ => none

variable {s s' : EventIds} {l : IdStep} {ls : List IdStep} {i j : SocketPtr} {k : ℕ}
  {evId : UInt64}

/-! ## Everything a Step Can Do -/

theorem withSocket_eq_ok {body : SocketIds → Except IdHalt EventIds}
    (h : s.withSocket i body = .ok s') :
    ∃ socket, s.sockets[i]? = some socket ∧ body socket = .ok s' := by
  unfold withSocket at h
  split at h
  · split at h
    · cases h
    · exact ⟨_, ‹_›, h⟩
  · cases h

theorem withRun_eq_ok {phase : RunPhase} {body : SocketRun → Except IdHalt EventIds}
    (h : s.withRun k phase body = .ok s') :
    ∃ run, s.runs[k]? = some run ∧ run.phase = phase ∧ body run = .ok s' := by
  unfold withRun at h
  split at h
  · split at h
    · exact ⟨_, ‹_›, ‹_›, h⟩
    · cases h
  · cases h

/-- **Specification of `step`** -/
inductive Moves (s : EventIds) : IdStep → EventIds → Prop where
  | skip {l : IdStep} : Moves s l s
  | socket {fd : ℕ} : Moves s (.socket fd) { s with sockets := s.sockets ++ [⟨fd, none, false⟩] }
  | add {i : SocketPtr} {socket : SocketIds} (hsocket : s.sockets[i]? = some socket)
      (hnew : socket.evId = none) :
      Moves s (.add i) { s with
        sockets := s.sockets.set i { socket with evId := some (s.evCounter + 1) }
        evCounter := s.evCounter + 1
        eventHash := s.eventHash.insert (s.evCounter + 1) i
        epoll := s.epoll.insert socket.fd (s.evCounter + 1, true) }
  | remove {i : SocketPtr} (evId : UInt64) :
      Moves s (.remove i) { s with eventHash := s.eventHash.erase evId }
  | destroy {i : SocketPtr} {socket : SocketIds} (hsocket : s.sockets[i]? = some socket) :
      Moves s (.destroy i) { s with
        sockets := s.sockets.set i { socket with closed := true }
        epoll := s.epoll.erase socket.fd }
  | report {fd : ℕ} {events : EpollEvents} {evId : UInt64}
      (hepoll : s.epoll.lookup fd = some (evId, true)) :
      Moves s (.report fd events) { s with
        epoll := s.epoll.insert fd (evId, false)
        reports := s.reports ++ [⟨evId, events, s.eventHash.lookup evId⟩] }
  | reportTimer (events : EpollEvents) :
      Moves s .reportTimer { s with
        reports := s.reports ++ [⟨timerEvId, events, s.eventHash.lookup timerEvId⟩] }
  | timerExpired {k : ℕ} :
      Moves s (.newEvent k) { s with reports := s.reports.eraseIdx k }
  | newEvent {k : ℕ} {raised : RaisedEvent} (hraised : s.reports[k]? = some raised) :
      Moves s (.newEvent k) ({ s with reports := s.reports.eraseIdx k }.queueEvent raised)
  | triggerWrites {i : SocketPtr} (evId : UInt64) (events : EpollEvents) :
      Moves s (.triggerWrites i) (s.queueEvent ⟨evId, events, s.eventHash.lookup evId⟩)
  | pop {event : RunEvent} {rest : List RunEvent} (hqueue : s.eventQueue = event :: rest) :
      Moves s .pop { s with eventQueue := rest, runs := s.runs ++ [⟨event, .check, none⟩] }
  | popExpired {event : RunEvent} {rest : List RunEvent} (hqueue : s.eventQueue = event :: rest) :
      Moves s .pop { s with eventQueue := rest }
  | check {k : ℕ} {run : SocketRun} {socket : SocketIds} {evId : UInt64} {found : SocketPtr}
      (hrun : s.runs[k]? = some run) (hsocket : s.sockets[run.event.sock]? = some socket)
      (hevId : socket.evId = some evId) (hfound : s.eventHash.lookup evId = some found) :
      Moves s (.check k) (s.setRun k { run with phase := .handleWrite, found := some found })
  /-- The worker goes on behind the check. -/
  | proceed {l : IdStep} {k : ℕ} {run : SocketRun} {phase : RunPhase}
      (hrun : s.runs[k]? = some run) (hchecked : run.phase ≠ .check) :
      Moves s l (s.setRun k { run with phase })
  | endRun {l : IdStep} {k : ℕ} : Moves s l (s.endRun k)
  | rearm {k : ℕ} {run : SocketRun} {socket : SocketIds}
      (hsocket : s.sockets[run.event.sock]? = some socket) :
      Moves s (.rearm k) ((s.endRun k).armRun socket)
  | stop : Moves s .stop { s with stopping := true }

theorem moves_of_step (hstep : s.step l = .ok s') : Moves s l s' := by
  cases l with
  | socket fd =>
    simp only [step] at hstep
    split at hstep <;> cases hstep
    exact .socket
  | add i =>
    obtain ⟨socket, hsocket, hbody⟩ := withSocket_eq_ok hstep
    split at hbody
    · cases hbody
    · rename_i hnew
      split at hbody
      · cases hbody
        exact .skip
      · simp only at hbody
        split at hbody <;> cases hbody
        exact .add hsocket (not_not.mp hnew)
  | remove i =>
    obtain ⟨socket, -, hbody⟩ := withSocket_eq_ok hstep
    split at hbody
    · split at hbody
      · cases hbody
        exact .skip
      · split at hbody <;> cases hbody
        exact .remove _
    · cases hbody
      exact .skip
  | destroy i =>
    obtain ⟨socket, hsocket, hbody⟩ := withSocket_eq_ok hstep
    split at hbody <;> cases hbody
    exact .destroy hsocket
  | report fd events =>
    simp only [step] at hstep
    split at hstep <;> cases hstep
    exact .report ‹_›
  | reportTimer =>
    cases hstep
    exact .reportTimer _
  | newEvent k =>
    simp only [step] at hstep
    split at hstep
    · split at hstep <;> cases hstep
      · exact .timerExpired
      · exact .newEvent ‹_›
    · cases hstep
  | triggerWrites i =>
    obtain ⟨socket, -, hbody⟩ := withSocket_eq_ok hstep
    split at hbody <;> cases hbody
    exact .triggerWrites _ _
  | pop =>
    simp only [step] at hstep
    split at hstep
    · rename_i event rest hqueue
      split at hstep <;> cases hstep
      · exact .pop hqueue
      · exact .popExpired hqueue
    · cases hstep
  | check k =>
    obtain ⟨run, hrun, -, hbody⟩ := withRun_eq_ok hstep
    obtain ⟨socket, hsocket, hbody⟩ := withSocket_eq_ok hbody
    split at hbody <;> cases hbody
    · rename_i found hlookup
      obtain ⟨evId, hevId, hfound⟩ := Option.bind_eq_some_iff.mp hlookup
      exact .check hrun hsocket hevId hfound
    · exact .endRun
  | handleWrite k | handleRead k =>
    obtain ⟨run, hrun, hphase, hbody⟩ := withRun_eq_ok hstep
    cases hbody
    exact .proceed hrun (by rw [hphase]; nofun)
  | finish k =>
    obtain ⟨run, hrun, hphase, hbody⟩ := withRun_eq_ok hstep
    split at hbody <;> cases hbody
    · exact .endRun
    · exact .proceed hrun (by rw [hphase]; nofun)
  | rearm k =>
    obtain ⟨run, -, -, hbody⟩ := withRun_eq_ok hstep
    obtain ⟨socket, hsocket, hbody⟩ := withSocket_eq_ok hbody
    cases hbody
    exact .rearm hsocket
  | stop =>
    cases hstep
    exact .stop

/-! ## The Property -/

/-- The id of a socket that was added. -/
def evIdOf (s : EventIds) (i : SocketPtr) : Option UInt64 := s.sockets[i]?.bind SocketIds.evId

/-- No two sockets have the same id, and none has the id of the timer. -/
structure Distinct (s : EventIds) : Prop where
  unique : ∀ i j evId, s.evIdOf i = some evId → s.evIdOf j = some evId → i = j
  timer : ∀ i, s.evIdOf i ≠ some timerEvId

/-- A handler is called for an event that carries the id of the socket, was raised while the socket
was registered, and found it registered in the check. -/
def Rightful (s : EventIds) (l : IdStep) : Prop :=
  ∀ run, s.calling l = some run →
    s.evIdOf run.event.sock = some run.event.raised.evId ∧
      run.event.raised.origin = some run.event.sock ∧ run.found = some run.event.sock

/-- `evCounter` does not come round. -/
def NoWrap (s : EventIds) : IdStep → Prop
  | .add _ => s.evCounter.toNat + 1 < 2 ^ 64
  | _ => True

/-! ## The Invariant -/

/-- Whoever is registered under the id was registered when the event was raised. -/
def RaisedOk (s : EventIds) (raised : RaisedEvent) : Prop :=
  raised.evId.toNat ≤ s.evCounter.toNat ∧
    ∀ i, s.eventHash.lookup raised.evId = some i → raised.origin = some i

/-- The event carries the id of its socket, which was registered when it was raised. -/
def EventOk (s : EventIds) (event : RunEvent) : Prop :=
  s.evIdOf event.sock = some event.raised.evId ∧ event.raised.origin = some event.sock

/-- Besides, the socket was registered in the check. -/
def RunOk (s : EventIds) (run : SocketRun) : Prop :=
  EventOk s run.event ∧ (run.phase ≠ .check → run.found = some run.event.sock)

/-- **The invariant**: ids are issued in order, and whatever carries an id knows its socket. -/
structure Sound (s : EventIds) : Prop where
  issued : ∀ i evId, s.evIdOf i = some evId → 0 < evId.toNat ∧ evId.toNat ≤ s.evCounter.toNat
  unique : ∀ i j evId, s.evIdOf i = some evId → s.evIdOf j = some evId → i = j
  eventHash : ∀ evId i, s.eventHash.lookup evId = some i → s.evIdOf i = some evId
  epoll : ∀ fd evId armed, s.epoll.lookup fd = some (evId, armed) →
    evId.toNat ≤ s.evCounter.toNat
  reports : ∀ raised ∈ s.reports, RaisedOk s raised
  eventQueue : ∀ event ∈ s.eventQueue, EventOk s event
  runs : ∀ run ∈ s.runs, RunOk s run

/-- What is raised now is raised for who is registered now. -/
theorem raisedOk_now (events : EpollEvents) (hissued : evId.toNat ≤ s.evCounter.toNat) :
    RaisedOk s ⟨evId, events, s.eventHash.lookup evId⟩ :=
  ⟨hissued, fun _ hlookup => hlookup⟩

/-- `newEvent` finds the socket that the event was raised for. -/
theorem Sound.queueEvent (h : Sound s) {raised : RaisedEvent}
    (hraised : ∀ i, s.eventHash.lookup raised.evId = some i → raised.origin = some i) :
    Sound (s.queueEvent raised) := by
  unfold EventIds.queueEvent
  split
  · rename_i sock hlookup
    refine { h with eventQueue := fun event hmem => ?_ }
    rcases List.mem_append.mp hmem with hmem | hmem
    · exact h.eventQueue event hmem
    · rw [List.mem_singleton.mp hmem]
      exact ⟨h.eventHash _ _ hlookup, hraised _ hlookup⟩
  · exact h

theorem Sound.setRun (h : Sound s) {run : SocketRun} (hrun : RunOk s run) (k : ℕ) :
    Sound (s.setRun k run) := by
  refine { h with runs := fun other hmem => ?_ }
  rcases List.mem_or_eq_of_mem_set hmem with hmem | rfl
  · exact h.runs other hmem
  · exact hrun

theorem Sound.endRun (h : Sound s) (k : ℕ) : Sound (s.endRun k) :=
  { h with runs := fun run hmem => h.runs run (List.mem_of_mem_eraseIdx hmem) }

theorem Sound.armRun (h : Sound s) {socket : SocketIds} (hsocket : s.sockets[i]? = some socket) :
    Sound (s.armRun socket) := by
  unfold EventIds.armRun
  split
  · rename_i evId hevId
    split
    · refine { h with epoll := fun fd id armed hlookup => ?_ }
      rcases UnorderedMap.lookup_insert_eq_some_iff.mp hlookup with ⟨-, heq⟩ | ⟨-, hlookup⟩
      · cases heq
        exact (h.issued i evId (by simp [evIdOf, hsocket, hevId])).2
      · exact h.epoll fd id armed hlookup
    · exact h
  · exact h

/-- A step that leaves the ids, `evCounter` and `eventHash` alone -/
theorem Sound.of_same_ids (h : Sound s) (hids : ∀ i, s'.evIdOf i = s.evIdOf i)
    (hcounter : s'.evCounter = s.evCounter) (hhash : s'.eventHash = s.eventHash)
    (hepoll : ∀ fd entry, s'.epoll.lookup fd = some entry → s.epoll.lookup fd = some entry)
    (hreports : s'.reports = s.reports) (hqueue : s'.eventQueue = s.eventQueue)
    (hruns : s'.runs = s.runs) : Sound s' where
  issued i evId := by
    rw [hids, hcounter]
    exact h.issued i evId
  unique i j evId := by
    rw [hids, hids]
    exact h.unique i j evId
  eventHash evId i := by
    rw [hids, hhash]
    exact h.eventHash evId i
  epoll fd evId armed hlookup := by
    rw [hcounter]
    exact h.epoll fd evId armed (hepoll fd _ hlookup)
  reports raised hmem := by
    rw [hreports] at hmem
    obtain ⟨hissued, horigin⟩ := h.reports raised hmem
    exact ⟨hcounter ▸ hissued, fun i => hhash ▸ horigin i⟩
  eventQueue event hmem := by
    rw [hqueue] at hmem
    obtain ⟨hown, horigin⟩ := h.eventQueue event hmem
    exact ⟨(hids _).trans hown, horigin⟩
  runs run hmem := by
    rw [hruns] at hmem
    obtain ⟨⟨hown, horigin⟩, hfound⟩ := h.runs run hmem
    exact ⟨⟨(hids _).trans hown, horigin⟩, hfound⟩

/-! ## Steps -/

theorem evIdOf_set {socket : SocketIds} (hsocket : s.sockets[i]? = some socket)
    (evId : Option UInt64) (closed : Bool) (j : SocketPtr) :
    ((s.sockets.set i ⟨socket.fd, evId, closed⟩)[j]?.bind SocketIds.evId) =
      if j = i then evId else s.evIdOf j := by
  by_cases heq : i = j
  · subst heq
    simp [List.getElem?_set_self', hsocket]
  · rw [List.getElem?_set_ne heq, if_neg (Ne.symm heq)]
    rfl

/-- A socket that was made is not added yet. -/
theorem Sound.socket (h : Sound s) (fd : ℕ) :
    Sound { s with sockets := s.sockets ++ [⟨fd, none, false⟩] } := by
  refine h.of_same_ids (fun i => ?_) rfl rfl (fun _ _ => id) rfl rfl rfl
  change ((s.sockets ++ [⟨fd, none, false⟩])[i]?.bind SocketIds.evId) = s.evIdOf i
  rcases Nat.lt_trichotomy i s.sockets.length with hlt | rfl | hgt
  · rw [List.getElem?_append_left hlt]
    rfl
  · simp [evIdOf]
  · simp [evIdOf, hgt, hgt.le]

theorem Sound.destroy (h : Sound s) {socket : SocketIds} (hsocket : s.sockets[i]? = some socket) :
    Sound { s with
      sockets := s.sockets.set i { socket with closed := true }
      epoll := s.epoll.erase socket.fd } := by
  refine h.of_same_ids (fun j => ?_) rfl rfl (fun fd entry hlookup => ?_) rfl rfl rfl
  · refine (evIdOf_set hsocket socket.evId true j).trans ?_
    split
    · rename_i heq
      simp [heq, evIdOf, hsocket]
    · rfl
  · exact (UnorderedMap.lookup_erase_eq_some_iff.mp hlookup).2

/-- The step of `doAdd` -/
def register (s : EventIds) (i : SocketPtr) (socket : SocketIds) : EventIds :=
  { s with
    sockets := s.sockets.set i { socket with evId := some (s.evCounter + 1) }
    evCounter := s.evCounter + 1
    eventHash := s.eventHash.insert (s.evCounter + 1) i
    epoll := s.epoll.insert socket.fd (s.evCounter + 1, true) }

/-- `doAdd` issues an id that nothing carries yet. -/
theorem Sound.register (h : Sound s) {socket : SocketIds} (hsocket : s.sockets[i]? = some socket)
    (hnew : socket.evId = none) (hwrap : s.evCounter.toNat + 1 < 2 ^ 64) :
    Sound (s.register i socket) := by
  have hnext : (s.evCounter + 1).toNat = s.evCounter.toNat + 1 := by
    rw [UInt64.toNat_add, UInt64.toNat_one, Nat.mod_eq_of_lt hwrap]
  have hnone : s.evIdOf i = none := by simp [evIdOf, hsocket, hnew]
  have hids : ∀ j, (s.register i socket).evIdOf j =
      if j = i then some (s.evCounter + 1) else s.evIdOf j := evIdOf_set hsocket _ _
  -- what was issued before is another id, of another socket
  have hother : ∀ {evId : UInt64}, evId.toNat ≤ s.evCounter.toNat → evId ≠ s.evCounter + 1 := by
    rintro evId hle rfl
    omega
  have hkept : ∀ {j evId}, s.evIdOf j = some evId → (s.register i socket).evIdOf j = some evId := by
    intro j evId hj
    rw [hids, if_neg, hj]
    rintro rfl
    cases hnone.symm.trans hj
  have hcases : ∀ {j evId}, (s.register i socket).evIdOf j = some evId →
      (j = i ∧ evId = s.evCounter + 1) ∨ s.evIdOf j = some evId := by
    intro j evId hj
    rw [hids] at hj
    split at hj
    · exact Or.inl ⟨‹_›, (Option.some.inj hj).symm⟩
    · exact Or.inr hj
  have hevent : ∀ {event}, EventOk s event → EventOk (s.register i socket) event :=
    fun hok => ⟨hkept hok.1, hok.2⟩
  constructor
  case issued =>
    intro j evId hj
    change 0 < evId.toNat ∧ evId.toNat ≤ (s.evCounter + 1).toNat
    rcases hcases hj with ⟨-, rfl⟩ | hj
    · omega
    · have hissued := h.issued j evId hj
      omega
  case unique =>
    intro j j' evId hj hj'
    rcases hcases hj with ⟨rfl, rfl⟩ | hold
    · rcases hcases hj' with ⟨rfl, -⟩ | hold'
      · rfl
      · exact absurd rfl (hother (h.issued j' _ hold').2)
    · rcases hcases hj' with ⟨rfl, rfl⟩ | hold'
      · exact absurd rfl (hother (h.issued j _ hold).2)
      · exact h.unique j j' evId hold hold'
  case eventHash =>
    intro evId j hlookup
    rcases UnorderedMap.lookup_insert_eq_some_iff.mp hlookup with ⟨rfl, rfl⟩ | ⟨-, hlookup⟩
    · rw [hids, if_pos rfl]
    · exact hkept (h.eventHash evId j hlookup)
  case epoll =>
    intro fd evId armed hlookup
    change evId.toNat ≤ (s.evCounter + 1).toNat
    rcases UnorderedMap.lookup_insert_eq_some_iff.mp hlookup with ⟨-, heq⟩ | ⟨-, hlookup⟩
    · cases heq
      exact le_rfl
    · have hissued := h.epoll fd evId armed hlookup
      omega
  case reports =>
    intro raised hmem
    obtain ⟨hissued, horigin⟩ := h.reports raised hmem
    refine ⟨by change raised.evId.toNat ≤ (s.evCounter + 1).toNat; omega, fun j hlookup => ?_⟩
    rcases UnorderedMap.lookup_insert_eq_some_iff.mp hlookup with ⟨heq, -⟩ | ⟨-, hlookup⟩
    · exact absurd heq (hother hissued)
    · exact horigin j hlookup
  case eventQueue => exact fun event hmem => hevent (h.eventQueue event hmem)
  case runs => exact fun run hmem => ⟨hevent (h.runs run hmem).1, (h.runs run hmem).2⟩

/-- A socket leaves `eventHash`; reports of it may still be on their way. -/
theorem Sound.remove (h : Sound s) (evId : UInt64) :
    Sound { s with eventHash := s.eventHash.erase evId } := by
  have hbefore : ∀ {id : UInt64} {i : SocketPtr}, (s.eventHash.erase evId).lookup id = some i →
      s.eventHash.lookup id = some i :=
    fun hlookup => (UnorderedMap.lookup_erase_eq_some_iff.mp hlookup).2
  exact { h with
    eventHash := fun id i hlookup => h.eventHash id i (hbefore hlookup)
    reports := fun raised hmem => ⟨(h.reports raised hmem).1, fun i hlookup =>
      (h.reports raised hmem).2 i (hbefore hlookup)⟩ }

/-- **Step**: the invariant is kept until `evCounter` comes round. -/
theorem Sound.step (h : Sound s) (hwrap : NoWrap s l) (hstep : s.step l = .ok s') : Sound s' := by
  cases moves_of_step hstep with
  | skip => exact h
  | socket => exact h.socket _
  | add hsocket hnew => exact h.register hsocket hnew hwrap
  | remove evId => exact h.remove evId
  | destroy hsocket => exact h.destroy hsocket
  | @report fd events evId hepoll =>
    have hissued := h.epoll fd evId true hepoll
    refine { h with
      epoll := fun fd' id armed hlookup => ?_
      reports := fun raised hmem => ?_ }
    · rcases UnorderedMap.lookup_insert_eq_some_iff.mp hlookup with ⟨-, heq⟩ | ⟨-, hlookup⟩
      · cases heq
        exact hissued
      · exact h.epoll fd' id armed hlookup
    · rcases List.mem_append.mp hmem with hmem | hmem
      · exact h.reports raised hmem
      · rw [List.mem_singleton.mp hmem]
        exact raisedOk_now events hissued
  | reportTimer events =>
    refine { h with reports := fun raised hmem => ?_ }
    rcases List.mem_append.mp hmem with hmem | hmem
    · exact h.reports raised hmem
    · rw [List.mem_singleton.mp hmem]
      exact raisedOk_now events (Nat.zero_le _)
  | timerExpired =>
    exact { h with
      reports := fun raised hmem => h.reports raised (List.mem_of_mem_eraseIdx hmem) }
  | @newEvent k raised hraised =>
    -- a report may be late: what it finds in `eventHash` is what it was raised for, or nothing
    have hleft : Sound { s with reports := s.reports.eraseIdx k } :=
      { h with reports := fun other hmem => h.reports other (List.mem_of_mem_eraseIdx hmem) }
    exact hleft.queueEvent (h.reports raised (List.mem_of_getElem? hraised)).2
  | triggerWrites evId events => exact h.queueEvent fun _ hlookup => hlookup
  | @pop event rest hqueue =>
    have hmem : ∀ {other}, other ∈ event :: rest → EventOk s other :=
      fun hother => h.eventQueue _ (hqueue ▸ hother)
    refine { h with
      eventQueue := fun other hother => hmem (List.mem_cons_of_mem _ hother)
      runs := fun run hrun => ?_ }
    rcases List.mem_append.mp hrun with hrun | hrun
    · exact h.runs run hrun
    · rw [List.mem_singleton.mp hrun]
      exact ⟨hmem (List.mem_cons_self ..), fun hne => absurd rfl hne⟩
  | @popExpired event rest hqueue =>
    refine { h with eventQueue := fun other hother => ?_ }
    exact h.eventQueue other (hqueue ▸ List.mem_cons_of_mem _ hother)
  | @check k run socket evId found hrun hsocket hevId hfound =>
    have hok := h.runs run (List.mem_of_getElem? hrun)
    have hown : s.evIdOf run.event.sock = some evId := by simp [evIdOf, hsocket, hevId]
    -- the socket that is registered under the id is the one that has the id
    have heq : found = run.event.sock :=
      h.unique found run.event.sock evId (h.eventHash evId found hfound) hown
    have hchecked : RunOk s { run with phase := .handleWrite, found := some found } :=
      ⟨hok.1, fun _ => congrArg some heq⟩
    exact h.setRun hchecked k
  | @proceed _ k run phase hrun hchecked =>
    have hok := h.runs run (List.mem_of_getElem? hrun)
    have hnext : RunOk s { run with phase } := ⟨hok.1, fun _ => hok.2 hchecked⟩
    exact h.setRun hnext k
  | endRun => exact h.endRun _
  | rearm hsocket => exact (h.endRun _).armRun hsocket
  | stop => exact { h with }

theorem sound_init : Sound init where
  issued i evId h := by simp [evIdOf, init] at h
  unique i j evId h := by simp [evIdOf, init] at h
  eventHash := nofun
  epoll := nofun
  reports := nofun
  eventQueue := nofun
  runs := nofun

theorem Sound.distinct (h : Sound s) : Distinct s where
  unique := h.unique
  timer i hi := Nat.lt_irrefl 0 (h.issued i timerEvId hi).1

/-- A handler is called by a worker that is past the check. -/
theorem mem_of_calling {run : SocketRun} (h : s.calling l = some run) :
    run ∈ s.runs ∧ run.phase ≠ .check := by
  cases l with
  | handleWrite k | handleRead k | finish k =>
    obtain ⟨hrun, hphase⟩ := Option.filter_eq_some_iff.mp h
    refine ⟨List.mem_of_getElem? hrun, ?_⟩
    rw [(of_decide_eq_true hphase).1]
    nofun
  | _ => cases h

theorem Sound.rightful (h : Sound s) (l : IdStep) : Rightful s l := by
  intro run hrun
  obtain ⟨hmem, hchecked⟩ := mem_of_calling hrun
  obtain ⟨⟨hown, horigin⟩, hfound⟩ := h.runs run hmem
  exact ⟨hown, horigin, hfound hchecked⟩

/-! ## Main Results -/

/-- Only `Engine::add` counts. -/
theorem evCounter_step (hstep : s.step l = .ok s') :
    s'.evCounter.toNat ≤ s.evCounter.toNat + if l.isAdd = true then 1 else 0 := by
  cases moves_of_step hstep with
  | add =>
    change (s.evCounter + 1).toNat ≤ s.evCounter.toNat + 1
    rw [UInt64.toNat_add, UInt64.toNat_one]
    exact Nat.mod_le _ _
  | newEvent | triggerWrites =>
    unfold queueEvent
    split <;> exact Nat.le_add_right _ _
  | rearm =>
    unfold armRun
    split
    · split <;> exact Nat.le_add_right _ _
    · exact Nat.le_add_right _ _
  | skip | socket | remove | destroy | report | reportTimer | timerExpired | pop | popExpired
  | check | proceed | endRun | stop => exact Nat.le_add_right _ _

theorem allSteps_noWrap (hadds : s.evCounter.toNat + ls.countP IdStep.isAdd < 2 ^ 64) :
    AllSteps step NoWrap s ls := by
  induction ls generalizing s with
  | nil => trivial
  | cons l ls ih =>
    rw [List.countP_cons] at hadds
    refine ⟨?_, ?_⟩
    · cases l with
      | add =>
        simp only [IdStep.isAdd, if_true] at hadds
        change s.evCounter.toNat + 1 < 2 ^ 64
        omega
      | _ => trivial
    · split
      · rename_i s' hstep
        have hle := evCounter_step hstep
        exact ih (by omega)
      · trivial

/-- **Event ids**: in every run with fewer than `2 ^ 64` calls of `Engine::add`, the ids are
distinct and handlers are called for events of their own socket only. -/
theorem rightful_of_run (hadds : ls.countP IdStep.isAdd < 2 ^ 64) :
    AllSteps step Rightful init ls ∧ ∀ s, runFrom step init ls = .ok s → Distinct s := by
  have hwrap : AllSteps step NoWrap init ls := allSteps_noWrap (by simpa [init, timerEvId])
  exact ⟨AllSteps.imp_of_invariant Sound (fun h _ => h.rightful _) Sound.step sound_init hwrap,
    fun s hrun => (AllSteps.invariant Sound Sound.step sound_init hwrap hrun).distinct⟩

/-- The report of a closed socket comes late, when its descriptor belongs to another socket, whose
own report leads to a `handleRead`. -/
def reusedDescriptor : List IdStep :=
  [.socket 3, .add 0, .report 3 ⟨false, true, false⟩, .remove 0, .destroy 0, .socket 3, .add 1,
    .newEvent 0, .report 3 ⟨false, true, false⟩, .newEvent 0, .pop, .check 0, .handleWrite 0,
    .handleRead 0]

theorem rightful_reused_fd : ∃ s : EventIds, runFrom step init reusedDescriptor = .ok s ∧
    s.sockets = [⟨3, some 1, true⟩, ⟨3, some 2, false⟩] ∧
    s.runs = [⟨⟨1, ⟨2, ⟨false, true, false⟩, some 1⟩⟩, .finish, some 1⟩] ∧
    AllSteps step Rightful init reusedDescriptor ∧ Distinct s := by
  obtain ⟨s, hrun, hsockets, hruns⟩ : ∃ s : EventIds,
      runFrom step init reusedDescriptor = .ok s ∧
      s.sockets = [⟨3, some 1, true⟩, ⟨3, some 2, false⟩] ∧
      s.runs = [⟨⟨1, ⟨2, ⟨false, true, false⟩, some 1⟩⟩, .finish, some 1⟩] := by
    decide +kernel
  have hadds : reusedDescriptor.countP IdStep.isAdd < 2 ^ 64 := by decide
  obtain ⟨hrightful, hdistinct⟩ := rightful_of_run hadds
  exact ⟨s, hrun, hsockets, hruns, hrightful, hdistinct s hrun⟩

/-! ## When `evCounter` Comes Round -/

/-- A socket is made, added, removed and closed. -/
def cycle (i : SocketPtr) : List IdStep := [.socket 3, .add i, .remove i, .destroy i]

/-- Nothing is reported, queued or run. -/
def quiet (sockets : List SocketIds) (evCounter : UInt64)
    (eventHash : UnorderedMap UInt64 SocketPtr) (epoll : UnorderedMap ℕ (UInt64 × Bool)) :
    EventIds :=
  { init with sockets, evCounter, eventHash, epoll }

/-- Only closed sockets are left. -/
def afterCycles (n : ℕ) : EventIds :=
  quiet ((List.range n).map fun k => ⟨3, some (UInt64.ofNat (k + 1)), true⟩) (UInt64.ofNat n) ∅ ∅

/-- An entry that is made and erased again leaves nothing. -/
theorem erase_singleton {κ ν : Type} [DecidableEq κ] (k : κ) (v : ν) :
    (AList.singleton k v : UnorderedMap κ ν).erase k = ∅ :=
  AList.ext (List.kerase_cons_eq rfl)

/-- Where only closed sockets are left, a cycle leaves one more of them. -/
theorem runFrom_cycle (sockets : List SocketIds)
    (hclosed : ∀ socket ∈ sockets, socket.closed = true) (evCounter : UInt64) :
    runFrom step (quiet sockets evCounter ∅ ∅) (cycle sockets.length) =
      .ok (quiet (sockets ++ [⟨3, some (evCounter + 1), true⟩]) (evCounter + 1) ∅ ∅) := by
  have hfree : (sockets.all fun socket => socket.closed || socket.fd != 3) = true :=
    List.all_eq_true.mpr fun socket hmem => by rw [hclosed socket hmem]; rfl
  have hmade : step (quiet sockets evCounter ∅ ∅) (.socket 3) =
      .ok (quiet (sockets ++ [⟨3, none, false⟩]) evCounter ∅ ∅) :=
    if_pos hfree
  have hadded : step (quiet (sockets ++ [⟨3, none, false⟩]) evCounter ∅ ∅) (.add sockets.length) =
      .ok (quiet (sockets ++ [⟨3, some (evCounter + 1), false⟩]) (evCounter + 1)
        (AList.singleton (evCounter + 1) sockets.length)
        (AList.singleton 3 (evCounter + 1, true))) := by
    simp [step, withSocket, quiet, init, AList.notMem_empty]
  have hremoved : step (quiet (sockets ++ [⟨3, some (evCounter + 1), false⟩]) (evCounter + 1)
        (AList.singleton (evCounter + 1) sockets.length)
        (AList.singleton 3 (evCounter + 1, true))) (.remove sockets.length) =
      .ok (quiet (sockets ++ [⟨3, some (evCounter + 1), false⟩]) (evCounter + 1) ∅
        (AList.singleton 3 (evCounter + 1, true))) := by
    simp [step, withSocket, quiet, init, erase_singleton, AList.mem_keys]
  have hdestroyed : step (quiet (sockets ++ [⟨3, some (evCounter + 1), false⟩]) (evCounter + 1) ∅
        (AList.singleton 3 (evCounter + 1, true))) (.destroy sockets.length) =
      .ok (quiet (sockets ++ [⟨3, some (evCounter + 1), true⟩]) (evCounter + 1) ∅ ∅) := by
    simp [step, withSocket, quiet, init, held, erase_singleton]
  rw [cycle, runFrom_cons_ok _ hmade, runFrom_cons_ok _ hadded, runFrom_cons_ok _ hremoved,
    runFrom_cons_ok _ hdestroyed, runFrom_nil]

theorem runFrom_cycles (n : ℕ) :
    runFrom step init ((List.range n).flatMap cycle) = .ok (afterCycles n) := by
  induction n with
  | zero => rfl
  | succ n ih =>
    have hcycle := runFrom_cycle (afterCycles n).sockets (by simp [afterCycles, quiet])
      (UInt64.ofNat n)
    have hlength : (afterCycles n).sockets.length = n := by simp [afterCycles, quiet]
    rw [hlength] at hcycle
    rw [List.range_succ, List.flatMap_append, runFrom_append_ok ih, List.flatMap_singleton]
    refine hcycle.trans ?_
    simp [afterCycles, quiet, List.range_succ, UInt64.ofNat_add]

/-- With `2 ^ 64` sockets, one after the other, the last one gets the id of the timer. -/
theorem not_distinct_wrapped : ¬ ∀ ls s, runFrom step init ls = .ok s → Distinct s := by
  intro h
  have hdistinct := h _ _ (runFrom_cycles (2 ^ 64))
  have hlt : 2 ^ 64 - 1 < 2 ^ 64 := by norm_num
  refine hdistinct.timer (2 ^ 64 - 1) ?_
  simp only [evIdOf, afterCycles, quiet, List.getElem?_map, List.getElem?_range hlt]
  rfl

end EventIds

end Epoller
