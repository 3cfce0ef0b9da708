import Epoller.TcpStream.System

/-!
# A UDP Socket in the Engine

One `UdpSocket` with what the engine holds for it: its entry in `eventHash`, its
one-shot registration with epoll, its events in `eventQueue` and the workers that
are inside `Engine::run` for it. The client is called from all of its handlers, and
may call `disconnect` whenever it likes. Datagrams are left out: sending and
receiving them changes nothing here.

- `UdpHandler`, `UdpSystem`, `UdpStep`: the states and the labels
- `UdpSystem.step`: the machine
- `UdpSystem.Moves`, `moves_of_step`: everything a step can do
-/

namespace Epoller

open Foundation

/-- A worker that has popped an event for the socket, and what it does next. -/
inductive UdpHandler where
  /-- the look-up in `eventHash` at the start of `Engine::run` -/
  | entered (events : EpollEvents)
  /-- `handleWrite` -/
  | write (events : EpollEvents)
  /-- `handleRead` -/
  | read (events : EpollEvents)
  /-- `handleError` or `waitingOutEvent` -/
  | finish (events : EpollEvents)
  /-- In `client->disconnected()`, called by `handleError` -/
  | disconnected
  /-- `epoll_ctl(EPOLL_CTL_MOD)` -/
  | rearm (needOut : Bool)
deriving DecidableEq, Repr

/-- The socket and what the engine holds for it. -/
structure UdpSystem where
  /-- `Engine::add` has set `self`. -/
  added : Bool
  /-- The socket is in `eventHash`. -/
  registered : Bool
  /-- The masks of the events in `eventQueue` -/
  eventQueue : List EpollEvents
  /-- The registration with epoll: not armed, or armed without or with `EPOLLOUT` -/
  armed : Option Bool
  /-- A report that `epoll_wait` has returned and the epoll thread has not queued yet -/
  report : Option EpollEvents
  handlers : List UdpHandler
deriving DecidableEq, Repr

/-- A step of `create`, the client, the epoll thread or a worker. -/
inductive UdpStep where
  /-- `Engine::add` -/
  | add
  /-- `UdpSocket::disconnect`, called by the client -/
  | disconnect
  /-- `epoll_wait` returns a report. -/
  | report (events : EpollEvents)
  /-- `newEvent` for the report -/
  | newEvent
  /-- A worker pops the next event for the socket. -/
  | pop
  | check (events : EpollEvents)
  | write (events : EpollEvents)
  | read (events : EpollEvents)
  | finish (events : EpollEvents)
  /-- `client->disconnected()` returns. -/
  | disconnected
  | rearm (needOut : Bool)
deriving DecidableEq, Repr

namespace UdpSystem

/-- `UdpSocket::waitingOutEvent` -/
def waitingOutEvent : Bool := false

/-- A socket that was just made. -/
def init : UdpSystem where
  added := false
  registered := false
  eventQueue := []
  armed := none
  report := none
  handlers := []

/-- The worker inside `h` goes on with `next`, or is done. -/
def advance (s : UdpSystem) (h : UdpHandler) (next : Option UdpHandler) : UdpSystem :=
  { s with handlers := next.toList ++ s.handlers.erase h }

/-- What a worker inside the handler `h` does. -/
def handlerStep (s : UdpSystem) (h : UdpHandler) (t : UdpSystem) : Except StreamHalt UdpSystem :=
  if h ∈ s.handlers then .ok t else .error .disabled

def step (s : UdpSystem) : UdpStep → Except StreamHalt UdpSystem
  | .add =>
    if s.added = false then
      .ok { s with added := true, registered := true, armed := some waitingOutEvent }
    else .error .disabled
  -- `self` is set by `Engine::add`
  | .disconnect =>
    if s.added = true then
      if s.registered = true then .ok { s with registered := false }
      else .error .notFoundForRemoval
    else .ok s
  | .report events =>
    if s.armed ≠ none ∧ s.report = none then
      .ok { s with armed := none, report := some events }
    else .error .disabled
  | .newEvent =>
    match s.report with
    | some events =>
      .ok { s with
        report := none
        eventQueue := if s.registered = true then s.eventQueue ++ [events] else s.eventQueue }
    | none => .error .disabled
  | .pop =>
    match s.eventQueue with
    | events :: rest => .ok { s with eventQueue := rest, handlers := .entered events :: s.handlers }
    | [] => .error .disabled
  | .check events =>
    s.handlerStep (.entered events) (s.advance (.entered events)
      (if s.registered = true then some (.write events) else none))
  | .write events => s.handlerStep (.write events) (s.advance (.write events) (some (.read events)))
  | .read events => s.handlerStep (.read events) (s.advance (.read events) (some (.finish events)))
  -- `handleError` only tells the client, whereas a stream disconnects itself
  | .finish events =>
    s.handlerStep (.finish events) (s.advance (.finish events)
      (some (if events.err = true then .disconnected else .rearm waitingOutEvent)))
  | .disconnected => s.handlerStep .disconnected (s.advance .disconnected none)
  | .rearm needOut =>
    s.handlerStep (.rearm needOut) { s.advance (.rearm needOut) none with
      armed := if s.registered = true then some needOut else s.armed }

variable {s s' : UdpSystem} {l : UdpStep}

/-- **Specification of `step`**: everything a step can do. -/
inductive Moves (s : UdpSystem) : UdpStep → UdpSystem → Prop where
  | add (hfresh : s.added = false) :
      Moves s .add { s with added := true, registered := true, armed := some waitingOutEvent }
  | remove (hadded : s.added = true) (hregistered : s.registered = true) :
      Moves s .disconnect { s with registered := false }
  /-- `self` is empty before `Engine::add`. -/
  | early (hfresh : ¬ s.added = true) : Moves s .disconnect s
  | report {events : EpollEvents} (harmed : s.armed ≠ none) (hreport : s.report = none) :
      Moves s (.report events) { s with armed := none, report := some events }
  | newEvent {events : EpollEvents} (hreport : s.report = some events) :
      Moves s .newEvent { s with
        report := none
        eventQueue := if s.registered = true then s.eventQueue ++ [events] else s.eventQueue }
  | pop {events : EpollEvents} {rest : List EpollEvents} (hqueue : s.eventQueue = events :: rest) :
      Moves s .pop { s with eventQueue := rest, handlers := .entered events :: s.handlers }
  | check {events : EpollEvents} (hmem : .entered events ∈ s.handlers) :
      Moves s (.check events) (s.advance (.entered events)
        (if s.registered = true then some (.write events) else none))
  /-- A worker goes on inside `Engine::run`. -/
  | proceed {l : UdpStep} {h next : UdpHandler} (hmem : h ∈ s.handlers) (hl : l ≠ .disconnected) :
      Moves s l (s.advance h (some next))
  | disconnected (hmem : .disconnected ∈ s.handlers) :
      Moves s .disconnected (s.advance .disconnected none)
  | rearm {needOut : Bool} (hmem : .rearm needOut ∈ s.handlers) :
      Moves s (.rearm needOut) { s.advance (.rearm needOut) none with
        armed := if s.registered = true then some needOut else s.armed }

theorem handlerStep_eq_ok_iff {h : UdpHandler} {t : UdpSystem} :
    s.handlerStep h t = .ok s' ↔ h ∈ s.handlers ∧ s' = t := by
  unfold handlerStep
  split
  · rename_i hmem
    exact ⟨fun heq => (by cases heq; exact ⟨hmem, rfl⟩), fun ⟨_, heq⟩ => congrArg _ heq.symm⟩
  · rename_i hnot
    exact ⟨fun heq => (by cases heq), fun ⟨hmem, _⟩ => absurd hmem hnot⟩

theorem moves_of_step (hstep : s.step l = .ok s') : Moves s l s' := by
  cases l with
  | add =>
    simp only [step] at hstep
    split at hstep <;> cases hstep
    exact .add ‹_›
  | disconnect =>
    simp only [step] at hstep
    split at hstep
    · rename_i hadded
      split at hstep <;> cases hstep
      exact .remove hadded ‹_›
    · cases hstep
      exact .early ‹_›
  | report events =>
    simp only [step] at hstep
    split at hstep <;> cases hstep
    rename_i hready
    exact .report hready.1 hready.2
  | newEvent =>
    simp only [step] at hstep
    split at hstep <;> cases hstep
    exact .newEvent ‹_›
  | pop =>
    simp only [step] at hstep
    split at hstep <;> cases hstep
    exact .pop ‹_›
  | check events =>
    obtain ⟨hmem, rfl⟩ := handlerStep_eq_ok_iff.mp hstep
    exact .check hmem
  | write | read | finish =>
    obtain ⟨hmem, rfl⟩ := handlerStep_eq_ok_iff.mp hstep
    exact .proceed hmem nofun
  | disconnected =>
    obtain ⟨hmem, rfl⟩ := handlerStep_eq_ok_iff.mp hstep
    exact .disconnected hmem
  | rearm needOut =>
    obtain ⟨hmem, rfl⟩ := handlerStep_eq_ok_iff.mp hstep
    exact .rearm hmem

end UdpSystem

end Epoller
