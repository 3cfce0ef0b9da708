import Epoller.TcpStream.System

/-!
# Who Owns a Stream

The strong references to one `TcpStream`: the local of `create`, the references
clients take from their weak pointers, `eventHash`, the callables that copies of
its events carry in the queue, in `Timers`, in `Engine::timerEvent` and in
workers, and the callables in the stream's own members `notifyWriteComplete`,
`activity` and `egress`. The destructor runs when the last of them is gone. The
members are never cleared, so they never are.

## Contents

- `Owned`, `strongCount`: a stream with its owners
- `Owned.step`: the machine of `StreamSystem` with references
- `Bound`: the members own the stream from `create` on
- `leaked_of_run`: a stream that nobody uses any more is not destroyed
- `disconnectedRun`: a run that ends in such a state
-/

namespace Epoller

open Foundation

/-! ## References -/

/-- References that an event in `eventQueue` holds: `Engine::run` is bound to a plain pointer, the
other callables are copies of the members. -/
def StreamEvent.refs : StreamEvent → ℕ
  | run _ => 0
  | notifyWriteComplete | activity | egress => 1

/-- References that a worker holds inside a handler: the one it locks to run the event, and the one
in its copy of the event. -/
def Handler.refs : Handler → ℕ
  | entered _ | write _ | read _ | finish _ | rearm _ => 1
  | notifyWriteComplete | activity | egress => 2

/-- A stream and its owners. -/
structure Owned where
  sys : StreamSystem
  /-- The local `ref` of `create` -/
  creator : Bool
  /-- References that clients have taken from `tcpStream` -/
  callers : ℕ
  /-- The members whose callable is bound to a reference -/
  members : List StreamEvent
  /-- `Engine::timerEvent`, if it is a copy of an event of this stream -/
  timerEvent : Option StreamEvent
  /-- The destructor has run. -/
  destroyed : Bool
  fdClosed : Bool
  /-- Calls of `client->disconnected()` -/
  disconnectedCalls : ℕ
deriving DecidableEq, Repr

/-- A step of the stream, of its owners, or of the other timers of the engine. -/
inductive OwnedStep where
  /-- `create` assigns the three events. -/
  | bind
  /-- `create` returns. -/
  | createReturns
  /-- A client locks its weak pointer. -/
  | lock
  | unlock
  /-- The timer of `event` becomes the first of all timers, or stops being it. -/
  | arm (event : StreamEvent)
  | disarm
  | sys (l : StreamStep)
deriving DecidableEq, Repr

namespace Owned

/-- The stream as `make_shared` returns it. -/
def init (kind : Kind) : Owned where
  sys := .init kind
  creator := true
  callers := 0
  members := []
  timerEvent := none
  destroyed := false
  fdClosed := false
  disconnectedCalls := 0

/-- `ref->notifyWriteComplete = ...; ref->activity = ...; ref->egress = ...` -/
def memberEvents : List StreamEvent := [.notifyWriteComplete, .activity, .egress]

/-- The strong count of the stream. -/
def strongCount (s : Owned) : ℕ :=
  s.creator.toNat + s.callers + s.members.length + s.sys.registered.toNat +
    (s.sys.eventQueue.map StreamEvent.refs).sum + s.sys.activityTimer.toNat +
    s.sys.egressTimer.toNat + s.timerEvent.isSome.toNat + (s.sys.handlers.map Handler.refs).sum

/-- The destructor, if the last reference is gone. -/
def release (s : Owned) : Owned :=
  if s.strongCount = 0 then
    { s with
      members := []
      destroyed := true
      fdClosed := true
      disconnectedCalls := s.disconnectedCalls + 1 }
  else s

/-- A timer of the event is pending. -/
def TimerSet (sys : StreamSystem) : StreamEvent → Prop
  | .activity => sys.activityTimer = true
  | .egress => sys.egressTimer = true
  | .run _ | .notifyWriteComplete => False

instance (sys : StreamSystem) (event : StreamEvent) : Decidable (TimerSet sys event) :=
  match event with
  | .activity => inferInstanceAs (Decidable (sys.activityTimer = true))
  | .egress => inferInstanceAs (Decidable (sys.egressTimer = true))
  | .run _ | .notifyWriteComplete => inferInstanceAs (Decidable False)

/-- Who may take a step of the stream: `create` prepares and adds it, calls into it need a
reference, and the engine queues the event of a timer when it is the first. -/
def Allowed (s : Owned) : StreamStep → Prop
  | .accept | .connect _ | .add => s.creator = true ∧ s.members = memberEvents
  | .queueWrite _ | .disconnect => 0 < s.callers ∨ s.sys.handlers ≠ []
  | .expireActivity => s.timerEvent = some .activity
  | .expireEgress => s.timerEvent = some .egress
  | _ => True

instance (s : Owned) (l : StreamStep) : Decidable (s.Allowed l) :=
  match l with
  | .accept | .connect _ | .add =>
    inferInstanceAs (Decidable (s.creator = true ∧ s.members = memberEvents))
  | .queueWrite _ | .disconnect =>
    inferInstanceAs (Decidable (0 < s.callers ∨ s.sys.handlers ≠ []))
  | .expireActivity => inferInstanceAs (Decidable (s.timerEvent = some .activity))
  | .expireEgress => inferInstanceAs (Decidable (s.timerEvent = some .egress))
  | .report _ | .newEvent | .pop | .check _ | .write _ _ _ | .read _ _ | .finish _ | .rearm _
  | .asyncWriteComplete | .asyncDisconnect | .asyncEgress => inferInstanceAs (Decidable True)

/-- The step before the destructor is considered. -/
def move (s : Owned) : OwnedStep → Except StreamHalt Owned
  | .bind =>
    if s.creator = true ∧ s.members = [] then .ok { s with members := memberEvents }
    else .error .disabled
  | .createReturns =>
    if s.creator = true ∧ s.members = memberEvents ∧
        (s.sys.stage = .added ∨ s.sys.stage = .abandoned) then
      .ok { s with creator := false }
    else .error .disabled
  | .lock => .ok { s with callers := s.callers + 1 }
  | .unlock => if 0 < s.callers then .ok { s with callers := s.callers - 1 } else .error .disabled
  | .arm event =>
    if TimerSet s.sys event then .ok { s with timerEvent := some event } else .error .disabled
  | .disarm => .ok { s with timerEvent := none }
  | .sys l =>
    if s.Allowed l then do
      let sys ← s.sys.step l
      .ok { s with sys, timerEvent := s.timerEvent.filter fun event => TimerSet sys event }
    else .error .disabled

/-- One step; nothing happens to a destroyed stream. -/
def step (s : Owned) (l : OwnedStep) : Except StreamHalt Owned :=
  if s.destroyed = true then .error .disabled
  else do
    let s ← s.move l
    .ok s.release

/-! ## The Hidden Owners -/

variable {s s' : Owned}

/-- The members own the stream as soon as `create` lets go of it. -/
structure Bound (s : Owned) : Prop where
  alive : s.destroyed = false
  silent : s.disconnectedCalls = 0
  owner : (s.creator = true ∧ s.members = []) ∨ s.members = memberEvents

theorem Bound.strongCount_pos (h : Bound s) : 0 < s.strongCount := by
  unfold strongCount
  -- `create` still holds its local, or the members hold three references
  rcases h.owner with ⟨hcreator, -⟩ | hmembers
  · rw [hcreator]
    simp only [Bool.toNat_true]
    omega
  · rw [hmembers]
    simp only [memberEvents, List.length_cons, List.length_nil]
    omega

theorem Bound.release (h : Bound s) : s.release = s :=
  if_neg h.strongCount_pos.ne'

theorem Bound.move {l : OwnedStep} (h : Bound s) (hmove : s.move l = .ok s') : Bound s' := by
  cases l with
  | bind =>
    simp only [Owned.move] at hmove
    split at hmove <;> cases hmove
    exact ⟨h.alive, h.silent, Or.inr rfl⟩
  | createReturns =>
    simp only [Owned.move] at hmove
    split at hmove <;> cases hmove
    rename_i hready
    exact ⟨h.alive, h.silent, Or.inr hready.2.1⟩
  | lock | disarm =>
    cases hmove
    exact ⟨h.alive, h.silent, h.owner⟩
  | unlock | arm =>
    simp only [Owned.move] at hmove
    split at hmove <;> cases hmove
    exact ⟨h.alive, h.silent, h.owner⟩
  | sys l =>
    simp only [Owned.move] at hmove
    split at hmove
    · obtain ⟨sys, -, hs'⟩ := bind_eq_ok_iff.mp hmove
      cases hs'
      exact ⟨h.alive, h.silent, h.owner⟩
    · cases hmove

/-- **Step**: no step takes the stream from its members. -/
theorem Bound.step {l : OwnedStep} (h : Bound s) (hstep : s.step l = .ok s') : Bound s' := by
  unfold Owned.step at hstep
  split at hstep
  · cases hstep
  · obtain ⟨m, hm, hs'⟩ := bind_eq_ok_iff.mp hstep
    -- the count is not zero, so the destructor does not run
    have hbound := h.move hm
    rw [hbound.release] at hs'
    cases hs'
    exact hbound

/-- The stream was registered and has been disconnected and removed from `eventHash`, no event
names it, and nobody holds a reference to it. -/
structure Unused (s : Owned) : Prop where
  added : s.sys.stage = .added
  disconnecting : s.sys.stream.disconnecting = true
  removed : s.sys.registered = false
  eventQueue : s.sys.eventQueue = []
  activityTimer : s.sys.activityTimer = false
  egressTimer : s.sys.egressTimer = false
  timerEvent : s.timerEvent = none
  handlers : s.sys.handlers = []
  creator : s.creator = false
  callers : s.callers = 0

/-- The last reference is gone, the file descriptor is closed, and the client was told so once. -/
structure Released (s : Owned) : Prop where
  strongCount : s.strongCount = 0
  destroyed : s.destroyed = true
  fdClosed : s.fdClosed = true
  disconnectedOnce : s.disconnectedCalls = 1

/-- **The stream leaks**: in every run, a stream that is not used any more is still owned by the
three events it holds itself, and its destructor has not run. -/
theorem leaked_of_run {kind : Kind} {ls : List OwnedStep}
    (hrun : runFrom step (init kind) ls = .ok s) (hunused : Unused s) :
    ¬ Released s ∧ s.strongCount = 3 ∧ s.disconnectedCalls = 0 := by
  have hinit : Bound (init kind) := ⟨rfl, rfl, Or.inl ⟨rfl, rfl⟩⟩
  have hbound : Bound s := runFrom_invariant Bound (fun h hstep => h.step hstep) hinit hrun
  -- `create` has returned, so the owners are the members
  have hmembers : s.members = memberEvents := hbound.owner.resolve_left fun h => by
    rw [hunused.creator] at h
    cases h.1
  refine ⟨fun hreleased => ?_, ?_, hbound.silent⟩
  · cases hbound.alive.symm.trans hreleased.destroyed
  · simp [strongCount, hunused.creator, hunused.callers, hmembers, hunused.removed,
      hunused.eventQueue, hunused.activityTimer, hunused.egressTimer, hunused.timerEvent,
      hunused.handlers, memberEvents]

/-- An outgoing stream that connects, is added, and is disconnected by a client. -/
def disconnectedRun : List OwnedStep :=
  [.bind, .sys (.connect 0), .sys .add, .createReturns, .lock, .sys .disconnect, .unlock]

/-- The stream after that run is `Unused`, and it is kept alive. -/
theorem leaked_disconnected_stream :
    ∃ s, runFrom step (init .outgoing) disconnectedRun = .ok s ∧ Unused s ∧
      (¬ Released s ∧ s.strongCount = 3 ∧ s.disconnectedCalls = 0) := by
  obtain ⟨s, hrun⟩ : ∃ s, runFrom step (init .outgoing) disconnectedRun = .ok s := ⟨_, rfl⟩
  have hunused : Unused s := by
    cases hrun
    constructor <;> rfl
  exact ⟨s, hrun, hunused, leaked_of_run hrun hunused⟩

/-- Streams are not released when their use is over: the client's `disconnected()` is never called
for the stream of `disconnectedRun`. -/
theorem not_released_when_unused :
    ¬ ∀ kind ls s, runFrom step (init kind) ls = .ok s → Unused s → Released s := by
  intro h
  have hreleased := h .outgoing disconnectedRun _ rfl (by constructor <;> rfl)
  exact absurd hreleased.destroyed (by decide)

end Owned

end Epoller
