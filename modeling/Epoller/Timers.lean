import Epoller.Types
import Epoller.Foundation.SortedMap

/-!
# Timers

The class `Timers` of `timers.cpp`. Pending timers stand in two containers: a map
from deadlines to timers and a multimap from owners to deadlines. A timer is known
by its owner and the address of its event; the callable of the event, whose type is
`φ`, is copied when the timer is set. Every reading of the steady clock is an
argument; a failed assertion, which traps the process, is an error; a call of
`armTimer` is part of the result.

- `TimerEvent`: the copy of an event
- `Timers`, `TimersAssertion`, `ArmRequest`: state, failures, output
- `removeTimer`, `setTrigger`, `getStartEvent`: the private members
- `setTimer`, `cancelTimer`, `cancelAllTimers`, `handleTimerExpired`: the operations
- `TimersCall`, `Timers.apply`: one call with its clock readings
-/

namespace Epoller

open Foundation

universe u

/-- `Runnable const*` -/
abbrev RunnablePtr := ℕ

/-- `Event const*` -/
abbrev EventPtr := ℕ

/-- `Event{owner, timer}`: the copy of a timer's event that is armed and later queued. Another event
may have come to the address `id` since, or another callable into the event. -/
structure TimerEvent (φ : Type u) where
  obj : RunnablePtr
  /-- Which event was copied; the copy in the source does not say. -/
  id : EventPtr
  func : φ
deriving DecidableEq, Repr

/-- What a timer is known by. -/
def TimerEvent.key {φ : Type u} (event : TimerEvent φ) : RunnablePtr × EventPtr :=
  (event.obj, event.id)

/-- `TimerDateId` -/
structure TimerDateId where
  tp : TimePointNs
  id : EventPtr
deriving DecidableEq, Repr

/-- `TimerRunnableId`; `func` is the callable that its member `eventObj` has copied. -/
structure TimerRunnableId (φ : Type u) where
  ep : RunnablePtr
  id : EventPtr
  func : φ
deriving DecidableEq, Repr

def TimerRunnableId.eventObj {φ : Type u} (r : TimerRunnableId φ) : TimerEvent φ :=
  ⟨r.ep, r.id, r.func⟩

/-- `Timers` -/
structure Timers (φ : Type u) where
  timesByDate : SortedMap TimePointNs (TimerRunnableId φ)
  timersByOwner : List (RunnablePtr × TimerDateId)
deriving DecidableEq

/-- The assertions of `timers.cpp` -/
inductive TimersAssertion where
  /-- "Expired timer not found" -/
  | expiredTimerNotFound
  /-- "Timers::removeTimer Timer mismatch" -/
  | removeTimerMismatch
  /-- "Timers::setTimer Timer mismatch" -/
  | setTimerMismatch
  /-- "Timers::cancelAllTimers Timer mismatch" -/
  | cancelAllTimersMismatch
deriving DecidableEq, Repr

/-- A call `armTimer(what, when)` -/
structure ArmRequest (φ : Type u) where
  what : Option (TimerEvent φ)
  when : NanoSecs
deriving DecidableEq, Repr

/-- The readings of the steady clock during one operation: `now` of `setTimer`, in `removeTimer`,
for the returned count, in `setTrigger`. They are taken to be made in this order; of the operands of
`removeTimer(..) - now()` the language leaves it open which one is evaluated first. -/
structure Readings where
  now : TimePointNs
  removed : TimePointNs
  counted : TimePointNs
  trigger : TimePointNs
deriving DecidableEq, Repr

/-- What an operation leaves behind: the containers, the call of `armTimer` if it made one, and
the value it returned. -/
structure Outcome (φ : Type u) where
  timers : Timers φ
  request : Option (ArmRequest φ)
  timerCount : NanoSecs
deriving DecidableEq

namespace Timers

variable {φ : Type u}

/-- No timer is pending. -/
def empty : Timers φ := ⟨.empty, []⟩

/-! ## Private Members -/

/-- The body of the first loop of `removeTimer`, for one entry of the owner. -/
def eraseDate (timer : EventPtr) (timesByDate : SortedMap TimePointNs (TimerRunnableId φ))
    (bo : RunnablePtr × TimerDateId) : SortedMap TimePointNs (TimerRunnableId φ) :=
  match timesByDate.find? bo.2.tp with
  | some r => if timer = r.id then timesByDate.erase bo.2.tp else timesByDate
  | none => timesByDate

/-- `removeTimer`; `now` is the reading that initialises `prevTp`. -/
def removeTimer (t : Timers φ) (what : RunnablePtr) (timer : EventPtr) (now : TimePointNs) :
    Except TimersAssertion (Timers φ × TimePointNs) :=
  -- the loop looks up each timer of the owner, and erases those with this event
  let iiByOwner := t.timersByOwner.filter fun bo => bo.1 = what
  let timesByDate := iiByOwner.foldl (eraseDate timer) t.timesByDate
  let (timersByOwner, prevTp) :=
    match iiByOwner.find? fun bo => bo.2.id = timer with
    | some bo => (t.timersByOwner.erase bo, bo.2.tp)
    | none => (t.timersByOwner, now)
  if timesByDate.size = timersByOwner.length then .ok (⟨timesByDate, timersByOwner⟩, prevTp)
  else .error .removeTimerMismatch

/-- `setTrigger`: the request it passes to `armTimer` -/
def setTrigger (t : Timers φ) (now : TimePointNs) : ArmRequest φ :=
  match t.timesByDate.begin? with
  | some e => ⟨some e.2.eventObj, max 1 (e.1 - now)⟩
  | none => ⟨none, 0⟩

/-- `getStartEvent`: owner and event of the first entry, both null if there is none. Two results
are compared by these two members only. -/
def getStartEvent (t : Timers φ) : Option (RunnablePtr × EventPtr) :=
  t.timesByDate.begin?.map fun e => (e.2.ep, e.2.id)

/-- `if(oldStartEvent != getStartEvent()) setTrigger();` -/
def retrigger (old t : Timers φ) (now : TimePointNs) : Option (ArmRequest φ) :=
  if old.getStartEvent ≠ t.getStartEvent then some (t.setTrigger now) else none

/-! ## Operations -/

/-- `handleTimerExpired` -/
def handleTimerExpired (t : Timers φ) (r : Readings) : Except TimersAssertion (Outcome φ) :=
  match t.timesByDate.begin? with
  | none => .error .expiredTimerNotFound
  | some e => do
    let (t', _) ← t.removeTimer e.2.ep e.2.id r.removed
    .ok ⟨t', some (t'.setTrigger r.trigger), 0⟩

/-- `cancelTimer`; `owner` is what `timer.obj.lock()` returns. -/
def cancelTimer (t : Timers φ) (owner : Option RunnablePtr) (timer : EventPtr) (r : Readings) :
    Except TimersAssertion (Outcome φ) :=
  match owner with
  | none => .ok ⟨t, none, 0⟩
  | some owner => do
    let (t', prevTp) ← t.removeTimer owner timer r.removed
    .ok ⟨t', retrigger t t' r.trigger, prevTp - r.counted⟩

/-- `setTimer`; `func` is the callable that the event at the address `timer` has now. -/
def setTimer (t : Timers φ) (owner : Option RunnablePtr) (timer : EventPtr) (func : φ)
    (timeout : NanoSecs) (r : Readings) : Except TimersAssertion (Outcome φ) :=
  match owner with
  | none => .ok ⟨t, none, 0⟩
  | some owner => do
    let when := r.now + timeout
    let (removed, prevTp) ← t.removeTimer owner timer r.removed
    let t' : Timers φ :=
      { timersByOwner := removed.timersByOwner ++ [(owner, ⟨when, timer⟩)]
        timesByDate := removed.timesByDate.emplace when ⟨owner, timer, func⟩ }
    if t'.timesByDate.size = t'.timersByOwner.length then
      .ok ⟨t', retrigger t t' r.trigger, prevTp - r.counted⟩
    else .error .setTimerMismatch

/-- `cancelAllTimers` -/
def cancelAllTimers (t : Timers φ) (what : RunnablePtr) (r : Readings) :
    Except TimersAssertion (Outcome φ) :=
  let iiByOwner := t.timersByOwner.filter fun bo => bo.1 = what
  let t' : Timers φ :=
    { timesByDate := iiByOwner.foldl (fun m bo => m.erase bo.2.tp) t.timesByDate
      timersByOwner := t.timersByOwner.filter fun bo => bo.1 ≠ what }
  if t'.timesByDate.size = t'.timersByOwner.length then .ok ⟨t', retrigger t t' r.trigger, 0⟩
  else .error .cancelAllTimersMismatch

end Timers

/-! ## Calls -/

/-- A call of an operation of `Timers`. -/
inductive TimersCall (φ : Type u) where
  | setTimer (owner : Option RunnablePtr) (timer : EventPtr) (func : φ) (timeout : NanoSecs)
    (r : Readings)
  | cancelTimer (owner : Option RunnablePtr) (timer : EventPtr) (r : Readings)
  | cancelAllTimers (what : RunnablePtr) (r : Readings)
  | handleTimerExpired (r : Readings)
deriving DecidableEq, Repr

variable {φ : Type u}

def TimersCall.readings : TimersCall φ → Readings
  | setTimer _ _ _ _ r | cancelTimer _ _ r | cancelAllTimers _ r | handleTimerExpired r => r

/-- The result of a call. -/
def Timers.apply (t : Timers φ) : TimersCall φ → Except TimersAssertion (Outcome φ)
  | .setTimer owner timer func timeout r => t.setTimer owner timer func timeout r
  | .cancelTimer owner timer r => t.cancelTimer owner timer r
  | .cancelAllTimers what r => t.cancelAllTimers what r
  | .handleTimerExpired r => t.handleTimerExpired r

/-- The containers after a call. -/
def Timers.step (t : Timers φ) (call : TimersCall φ) : Except TimersAssertion (Timers φ) :=
  (t.apply call).map Outcome.timers

end Epoller
