import Epoller.Foundation.Cursor
import Epoller.Foundation.Runs
import Epoller.Foundation.Threads

/-!
# The Event Queue and the Workers

`eventQueue` is guarded by `eqLock` and the semaphore by a mutex of its own. A
producer pushes and then signals, a worker waits and then pops, and any thread
may move in between. The engine has the thread that made it, which becomes the
epoll thread, and the workers, which become producers inside the events they run.

## Contents

- `WorkerStage`, `EpollStage`: where a worker and the epoll thread are
- `EventQueue`, `QueueStep`, `EventQueue.step`: the machine
- `Moves`, `moves_of_step`: everything a step can do
- `Conserved`: what is queued is what the semaphore and the half-done steps account for
- `conserved_of_run`: the whole law
-/

namespace Epoller

open Foundation

universe u

variable {ε : Type u}

/-! ## Threads -/

/-- Where a worker is in `Engine::worker`. -/
inductive WorkerStage (ε : Type u) where
  /-- `while(!stopping)` -/
  | loop
  /-- In `sem.wait`, about to look at `count` -/
  | checking
  /-- In `sem.wait`, blocked -/
  | asleep
  /-- `sem.wait` has returned. -/
  | woken
  /-- Before `activeCount++`; the event is empty if the queue was. -/
  | popped (event : Option ε)
  /-- In `event()` -/
  | running (event : Option ε)
  /-- In `event()`, which has put an event on the queue and is about to call `sem.signal` -/
  | signalling (event : ε)
  /-- Before `activeCount--` -/
  | returned
  /-- `eventHash.size() == NUM_ENGINE_EVENTS` -/
  | testHash
  /-- `!timerEvent` -/
  | testTimer
  /-- `activeCount == 0` -/
  | testActive
  /-- The test has succeeded: before `doStop` -/
  | idle
  | exited
  /-- `event()` has thrown: the worker has called `doStop` and is gone. -/
  | threw
deriving DecidableEq, Repr

namespace WorkerStage

def isChecking : WorkerStage ε → Bool
  | checking => true
  | _ => false

def isAsleep : WorkerStage ε → Bool
  | asleep => true
  | _ => false

/-- Returned from `sem.wait`, not popped yet -/
def isWoken : WorkerStage ε → Bool
  | woken => true
  | _ => false

/-- Pushed, not signalled yet -/
def isSignalling : WorkerStage ε → Bool
  | signalling _ => true
  | _ => false

/-- How much a worker counts in what is queued: it has returned from `sem.wait` and not popped, or
pushed and not signalled. -/
def pending : WorkerStage ε → ℕ
  | woken | signalling _ => 1
  | _ => 0

/-- Counted in `activeCount`. A worker that threw is never uncounted. -/
def isActive : WorkerStage ε → Bool
  | running _ | signalling _ | returned | threw => true
  | _ => false

/-- The event that a worker has popped and not finished -/
def held : WorkerStage ε → Option ε
  | popped event | running event => event
  | signalling event => some event
  | _ => none

/-- At a test, or gone -/
def isAside : WorkerStage ε → Bool
  | loop | testHash | testTimer | testActive | idle | exited => true
  | _ => false

/-- A worker that is aside is in no count and holds no event. -/
structure Uncounted (w : WorkerStage ε) : Prop where
  checking : w.isChecking = false
  asleep : w.isAsleep = false
  pending : w.pending = 0
  active : w.isActive = false
  held : w.held = none

theorem uncounted_of_isAside {w : WorkerStage ε} (h : w.isAside = true) : Uncounted w := by
  cases w with
  | loop | testHash | testTimer | testActive | idle | exited => exact ⟨rfl, rfl, rfl, rfl, rfl⟩
  | checking | asleep | woken | popped | running | signalling | returned | threw => cases h

theorem pending_eq (w : WorkerStage ε) : w.pending = w.isWoken.toNat + w.isSignalling.toNat := by
  cases w <;> rfl

end WorkerStage

/-- Where the epoll thread is. -/
inductive EpollStage where
  /-- In `epoll_wait`, between two reports, or before `doEpoll` -/
  | waiting
  /-- Something is pushed: before `sem.signal` -/
  | signalling
  /-- `handleTimerExpired` has pushed `timerEvent`: before `timerEvent.reset()` -/
  | expired
  /-- Before `timers.handleTimerExpired()` -/
  | rearming
  /-- `doEpoll` has returned. -/
  | left
deriving DecidableEq, Repr

/-- Pushed, not signalled yet -/
def EpollStage.isSignalling : EpollStage → Bool
  | signalling | expired | rearming => true
  | waiting | left => false

/-- A thread that may put an event on the queue -/
inductive Producer where
  | epollThread
  | worker (i : ℕ)
deriving DecidableEq, Repr

/-! ## The Machine -/

/-- The engine, as far as `eventQueue` and the idle test go. -/
structure EventQueue (ε : Type u) where
  eventQueue : List ε
  /-- `Semaphore::count` -/
  count : ℕ
  activeCount : ℕ
  /-- The keys of `eventHash` -/
  eventHash : List ℕ
  timerEvent : Option ε
  stopping : Bool
  epoll : EpollStage
  /-- `slaves`, none before `startWorkers` -/
  workers : List (WorkerStage ε)
  /-- All events that were ever pushed, oldest first -/
  pushed : List ε
  /-- All events that were ever popped, oldest first, and by which worker -/
  popped : List (ℕ × ε)
deriving DecidableEq, Repr

inductive QueueStep (ε : Type u) where
  /-- `doAdd` -/
  | add (evId : ℕ)
  /-- `doRemove` -/
  | remove (evId : ℕ)
  /-- An assignment of `setTimerTrigger` to `timerEvent` -/
  | setTimerTrigger (event : Option ε)
  /-- `startWorkers` in `doInit`: there is at least one worker. -/
  | doInit (n : ℕ)
  /-- `newEvent`, up to `sem.signal` -/
  | newEvent (who : Producer) (evId : ℕ) (event : ε)
  /-- `doRunAsync`, up to `sem.signal` -/
  | doRunAsync (who : Producer) (event : ε)
  /-- `handleTimerExpired`, up to `timerEvent.reset()` -/
  | handleTimerExpired
  /-- `timerEvent.reset()` in `handleTimerExpired` -/
  | resetTimerEvent
  /-- `timers.handleTimerExpired()`, which calls `setTimerTrigger` -/
  | rearm (event : Option ε)
  /-- `sem.signal()` of a producer, with the worker that `notify_one` wakes -/
  | signal (who : Producer) (wakes : Option ℕ)
  /-- Worker `i` goes on. -/
  | work (i : ℕ)
  /-- The event that worker `i` runs throws. -/
  | throw (i : ℕ)
  /-- A spurious wake-up -/
  | wake (i : ℕ)
  /-- `doSignalHandler` on the epoll thread -/
  | signalHandler
  /-- `doEpoll` returns, because of `stopping` or an exception. -/
  | leaveEpoll
  /-- `sem.signal()` in `stopWorkers` -/
  | stopWorkers (wakes : Option ℕ)
deriving DecidableEq, Repr

/-- Why a step is refused. -/
inductive QueueHalt where
  /-- "Engine::doInit Need to Add() something before Go()." -/
  | needToAdd
  /-- "Already cound id" -/
  | alreadyFound
  /-- "Not found for removal" -/
  | notFoundForRemoval
  /-- The step is not possible now. -/
  | disabled
deriving DecidableEq, Repr

namespace EventQueue

/-- A fresh engine. -/
def init : EventQueue ε where
  eventQueue := []
  count := 0
  activeCount := 0
  eventHash := []
  timerEvent := none
  stopping := false
  epoll := .waiting
  workers := []
  pushed := []
  popped := []

def setWorker (s : EventQueue ε) (i : ℕ) (stage : WorkerStage ε) : EventQueue ε :=
  { s with workers := s.workers.set i stage }

/-- `eventQueue.push_back` -/
def push (s : EventQueue ε) (event : ε) : EventQueue ε :=
  { s with eventQueue := s.eventQueue ++ [event], pushed := s.pushed ++ [event] }

/-- A thread pushes an event and is about to signal. -/
def produce (s : EventQueue ε) (event : ε) : Producer → Except QueueHalt (EventQueue ε)
  | .epollThread =>
    if s.epoll = .waiting then .ok { s.push event with epoll := .signalling }
    else .error .disabled
  | .worker i =>
    match s.workers[i]? with
    | some (.running (some x)) => .ok ((s.push event).setWorker i (.signalling x))
    | _ => .error .disabled

/-- `Semaphore::signal`: `notify_one` wakes a blocked thread if there is one. -/
def signal (s : EventQueue ε) : Option ℕ → Except QueueHalt (EventQueue ε)
  | none =>
    if s.workers.countP WorkerStage.isAsleep = 0 then .ok { s with count := s.count + 1 }
    else .error .disabled
  | some j =>
    match s.workers[j]? with
    | some .asleep => .ok ({ s with count := s.count + 1 }.setWorker j .checking)
    | _ => .error .disabled

/-- The next step of worker `i`. -/
def work (s : EventQueue ε) (i : ℕ) : WorkerStage ε → Except QueueHalt (EventQueue ε)
  | .loop => .ok (s.setWorker i (if s.stopping = true then .exited else .checking))
  | .checking =>
    if 0 < s.count then .ok ({ s with count := s.count - 1 }.setWorker i .woken)
    else .ok (s.setWorker i .asleep)
  | .woken =>
    match s.eventQueue with
    | [] => .ok (s.setWorker i (.popped none))
    | event :: rest =>
      .ok ({ s with eventQueue := rest, popped := s.popped ++ [(i, event)] }.setWorker i
        (.popped (some event)))
  | .popped event => .ok ({ s with activeCount := s.activeCount + 1 }.setWorker i (.running event))
  | .running _ => .ok (s.setWorker i .returned)
  | .returned => .ok ({ s with activeCount := s.activeCount - 1 }.setWorker i .testHash)
  | .testHash => .ok (s.setWorker i (if s.eventHash = [] then .testTimer else .loop))
  | .testTimer => .ok (s.setWorker i (if s.timerEvent.isNone = true then .testActive else .loop))
  | .testActive => .ok (s.setWorker i (if s.activeCount = 0 then .idle else .loop))
  -- `doStop` sends the signal that `signalHandler` is the step for
  | .idle => .ok (s.setWorker i .exited)
  | .asleep | .signalling _ | .exited | .threw => .error .disabled

def step (s : EventQueue ε) : QueueStep ε → Except QueueHalt (EventQueue ε)
  | .add evId =>
    if s.stopping = true then .ok s
    else if evId ∈ s.eventHash then .error .alreadyFound
    else .ok { s with eventHash := evId :: s.eventHash }
  | .remove evId =>
    if s.stopping = true then .ok s
    else if evId ∈ s.eventHash then .ok { s with eventHash := s.eventHash.erase evId }
    else .error .notFoundForRemoval
  | .setTimerTrigger event =>
    -- `handleTimerExpired` holds `timerLock`
    if s.epoll = .expired ∨ s.epoll = .rearming then .error .disabled
    else .ok { s with timerEvent := event }
  | .doInit n =>
    match s.workers with
    | [] =>
      if s.eventHash ≠ [] ∨ s.timerEvent.isSome = true then
        .ok { s with workers := List.replicate (n + 1) .loop }
      else .error .needToAdd
    | _ :: _ => .error .disabled
  | .newEvent who evId event =>
    if evId ∈ s.eventHash then s.produce event who else .ok s
  | .doRunAsync who event => s.produce event who
  | .handleTimerExpired =>
    if s.epoll = .waiting ∧ s.workers ≠ [] then
      match s.timerEvent with
      | some event => .ok { s.push event with epoll := .expired }
      | none => .ok s
    else .error .disabled
  | .resetTimerEvent =>
    if s.epoll = .expired then .ok { s with timerEvent := none, epoll := .rearming }
    else .error .disabled
  | .rearm event =>
    if s.epoll = .rearming then .ok { s with timerEvent := event, epoll := .signalling }
    else .error .disabled
  | .signal .epollThread wakes =>
    if s.epoll = .signalling then { s with epoll := .waiting }.signal wakes
    else .error .disabled
  | .signal (.worker i) wakes =>
    match s.workers[i]? with
    | some (.signalling event) => (s.setWorker i (.running (some event))).signal wakes
    | _ => .error .disabled
  | .work i =>
    match s.workers[i]? with
    | some stage => s.work i stage
    | none => .error .disabled
  | .throw i =>
    match s.workers[i]? with
    | some (.running (some _)) => .ok (s.setWorker i .threw)
    | _ => .error .disabled
  | .wake i =>
    match s.workers[i]? with
    | some .asleep => .ok (s.setWorker i .checking)
    | _ => .error .disabled
  | .signalHandler => .ok { s with stopping := true }
  | .leaveEpoll =>
    if s.epoll = .waiting ∧ s.workers ≠ [] then .ok { s with epoll := .left }
    else .error .disabled
  | .stopWorkers wakes => if s.epoll = .left then s.signal wakes else .error .disabled

/-! ## Everything a Step Can Do -/

variable {s s' s₁ : EventQueue ε} {l : QueueStep ε} {ls : List (QueueStep ε)} {i : ℕ}
  {stage stage' : WorkerStage ε}

/-- Worker `i` goes on from a stage to another and leaves the rest as in the last argument. -/
inductive Works (s : EventQueue ε) (i : ℕ) :
    WorkerStage ε → WorkerStage ε → EventQueue ε → Prop where
  | enter : Works s i .loop .checking s
  | pass {count : ℕ} (hcount : s.count = count + 1) :
      Works s i .checking .woken { s with count := count }
  | sleep (hcount : s.count = 0) : Works s i .checking .asleep s
  | popEmpty (hempty : s.eventQueue = []) : Works s i .woken (.popped none) s
  | pop {event : ε} {rest : List ε} (hqueue : s.eventQueue = event :: rest) :
      Works s i .woken (.popped (some event))
        { s with eventQueue := rest, popped := s.popped ++ [(i, event)] }
  | call (event : Option ε) :
      Works s i (.popped event) (.running event) { s with activeCount := s.activeCount + 1 }
  | ret (event : Option ε) : Works s i (.running event) .returned s
  | uncount : Works s i .returned .testHash { s with activeCount := s.activeCount - 1 }
  /-- The idle test succeeds. -/
  | idle (hactive : s.activeCount = 0) : Works s i .testActive .idle s
  /-- A test that does not decide for the idle exit, or the end -/
  | test {stage stage' : WorkerStage ε} (hbefore : stage.isAside = true)
      (hafter : stage'.isAside = true) (hidle : stage' ≠ .idle) : Works s i stage stage' s

theorem works_of_work (h : s.work i stage = .ok s') :
    ∃ stage' s₁, Works s i stage stage' s₁ ∧ s' = s₁.setWorker i stage' := by
  cases stage with
  | loop =>
    cases h
    split
    · exact ⟨_, _, .test rfl rfl (by simp), rfl⟩
    · exact ⟨_, _, .enter, rfl⟩
  | checking =>
    simp only [work] at h
    split at h <;> cases h
    · rename_i hpos
      exact ⟨_, _, .pass (Nat.sub_add_cancel hpos).symm, rfl⟩
    · rename_i hzero
      exact ⟨_, _, .sleep (Nat.eq_zero_of_not_pos hzero), rfl⟩
  | woken =>
    simp only [work] at h
    split at h <;> cases h
    · exact ⟨_, _, .popEmpty ‹_›, rfl⟩
    · exact ⟨_, _, .pop ‹_›, rfl⟩
  | popped event =>
    cases h
    exact ⟨_, _, .call event, rfl⟩
  | running event =>
    cases h
    exact ⟨_, _, .ret event, rfl⟩
  | returned =>
    cases h
    exact ⟨_, _, .uncount, rfl⟩
  | testHash | testTimer =>
    cases h
    split <;> exact ⟨_, _, .test rfl rfl (by simp), rfl⟩
  | testActive =>
    cases h
    split
    · exact ⟨_, _, .idle ‹_›, rfl⟩
    · exact ⟨_, _, .test rfl rfl (by simp), rfl⟩
  | idle =>
    cases h
    exact ⟨_, _, .test rfl rfl (by simp), rfl⟩
  | asleep | signalling | exited | threw => cases h

/-- What `Semaphore::signal` does. -/
inductive Signals (s : EventQueue ε) : EventQueue ε → Prop where
  | nobody (hasleep : s.workers.countP WorkerStage.isAsleep = 0) :
      Signals s { s with count := s.count + 1 }
  | notify {j : ℕ} (hj : s.workers[j]? = some .asleep) :
      Signals s ({ s with count := s.count + 1 }.setWorker j .checking)

theorem signals_of_signal {wakes : Option ℕ} (h : s.signal wakes = .ok s') : Signals s s' := by
  cases wakes with
  | none =>
    simp only [signal] at h
    split at h <;> cases h
    exact .nobody ‹_›
  | some j =>
    simp only [signal] at h
    split at h <;> cases h
    exact .notify ‹_›

/-- A step that puts an event on the queue -/
def Pushes (s : EventQueue ε) : QueueStep ε → Prop
  | .newEvent _ evId _ => evId ∈ s.eventHash
  | .doRunAsync .. => True
  | .handleTimerExpired => s.timerEvent.isSome = true
  | _ => False

/-- Everything a step can do. -/
inductive Moves (s : EventQueue ε) : QueueStep ε → EventQueue ε → Prop where
  /-- Neither the queue nor a thread is concerned. -/
  | other {l : QueueStep ε} (eventHash : List ℕ) (timerEvent : Option ε) (stopping : Bool) :
      Moves s l { s with eventHash := eventHash, timerEvent := timerEvent, stopping := stopping }
  | start {n : ℕ} (hnone : s.workers = []) :
      Moves s (.doInit n) { s with workers := List.replicate (n + 1) .loop }
  | pushEpoll {l : QueueStep ε} {event : ε} {epoll : EpollStage} (hl : Pushes s l)
      (hbefore : s.epoll = .waiting) (hafter : epoll.isSignalling = true) :
      Moves s l { s.push event with epoll := epoll }
  | pushWorker {l : QueueStep ε} {i : ℕ} {event x : ε} (hl : Pushes s l)
      (hi : s.workers[i]? = some (.running (some x))) :
      Moves s l ((s.push event).setWorker i (.signalling x))
  /-- The rest of `handleTimerExpired`, up to `sem.signal` -/
  | expire {l : QueueStep ε} {timerEvent : Option ε} {epoll : EpollStage}
      (hbefore : s.epoll.isSignalling = true) (hafter : epoll.isSignalling = true) :
      Moves s l { s with timerEvent := timerEvent, epoll := epoll }
  | signalEpoll {wakes : Option ℕ} {s' : EventQueue ε} (hepoll : s.epoll = .signalling)
      (hsignals : Signals { s with epoll := .waiting } s') :
      Moves s (.signal .epollThread wakes) s'
  | signalWorker {i : ℕ} {wakes : Option ℕ} {event : ε} {s' : EventQueue ε}
      (hi : s.workers[i]? = some (.signalling event))
      (hsignals : Signals (s.setWorker i (.running (some event))) s') :
      Moves s (.signal (.worker i) wakes) s'
  | work {i : ℕ} {stage stage' : WorkerStage ε} {s₁ : EventQueue ε}
      (hi : s.workers[i]? = some stage) (hworks : Works s i stage stage' s₁) :
      Moves s (.work i) (s₁.setWorker i stage')
  | throw {i : ℕ} {event : ε} (hi : s.workers[i]? = some (.running (some event))) :
      Moves s (.throw i) (s.setWorker i .threw)
  | wake {i : ℕ} (hi : s.workers[i]? = some .asleep) : Moves s (.wake i) (s.setWorker i .checking)
  | leave (hepoll : s.epoll = .waiting) : Moves s .leaveEpoll { s with epoll := .left }
  | stopWorkers {wakes : Option ℕ} {s' : EventQueue ε} (hepoll : s.epoll = .left)
      (hsignals : Signals s s') : Moves s (.stopWorkers wakes) s'

theorem moves_of_produce {who : Producer} {event : ε} (hl : Pushes s l)
    (h : s.produce event who = .ok s') : Moves s l s' := by
  cases who with
  | epollThread =>
    simp only [produce] at h
    split at h <;> cases h
    exact .pushEpoll hl ‹_› rfl
  | worker i =>
    simp only [produce] at h
    split at h <;> cases h
    exact .pushWorker hl ‹_›

theorem moves_of_step (h : s.step l = .ok s') : Moves s l s' := by
  cases l with
  | add | remove =>
    simp only [step] at h
    split at h
    · cases h
      exact .other _ _ _
    · split at h <;> cases h
      exact .other _ _ _
  | setTimerTrigger =>
    simp only [step] at h
    split at h <;> cases h
    exact .other _ _ _
  | doInit n =>
    simp only [step] at h
    split at h
    · split at h <;> cases h
      exact .start ‹_›
    · cases h
  | newEvent who evId event =>
    simp only [step] at h
    split at h
    · rename_i hmem
      exact moves_of_produce hmem h
    · cases h
      exact .other _ _ _
  | doRunAsync who event => exact moves_of_produce trivial h
  | handleTimerExpired =>
    simp only [step] at h
    split at h
    · rename_i hwaiting
      split at h <;> cases h
      · rename_i event hevent
        exact .pushEpoll (Option.isSome_of_mem hevent) hwaiting.1 rfl
      · exact .other _ _ _
    · cases h
  | resetTimerEvent | rearm =>
    simp only [step] at h
    split at h <;> cases h
    rename_i hepoll
    exact .expire (by rw [hepoll]; rfl) rfl
  | signal who wakes =>
    cases who with
    | epollThread =>
      simp only [step] at h
      split at h
      · exact .signalEpoll ‹_› (signals_of_signal h)
      · cases h
    | worker i =>
      simp only [step] at h
      split at h
      · exact .signalWorker ‹_› (signals_of_signal h)
      · cases h
  | work i =>
    simp only [step] at h
    split at h
    · rename_i stage hi
      obtain ⟨stage', s₁, hworks, rfl⟩ := works_of_work h
      exact .work hi hworks
    · cases h
  | throw | wake =>
    simp only [step] at h
    split at h <;> cases h
    constructor
    assumption
  | signalHandler =>
    cases h
    exact .other _ _ _
  | leaveEpoll =>
    simp only [step] at h
    split at h <;> cases h
    rename_i hepoll
    exact .leave hepoll.1
  | stopWorkers wakes =>
    simp only [step] at h
    split at h
    · exact .stopWorkers ‹_› (signals_of_signal h)
    · cases h

/-! ## Conservation -/

/-- The producers that have pushed and not signalled -/
def producers (s : EventQueue ε) : ℕ :=
  s.epoll.isSignalling.toNat + s.workers.countP WorkerStage.isSignalling

/-- The workers that have returned from `sem.wait` and not popped -/
def woken (s : EventQueue ε) : ℕ := s.workers.countP WorkerStage.isWoken

/-- The semaphore and the workers in its `wait` -/
def semaphore (s : EventQueue ε) : Semaphore where
  count := s.count
  checking := s.workers.countP WorkerStage.isChecking
  asleep := s.workers.countP WorkerStage.isAsleep

/-- What the semaphore and the half-done steps account for -/
def accounted (s : EventQueue ε) : ℕ := s.count + s.producers + s.woken

/-- What is queued is accounted for. -/
structure Conserved (s : EventQueue ε) : Prop where
  /-- Events leave the queue in the order in which they came. -/
  order : s.pushed = s.popped.map Prod.snd ++ s.eventQueue
  /-- `stopWorkers` only adds to the semaphore. -/
  covered : s.eventQueue.length ≤ s.accounted
  exact : s.epoll ≠ .left → s.eventQueue.length = s.accounted
  semaphore : s.semaphore.Sound
  active : s.activeCount = s.workers.countP WorkerStage.isActive

theorem conserved_init : Conserved (init : EventQueue ε) :=
  ⟨rfl, Nat.le_refl 0, fun _ => rfl, fun h => absurd h (Nat.lt_irrefl 0), rfl⟩

/-! ### Order -/

theorem order_of_works (h : s.pushed = s.popped.map Prod.snd ++ s.eventQueue)
    (hworks : Works s i stage stage' s₁) :
    s₁.pushed = s₁.popped.map Prod.snd ++ s₁.eventQueue := by
  cases hworks with
  | pop hqueue => simpa [hqueue] using h
  | enter | pass | sleep | popEmpty | call | ret | uncount | idle | test => exact h

theorem order_of_moves (h : s.pushed = s.popped.map Prod.snd ++ s.eventQueue)
    (hmoves : Moves s l s') : s'.pushed = s'.popped.map Prod.snd ++ s'.eventQueue := by
  cases hmoves with
  | pushEpoll | pushWorker =>
    change s.pushed ++ [_] = s.popped.map Prod.snd ++ (s.eventQueue ++ [_])
    rw [h, List.append_assoc]
  | signalEpoll _ hsignals | signalWorker _ hsignals | stopWorkers _ hsignals =>
    cases hsignals <;> exact h
  | work hi hworks =>
    have hworked := order_of_works h hworks
    exact hworked
  | other | start | expire | throw | wake | leave => exact h

/-! ### The Semaphore -/

/-- A step elsewhere than in `sem.wait` -/
theorem sound_setWorker (h : s.semaphore.Sound) (hi : s.workers[i]? = some stage)
    (hbefore : stage.isChecking = stage'.isChecking) (hafter : stage.isAsleep = stage'.isAsleep) :
    (s.setWorker i stage').semaphore.Sound := by
  have hchecking := countP_set WorkerStage.isChecking hi stage'
  have hasleep := countP_set WorkerStage.isAsleep hi stage'
  rw [hbefore] at hchecking
  rw [hafter] at hasleep
  unfold semaphore Semaphore.Sound at h ⊢
  simpa only [setWorker, Nat.add_right_cancel hchecking, Nat.add_right_cancel hasleep] using h

/-- A worker's step is a step of the semaphore, or elsewhere. -/
theorem sound_of_works (h : s.semaphore.Sound) (hi : s.workers[i]? = some stage)
    (hworks : Works s i stage stage' s₁) : (s₁.setWorker i stage').semaphore.Sound := by
  have hchecking := countP_set WorkerStage.isChecking hi stage'
  have hasleep := countP_set WorkerStage.isAsleep hi stage'
  cases hworks with
  | enter => exact h.step (.enter rfl hchecking hasleep)
  | pass hcount => exact h.step (.pass hcount.symm hchecking hasleep)
  | sleep hcount => exact h.step (.sleep hcount rfl hchecking hasleep)
  | test hbefore hafter =>
    have hb := WorkerStage.uncounted_of_isAside hbefore
    have ha := WorkerStage.uncounted_of_isAside hafter
    exact sound_setWorker h hi (hb.checking.trans ha.checking.symm) (hb.asleep.trans ha.asleep.symm)
  | popEmpty | pop | call | ret | uncount | idle => exact sound_setWorker h hi rfl rfl

theorem sound_of_signals (h : s.semaphore.Sound) (hsignals : Signals s s') :
    s'.semaphore.Sound := by
  cases hsignals with
  | nobody hasleep => exact h.step (.signal hasleep rfl rfl rfl)
  | notify hj =>
    have hchecking := countP_set WorkerStage.isChecking hj .checking
    have hasleep := countP_set WorkerStage.isAsleep hj .checking
    exact h.step (.notify rfl hchecking hasleep)

theorem sound_of_moves (h : s.semaphore.Sound) (hmoves : Moves s l s') : s'.semaphore.Sound := by
  cases hmoves with
  | start hnone =>
    intro hasleep
    simp [semaphore, List.countP_replicate, WorkerStage.isAsleep] at hasleep
  | pushWorker _ hi => exact sound_setWorker h hi rfl rfl
  | signalEpoll _ hsignals => exact sound_of_signals (s := { s with epoll := .waiting }) h hsignals
  | @signalWorker i _ event _ hi hsignals =>
    have hrunning : (s.setWorker i (.running (some event))).semaphore.Sound :=
      sound_setWorker h hi rfl rfl
    exact sound_of_signals hrunning hsignals
  | stopWorkers _ hsignals => exact sound_of_signals h hsignals
  | work hi hworks => exact sound_of_works h hi hworks
  | throw hi => exact sound_setWorker h hi rfl rfl
  | wake hi =>
    have hchecking := countP_set WorkerStage.isChecking hi .checking
    have hasleep := countP_set WorkerStage.isAsleep hi .checking
    exact h.step (.wake rfl hchecking hasleep)
  | other | pushEpoll | expire | leave => exact h

/-! ### The Account -/

/-- A worker at another stage -/
theorem accounted_setWorker (hi : s.workers[i]? = some stage) (stage' : WorkerStage ε) :
    (s.setWorker i stage').accounted + stage.pending = s.accounted + stage'.pending := by
  have hwoken := countP_set WorkerStage.isWoken hi stage'
  have hsignalling := countP_set WorkerStage.isSignalling hi stage'
  rw [WorkerStage.pending_eq, WorkerStage.pending_eq]
  simp only [accounted, producers, woken, setWorker]
  omega

/-- The queue and the account grow by the same number. -/
def Balanced (s s' : EventQueue ε) : Prop :=
  s'.eventQueue.length + s.accounted = s.eventQueue.length + s'.accounted

/-- A worker that is in the account neither before nor after -/
theorem balanced_setWorker (hi : s.workers[i]? = some stage)
    (hpending : stage.pending = stage'.pending) : Balanced s (s.setWorker i stage') := by
  have hset := accounted_setWorker hi stage'
  rw [hpending] at hset
  rw [Balanced, Nat.add_right_cancel hset]
  rfl

/-- A worker takes one from the account when it takes one from the queue. -/
theorem balanced_of_works (hi : s.workers[i]? = some stage) (hworks : Works s i stage stage' s₁)
    (hfound : stage = .woken → s.eventQueue ≠ []) : Balanced s (s₁.setWorker i stage') := by
  cases hworks with
  | popEmpty hempty => exact absurd hempty (hfound rfl)
  | test hbefore hafter =>
    have hb := WorkerStage.uncounted_of_isAside hbefore
    have ha := WorkerStage.uncounted_of_isAside hafter
    exact balanced_setWorker hi (hb.pending.trans ha.pending.symm)
  | @pass count hcount =>
    have hset : ({ s with count := count }.setWorker i .woken).accounted + 0 =
        ({ s with count := count } : EventQueue ε).accounted + 1 :=
      accounted_setWorker (s := { s with count := count }) hi _
    have htaken : s.accounted = ({ s with count := count } : EventQueue ε).accounted + 1 := by
      simp only [accounted, producers, woken, hcount]
      omega
    rw [Balanced, htaken, ← hset]
    rfl
  | @pop event rest hqueue =>
    have hset : (s.setWorker i (.popped (some event))).accounted + 1 = s.accounted + 0 :=
      accounted_setWorker hi _
    change rest.length + s.accounted =
      s.eventQueue.length + (s.setWorker i (.popped (some event))).accounted
    rw [hqueue, List.length_cons]
    omega
  | enter | sleep | call | ret | uncount | idle => exact balanced_setWorker hi rfl

/-- `signal` adds one to the account. -/
theorem accounted_of_signals (hsignals : Signals s s') :
    s'.accounted = s.accounted + 1 ∧ s'.eventQueue = s.eventQueue := by
  have hadded : ({ s with count := s.count + 1 } : EventQueue ε).accounted = s.accounted + 1 := by
    simp only [accounted, producers, woken]
    omega
  cases hsignals with
  | nobody => exact ⟨hadded, rfl⟩
  | notify hj =>
    have hset := accounted_setWorker (s := { s with count := s.count + 1 }) hj .checking
    exact ⟨hset.trans hadded, rfl⟩

/-- A step keeps the balance, or pops from an empty queue, or is a signal of `stopWorkers`. -/
theorem account_of_moves (hmoves : Moves s l s') :
    Balanced s s' ∨ (0 < s.woken ∧ s.eventQueue = [] ∧ s'.eventQueue = []) ∨
      (s.epoll = .left ∧ s'.eventQueue = s.eventQueue ∧ s'.accounted = s.accounted + 1) := by
  cases hmoves with
  | other => exact .inl rfl
  | start hnone =>
    left
    simp only [Balanced, accounted, producers, woken, hnone, List.countP_replicate,
      WorkerStage.isWoken, WorkerStage.isSignalling, List.countP_nil, Bool.false_eq_true, if_false]
  | pushEpoll _ hbefore hafter =>
    left
    have hwaiting : s.epoll.isSignalling = false := by rw [hbefore]; rfl
    simp only [Balanced, accounted, producers, woken, push, hwaiting, hafter, List.length_append,
      List.length_singleton, Bool.toNat_true, Bool.toNat_false]
    omega
  | @pushWorker _ i event x _ hi =>
    left
    have hset : (s.setWorker i (.signalling x)).accounted + 0 = s.accounted + 1 :=
      accounted_setWorker hi _
    change (s.eventQueue ++ [event]).length + s.accounted =
      s.eventQueue.length + ((s.setWorker i (.signalling x)).accounted + 0)
    rw [hset, List.length_append, List.length_singleton]
    omega
  | expire hbefore hafter =>
    left
    simp only [Balanced, accounted, producers, woken, hbefore, hafter]
  | signalEpoll hepoll hsignals =>
    left
    obtain ⟨haccounted, hqueue⟩ := accounted_of_signals hsignals
    have hdone : ({ s with epoll := .waiting } : EventQueue ε).accounted + 1 = s.accounted := by
      simp only [accounted, producers, woken, hepoll, EpollStage.isSignalling, Bool.toNat_true,
        Bool.toNat_false]
      omega
    rw [Balanced, haccounted, hqueue, hdone]
  | @signalWorker i _ event _ hi hsignals =>
    left
    obtain ⟨haccounted, hqueue⟩ := accounted_of_signals hsignals
    have hset : (s.setWorker i (.running (some event))).accounted + 1 = s.accounted + 0 :=
      accounted_setWorker hi _
    rw [Balanced, haccounted, hqueue, hset]
    rfl
  | @work i stage stage' s₁ hi hworks =>
    by_cases hempty : stage = .woken ∧ s.eventQueue = []
    · obtain ⟨rfl, hqueue⟩ := hempty
      right
      left
      refine ⟨countP_pos_of_getElem? hi rfl, hqueue, ?_⟩
      cases hworks with
      | popEmpty => exact hqueue
      | pop hcons => simp [hqueue] at hcons
      | test hbefore => cases hbefore
    · exact .inl (balanced_of_works hi hworks fun hwoken hqueue => hempty ⟨hwoken, hqueue⟩)
  | throw hi => exact .inl (balanced_setWorker hi rfl)
  | wake hi => exact .inl (balanced_setWorker hi rfl)
  | leave hepoll =>
    left
    simp only [Balanced, accounted, producers, woken, hepoll, EpollStage.isSignalling]
  | stopWorkers hepoll hsignals =>
    obtain ⟨haccounted, hqueue⟩ := accounted_of_signals hsignals
    exact .inr (.inr ⟨hepoll, hqueue, haccounted⟩)

/-- Who has left `doEpoll` does not come back. -/
theorem left_of_moves (hmoves : Moves s l s') (hleft : s.epoll = .left) : s'.epoll = .left := by
  cases hmoves with
  | pushEpoll _ hbefore => rw [hleft] at hbefore; cases hbefore
  | expire hbefore => rw [hleft] at hbefore; cases hbefore
  | signalEpoll hepoll => rw [hleft] at hepoll; cases hepoll
  | signalWorker _ hsignals | stopWorkers _ hsignals => cases hsignals <;> exact hleft
  | work hi hworks => cases hworks <;> exact hleft
  | leave => rfl
  | other | start | pushWorker | throw | wake => exact hleft

/-! ### The Count of Active Workers -/

theorem active_setWorker (h : s.activeCount = s.workers.countP WorkerStage.isActive)
    (hi : s.workers[i]? = some stage) (hactive : stage.isActive = stage'.isActive) :
    s.activeCount = (s.workers.set i stage').countP WorkerStage.isActive := by
  have hset := countP_set WorkerStage.isActive hi stage'
  rw [hactive] at hset
  exact h.trans (Nat.add_right_cancel hset).symm

theorem active_of_signals (h : s.activeCount = s.workers.countP WorkerStage.isActive)
    (hsignals : Signals s s') : s'.activeCount = s'.workers.countP WorkerStage.isActive := by
  cases hsignals with
  | nobody => exact h
  | notify hj => exact active_setWorker h hj rfl

theorem active_of_moves (h : s.activeCount = s.workers.countP WorkerStage.isActive)
    (hmoves : Moves s l s') : s'.activeCount = s'.workers.countP WorkerStage.isActive := by
  cases hmoves with
  | start hnone =>
    simpa [hnone, List.countP_replicate, WorkerStage.isActive] using h
  | pushWorker _ hi => exact active_setWorker h hi rfl
  | signalEpoll _ hsignals =>
    exact active_of_signals (s := { s with epoll := .waiting }) h hsignals
  | @signalWorker i _ event _ hi hsignals =>
    have hrunning : (s.setWorker i (.running (some event))).activeCount =
        (s.setWorker i (.running (some event))).workers.countP WorkerStage.isActive :=
      active_setWorker h hi rfl
    exact active_of_signals hrunning hsignals
  | stopWorkers _ hsignals => exact active_of_signals h hsignals
  | @work i stage stage' s₁ hi hworks =>
    have hset := countP_set WorkerStage.isActive hi stage'
    cases hworks with
    | call => exact (congrArg Nat.succ h).trans hset.symm
    | uncount =>
      change s.activeCount - 1 = _
      rw [h]
      exact Nat.sub_eq_of_eq_add hset.symm
    | test hbefore hafter =>
      have hb := WorkerStage.uncounted_of_isAside hbefore
      have ha := WorkerStage.uncounted_of_isAside hafter
      exact active_setWorker h hi (hb.active.trans ha.active.symm)
    | enter | pass | sleep | popEmpty | pop | ret | idle => exact active_setWorker h hi rfl
  | throw hi => exact active_setWorker h hi rfl
  | wake hi => exact active_setWorker h hi rfl
  | other | pushEpoll | expire | leave => exact h

/-- **Step** -/
theorem Conserved.step (h : Conserved s) (hstep : s.step l = .ok s') : Conserved s' := by
  have hmoves := moves_of_step hstep
  have haccount := account_of_moves hmoves
  refine ⟨order_of_moves h.order hmoves, ?_, fun hleft => ?_, sound_of_moves h.semaphore hmoves,
    active_of_moves h.active hmoves⟩
  · have hcovered := h.covered
    rcases haccount with hbalanced | ⟨-, -, hempty⟩ | ⟨-, hqueue, hmore⟩
    · rw [Balanced] at hbalanced
      omega
    · rw [hempty]
      exact Nat.zero_le _
    · rw [hqueue, hmore]
      exact Nat.le_succ_of_le hcovered
  · have hbefore : s.epoll ≠ .left := fun h' => hleft (left_of_moves hmoves h')
    have hexact := h.exact hbefore
    rcases haccount with hbalanced | ⟨hwoken, hempty, -⟩ | ⟨hgone, -, -⟩
    · rw [Balanced] at hbalanced
      omega
    · -- a woken worker is in the account, so the queue is not empty
      rw [hempty, List.length_nil, accounted] at hexact
      omega
    · exact absurd hgone hbefore

/-! ## Main Results -/

/-- **Run**: events are popped in the order in which they were pushed, each by one worker. Until
the epoll thread goes on to `stopWorkers`, the length of the queue is the count of the semaphore,
the producers between push and signal and the workers between `sem.wait` and pop; a worker in
between finds an event; and nothing is queued while no producer is in between and the workers that
are not gone are blocked. -/
theorem conserved_of_run (hrun : runFrom step init ls = .ok s) :
    s.pushed = s.popped.map Prod.snd ++ s.eventQueue ∧
      (s.epoll ≠ .left →
        s.eventQueue.length = s.count + s.producers + s.woken ∧
        (.woken ∈ s.workers → s.eventQueue ≠ []) ∧
        (s.producers = 0 → .asleep ∈ s.workers →
          (∀ w ∈ s.workers, w = .asleep ∨ w = .exited ∨ w = .threw) → s.eventQueue = [])) := by
  have h : Conserved s := runFrom_invariant Conserved Conserved.step conserved_init hrun
  refine ⟨h.order, fun hleft =>
    ⟨h.exact hleft, fun hmem hempty => ?_, fun hproducers hmem hall => ?_⟩⟩
  · have hexact := h.exact hleft
    have hpos : 0 < s.woken := List.countP_pos_iff.mpr ⟨.woken, hmem, rfl⟩
    rw [hempty, List.length_nil, accounted] at hexact
    omega
  · have hexact := h.exact hleft
    have hnone : ∀ p : WorkerStage ε → Bool, p .asleep = false → p .exited = false →
        p .threw = false → s.workers.countP p = 0 := by
      intro p hasleep hexited hthrew
      refine List.countP_eq_zero.mpr fun w hw => ?_
      rcases hall w hw with rfl | rfl | rfl <;> simp [*]
    have hcount : s.count = 0 :=
      h.semaphore.count_eq_zero (List.countP_pos_iff.mpr ⟨.asleep, hmem, rfl⟩)
        (hnone WorkerStage.isChecking rfl rfl rfl)
    have hwoken : s.woken = 0 := hnone WorkerStage.isWoken rfl rfl rfl
    rw [accounted, hcount, hproducers, hwoken] at hexact
    exact List.eq_nil_of_length_eq_zero hexact

/-- Two workers: one is woken for the first of two events, and the second event is signalled while
the other worker is asleep. -/
theorem conserved_two_workers : ∃ s : EventQueue ℕ,
    runFrom step init [.add 1, .doInit 1, .work 0, .work 0, .work 1, .work 1,
      .newEvent .epollThread 1 7, .signal .epollThread (some 0), .work 0,
      .newEvent .epollThread 1 8] = .ok s ∧
    s.woken = 1 ∧ s.producers = 1 ∧
    s.eventQueue.length = s.count + s.producers + s.woken ∧ s.eventQueue ≠ [] := by
  obtain ⟨s, hrun, hwoken, hproducers, hepoll, hmem⟩ : ∃ s : EventQueue ℕ,
      runFrom step init [.add 1, .doInit 1, .work 0, .work 0, .work 1, .work 1,
        .newEvent .epollThread 1 7, .signal .epollThread (some 0), .work 0,
        .newEvent .epollThread 1 8] = .ok s ∧
      s.woken = 1 ∧ s.producers = 1 ∧ s.epoll ≠ .left ∧ .woken ∈ s.workers := by
    decide +kernel
  obtain ⟨hlength, hfound, -⟩ := (conserved_of_run hrun).2 hepoll
  exact ⟨s, hrun, hwoken, hproducers, hlength, hfound hmem⟩

end EventQueue

end Epoller
