import Epoller.Timers.Coupling

/-!
# Timers of the Engine

The part of `Engine` that serves timers: worker threads call `setTimer`,
`cancelTimer` and `remove`, the epoll thread takes expiries of the timer
descriptor out of `epoll_wait` and handles them, and the kernel runs the timer.
Whoever holds `timerLock` inside `setTimerTrigger` takes several steps, between
which the kernel and `epoll_wait` may move.

`timerEvent` is a copy. It is made anew when another timer becomes the first, but
not when the first timer is set again: a callable that the event was assigned in
between stays behind.

## Contents

- `EngineTimers`, `EngineStep`, `EngineTimers.step`: the machine
- `InStep`: `timerEvent` belongs to the first timer whenever `timerLock` is free
- `Reassigns`, `CurrentFor`: when it is the copy that the first entry has
- `InStep.account_run`: how often a timer is put on `eventQueue`
- `TimerLaw`, `timerEvent_inStep`: the whole law
-/

namespace Epoller

open Foundation Timers

universe u

variable {φ : Type u}

/-! ## The Machine -/

/-- The thread that holds `timerLock`. -/
inductive Holder where
  | worker
  | epollThread
deriving DecidableEq, Repr

/-- What the holder of `timerLock` does next in `setTimerTrigger`. -/
inductive ArmPhase where
  /-- `clearTimer()` and the assignment of `timerEvent` -/
  | clearTimer
  /-- `epoll_ctl(EPOLL_CTL_MOD)` -/
  | epollCtl
  /-- `timerfd_settime` -/
  | settime
deriving DecidableEq, Repr

/-- `setTimerTrigger(what, when)` in progress. -/
structure Arming (φ : Type u) where
  holder : Holder
  request : ArmRequest φ
  phase : ArmPhase
deriving DecidableEq, Repr

/-- `timerFd` in the kernel: when it will expire, whether it has expired since it was last read or
set, and whether its one-shot registration with epoll is armed. -/
structure TimerFd where
  expiry : Option TimePointNs
  readable : Bool
  interest : Bool
deriving DecidableEq, Repr

/-- The engine, as far as timers go. -/
structure EngineTimers (φ : Type u) where
  timers : Timers φ
  timerEvent : Option (TimerEvent φ)
  /-- `timerLock` is held -/
  arming : Option (Arming φ)
  timerFd : TimerFd
  /-- `epoll_wait` has returned an expiry that the epoll thread has yet to handle -/
  notified : Bool
  /-- The events that `handleTimerExpired` has put on `eventQueue`, oldest first -/
  enqueued : List (TimerEvent φ)
  /-- The sockets in `eventHash` -/
  eventHash : List RunnablePtr
  /-- Sockets erased from `eventHash` by a `doRemove` that has yet to cancel their timers -/
  removing : List RunnablePtr
  now : TimePointNs
deriving DecidableEq

/-- A step of a worker, the epoll thread, the kernel or time. -/
inductive EngineStep (φ : Type u) where
  /-- `doSetTimer`, up to its call of `armTimer`; `func` is the callable that the event has now. -/
  | setTimer (owner : Option RunnablePtr) (timer : EventPtr) (func : φ) (timeout : NanoSecs)
    (r : Readings)
  /-- `doCancelTimer`, up to its call of `armTimer` -/
  | cancelTimer (owner : Option RunnablePtr) (timer : EventPtr) (r : Readings)
  /-- `doAdd` -/
  | add (what : RunnablePtr)
  /-- `doRemove` up to the erasure from `eventHash` -/
  | eraseFromHash (what : RunnablePtr)
  /-- The rest of `doRemove`, up to its call of `armTimer` -/
  | cancelAllTimers (what : RunnablePtr) (r : Readings)
  /-- The holder of `timerLock` goes on in `setTimerTrigger`. -/
  | setTimerTrigger
  /-- `Engine::handleTimerExpired`, up to its call of `armTimer` -/
  | handleTimerExpired (r : Readings)
  /-- `epoll_wait` returns an expiry of `timerFd`. -/
  | epollWait
  /-- The kernel timer expires. -/
  | kernelExpire
  /-- Time passes. -/
  | tick (now : TimePointNs)
deriving DecidableEq, Repr

/-- Why a step is refused. -/
inductive EngineHalt where
  /-- An assertion of `Timers` fails. -/
  | timers (assertion : TimersAssertion)
  /-- "Not found for removal" -/
  | notFoundForRemoval
  /-- "Already exists in hash" -/
  | alreadyInHash
  /-- The step is not possible now. -/
  | disabled
deriving DecidableEq, Repr

/-- The readings follow `now` and each other. -/
def Readings.Follow (r : Readings) (now : TimePointNs) : Prop :=
  now ≤ r.now ∧ r.now ≤ r.removed ∧ r.removed ≤ r.counted ∧ r.counted ≤ r.trigger

instance (r : Readings) (now : TimePointNs) : Decidable (r.Follow now) :=
  inferInstanceAs (Decidable (_ ∧ _))

/-- Time only moves on during a call. -/
theorem Readings.Follow.le_trigger {r : Readings} {now : TimePointNs} (h : r.Follow now) :
    now ≤ r.trigger :=
  ((h.1.trans h.2.1).trans h.2.2.1).trans h.2.2.2

namespace EngineTimers

/-- A fresh engine. -/
def init : EngineTimers φ where
  timers := .empty
  timerEvent := none
  arming := none
  timerFd := ⟨none, false, true⟩
  notified := false
  enqueued := []
  eventHash := []
  removing := []
  now := 0

/-- A call of an operation of `Timers` under `timerLock`. If it calls `armTimer`, the lock stays
with the caller, else it is free again. -/
def locked (s : EngineTimers φ) (holder : Holder) (call : TimersCall φ) :
    Except EngineHalt (EngineTimers φ) :=
  if s.arming = none ∧ call.readings.Follow s.now then
    match s.timers.apply call with
    | .ok outcome =>
      .ok { s with
        timers := outcome.timers
        arming := outcome.request.map fun request => ⟨holder, request, .clearTimer⟩
        now := call.readings.trigger }
    | .error assertion => .error (.timers assertion)
  else .error .disabled

/-- `setTimerTrigger`, one phase at a time -/
def setTimerTrigger (s : EngineTimers φ) (a : Arming φ) : EngineTimers φ :=
  match a.phase with
  | .clearTimer =>
    -- `clearTimer` reads the descriptor until nothing is left to read
    let s := { s with timerFd := { s.timerFd with readable := false } }
    if a.request.when = 0 then { s with timerEvent := none, arming := none }
    else { s with timerEvent := a.request.what, arming := some { a with phase := .epollCtl } }
  | .epollCtl =>
    { s with
      timerFd := { s.timerFd with interest := true }
      arming := some { a with phase := .settime } }
  | .settime =>
    -- setting the timer also discards an expiry that was not read
    { s with
      timerFd := { s.timerFd with expiry := some (s.now + a.request.when), readable := false }
      arming := none }

/-- `Engine::handleTimerExpired`: the pending event is queued and the first timer removed. -/
def handleTimerExpired (s : EngineTimers φ) (r : Readings) : Except EngineHalt (EngineTimers φ) :=
  if s.notified = true ∧ s.arming = none ∧ r.Follow s.now then
    match s.timerEvent with
    | none => .ok { s with notified := false }
    | some event =>
      let s := { s with
        timerFd := { s.timerFd with readable := false }
        enqueued := s.enqueued ++ [event]
        timerEvent := none
        notified := false }
      s.locked .epollThread (.handleTimerExpired r)
  else .error .disabled

/-- The epoll thread holds `timerLock`. -/
def EpollThreadBusy (s : EngineTimers φ) : Prop := ∃ a ∈ s.arming, a.holder = .epollThread

instance (s : EngineTimers φ) : Decidable s.EpollThreadBusy :=
  inferInstanceAs (Decidable (∃ a ∈ s.arming, a.holder = .epollThread))

/-- One step. -/
def step (s : EngineTimers φ) : EngineStep φ → Except EngineHalt (EngineTimers φ)
  | .setTimer owner timer func timeout r => s.locked .worker (.setTimer owner timer func timeout r)
  | .cancelTimer owner timer r => s.locked .worker (.cancelTimer owner timer r)
  | .add what =>
    if what ∈ s.eventHash then .error .alreadyInHash
    else .ok { s with eventHash := what :: s.eventHash }
  | .eraseFromHash what =>
    if what ∈ s.eventHash then
      .ok { s with eventHash := s.eventHash.erase what, removing := what :: s.removing }
    else .error .notFoundForRemoval
  | .cancelAllTimers what r =>
    if what ∈ s.removing then
      { s with removing := s.removing.erase what }.locked .worker (.cancelAllTimers what r)
    else .error .disabled
  | .setTimerTrigger =>
    match s.arming with
    | some a => .ok (s.setTimerTrigger a)
    | none => .error .disabled
  | .handleTimerExpired r => s.handleTimerExpired r
  | .epollWait =>
    if s.notified = false ∧ ¬ s.EpollThreadBusy ∧ s.timerFd.readable = true ∧
        s.timerFd.interest = true then
      .ok { s with timerFd := { s.timerFd with interest := false }, notified := true }
    else .error .disabled
  | .kernelExpire =>
    if s.timerFd.expiry = none then .error .disabled
    else .ok { s with timerFd := { s.timerFd with expiry := none, readable := true } }
  | .tick now => if s.now ≤ now then .ok { s with now } else .error .disabled

/-! ## What a Step Does -/

/-- The operation of `Timers` that a step of a worker calls. -/
def call? : EngineStep φ → Option (TimersCall φ)
  | .setTimer owner timer func timeout r => some (.setTimer owner timer func timeout r)
  | .cancelTimer owner timer r => some (.cancelTimer owner timer r)
  | .cancelAllTimers what r => some (.cancelAllTimers what r)
  | _ => none

variable {s s' : EngineTimers φ}

/-- `setTimerTrigger` does not touch the timers, nor `eventQueue`. -/
@[simp] theorem setTimerTrigger_timers (s : EngineTimers φ) (a : Arming φ) :
    (s.setTimerTrigger a).timers = s.timers := by
  unfold setTimerTrigger
  cases a.phase <;> simp only
  split <;> rfl

@[simp] theorem setTimerTrigger_enqueued (s : EngineTimers φ) (a : Arming φ) :
    (s.setTimerTrigger a).enqueued = s.enqueued := by
  unfold setTimerTrigger
  cases a.phase <;> simp only
  split <;> rfl

/-- **Specification of `step`**: everything a step can do. -/
inductive Moves (s : EngineTimers φ) : EngineStep φ → EngineTimers φ → Prop where
  /-- A worker takes `timerLock` and calls an operation of `Timers`. -/
  | call {l : EngineStep φ} {call : TimersCall φ} {outcome : Outcome φ}
      (removing : List RunnablePtr) (hcall : call? l = some call) (hfree : s.arming = none)
      (hfollow : call.readings.Follow s.now) (happly : s.timers.apply call = .ok outcome) :
      Moves s l { s with
        timers := outcome.timers
        arming := outcome.request.map fun request => ⟨.worker, request, .clearTimer⟩
        now := call.readings.trigger
        removing }
  | arm {a : Arming φ} (ha : s.arming = some a) : Moves s .setTimerTrigger (s.setTimerTrigger a)
  /-- An expiry without a pending event. -/
  | stale {r : Readings} (hnotified : s.notified = true) (hfree : s.arming = none)
      (hnone : s.timerEvent = none) : Moves s (.handleTimerExpired r) { s with notified := false }
  /-- The pending event is queued. -/
  | fire {r : Readings} {event : TimerEvent φ} {outcome : Outcome φ}
      (hnotified : s.notified = true) (hfree : s.arming = none) (hfollow : r.Follow s.now)
      (hevent : s.timerEvent = some event)
      (happly : s.timers.apply (.handleTimerExpired r) = .ok outcome) :
      Moves s (.handleTimerExpired r) { s with
        timers := outcome.timers
        timerEvent := none
        arming := outcome.request.map fun request => ⟨.epollThread, request, .clearTimer⟩
        timerFd := { s.timerFd with readable := false }
        notified := false
        enqueued := s.enqueued ++ [event]
        now := r.trigger }
  | hash {l : EngineStep φ} (eventHash removing : List RunnablePtr) (hcall : call? l = none) :
      Moves s l { s with eventHash, removing }
  | epollWait (hnotified : s.notified = false) (hidle : ¬ s.EpollThreadBusy)
      (hreadable : s.timerFd.readable = true) :
      Moves s .epollWait
        { s with timerFd := { s.timerFd with interest := false }, notified := true }
  | kernelExpire {x : TimePointNs} (hx : s.timerFd.expiry = some x) :
      Moves s .kernelExpire
        { s with timerFd := { s.timerFd with expiry := none, readable := true } }
  | tick {now : TimePointNs} (hnow : s.now ≤ now) : Moves s (.tick now) { s with now }

theorem locked_eq_ok_iff {holder : Holder} {call : TimersCall φ} :
    s.locked holder call = .ok s' ↔
      s.arming = none ∧ call.readings.Follow s.now ∧
        ∃ outcome, s.timers.apply call = .ok outcome ∧ s' = { s with
          timers := outcome.timers
          arming := outcome.request.map fun request => ⟨holder, request, .clearTimer⟩
          now := call.readings.trigger } := by
  unfold locked
  split
  · rename_i h
    simp only [h.1, h.2, true_and]
    cases s.timers.apply call <;> simp [eq_comm]
  · rename_i h
    simp only [reduceCtorEq, false_iff]
    exact fun h' => h ⟨h'.1, h'.2.1⟩

theorem moves_of_step {l : EngineStep φ} (h : s.step l = .ok s') : Moves s l s' := by
  cases l with
  | setTimer owner timer func timeout r =>
    obtain ⟨hfree, hfollow, outcome, happly, rfl⟩ := locked_eq_ok_iff.mp h
    exact .call s.removing rfl hfree hfollow happly
  | cancelTimer owner timer r =>
    obtain ⟨hfree, hfollow, outcome, happly, rfl⟩ := locked_eq_ok_iff.mp h
    exact .call s.removing rfl hfree hfollow happly
  | add what =>
    simp only [step] at h
    split at h
    · cases h
    · cases h
      exact .hash (what :: s.eventHash) s.removing rfl
  | eraseFromHash what =>
    simp only [step] at h
    split at h
    · cases h
      exact .hash (s.eventHash.erase what) (what :: s.removing) rfl
    · cases h
  | cancelAllTimers what r =>
    simp only [step] at h
    split at h
    · obtain ⟨hfree, hfollow, outcome, happly, rfl⟩ := locked_eq_ok_iff.mp h
      exact .call (s.removing.erase what) rfl hfree hfollow happly
    · cases h
  | setTimerTrigger =>
    simp only [step] at h
    split at h
    · rename_i a ha
      cases h
      exact .arm ha
    · cases h
  | handleTimerExpired r =>
    simp only [step, handleTimerExpired] at h
    split at h
    · rename_i hready
      obtain ⟨hnotified, hfree, hfollow⟩ := hready
      split at h
      · rename_i hnone
        cases h
        exact .stale hnotified hfree hnone
      · rename_i event hevent
        obtain ⟨-, -, outcome, happly, rfl⟩ := locked_eq_ok_iff.mp h
        exact .fire hnotified hfree hfollow hevent happly
    · cases h
  | epollWait =>
    simp only [step] at h
    split at h
    · rename_i hready
      cases h
      exact .epollWait hready.1 hready.2.1 hready.2.2.1
    · cases h
  | kernelExpire =>
    simp only [step] at h
    split at h
    · cases h
    · rename_i hne
      obtain ⟨x, hx⟩ := Option.ne_none_iff_exists'.mp hne
      cases h
      exact .kernelExpire hx
  | tick now =>
    simp only [step] at h
    split at h
    · rename_i hnow
      cases h
      exact .tick hnow
    · cases h

/-! ## `timerEvent` and the First Timer -/

/-- `timerEvent` belongs to the first timer while `timerLock` is free; while it is held, the request
being served is for the first entry. -/
structure InStep (s : EngineTimers φ) : Prop where
  coupled : Coupled s.timers
  free : s.arming = none → s.timerEvent.map TimerEvent.key = s.timers.getStartEvent
  what : ∀ a, s.arming = some a → a.request.what = s.timers.startEvent
  when : ∀ a, s.arming = some a → (a.request.when = 0 ↔ s.timers.startEvent = none)
  assigned : ∀ a, s.arming = some a → a.phase ≠ .clearTimer → s.timerEvent = s.timers.startEvent

theorem inStep_init : InStep (init : EngineTimers φ) :=
  ⟨coupled_empty, fun _ => rfl, fun _ h => (by cases h), fun _ h => (by cases h),
    fun _ h => (by cases h)⟩

/-- After an operation, either nothing is armed and the first timer is what it was, or the request
is for the first entry. -/
theorem InStep.outcome {call : TimersCall φ} {outcome : Outcome φ} {holder : Holder}
    (h : InStep s) (hfree : s.arming = none) (happly : s.timers.apply call = .ok outcome)
    (hs' : s'.timers = outcome.timers)
    (harming : s'.arming = outcome.request.map fun request => ⟨holder, request, .clearTimer⟩)
    (hevent : outcome.request = none → s'.timerEvent = s.timerEvent) : InStep s' := by
  have heffect := h.coupled.effect_of_apply happly
  have hcoupled : Coupled s'.timers := hs' ▸ h.coupled.effect heffect
  -- either the first entry kept owner and event, or the request is made for the new one
  rcases heffect.request with ⟨hnone, hstart⟩ | hsome
  · have hidle : s'.arming = none := by rw [harming, hnone]; rfl
    refine ⟨hcoupled, fun _ => ?_, fun a ha => ?_, fun a ha => ?_, fun a ha => ?_⟩
    · rw [hevent hnone, h.free hfree, hs', hstart]
    -- nothing is being armed
    all_goals rw [hidle] at ha; cases ha
  · rw [hsome] at harming
    refine ⟨hcoupled, fun hnone => ?_, fun a ha => ?_, fun a ha => ?_, fun a ha => ?_⟩
    · rw [harming] at hnone
      cases hnone
    · cases harming.symm.trans ha
      rw [hs', setTrigger_what]
    · cases harming.symm.trans ha
      rw [hs', setTrigger_when_eq_zero_iff]
    · cases harming.symm.trans ha
      exact fun hphase => absurd rfl hphase

/-- When `setTimerTrigger` gives the lock back, `timerEvent` is the copy of the first entry. -/
theorem InStep.timerEvent_setTimerTrigger (h : InStep s) {a : Arming φ} (ha : s.arming = some a)
    (hfree : (s.setTimerTrigger a).arming = none) :
    (s.setTimerTrigger a).timerEvent = (s.setTimerTrigger a).timers.startEvent := by
  revert hfree
  unfold EngineTimers.setTimerTrigger
  split
  · simp only
    split
    -- the disarm request: no timer is pending
    · rename_i hzero
      exact fun _ => ((h.when a ha).mp hzero).symm
    · exact nofun
  · exact nofun
  · rename_i hphase
    exact fun _ => h.assigned a ha (by rw [hphase]; decide)

theorem InStep.setTimerTrigger (h : InStep s) {a : Arming φ} (ha : s.arming = some a) :
    InStep (s.setTimerTrigger a) := by
  have hwhat := h.what a ha
  have hwhen := h.when a ha
  have hfree := h.timerEvent_setTimerTrigger ha
  revert hfree
  unfold EngineTimers.setTimerTrigger
  split
  · simp only
    split
    · refine fun hfree => ⟨h.coupled, fun hb => ?_, nofun, nofun, nofun⟩
      exact (congrArg _ (hfree hb)).trans (map_key_startEvent _)
    · refine fun _ => ⟨h.coupled, nofun, fun b hb => ?_, fun b hb => ?_, fun b hb _ => hwhat⟩
      · cases hb
        exact hwhat
      · cases hb
        exact hwhen
  · rename_i hphase
    refine fun _ => ⟨h.coupled, nofun, fun b hb => ?_, fun b hb => ?_, fun b hb _ => ?_⟩
    · cases hb
      exact hwhat
    · cases hb
      exact hwhen
    · exact h.assigned a ha (by rw [hphase]; decide)
  · refine fun hfree => ⟨h.coupled, fun hb => ?_, nofun, nofun, nofun⟩
    exact (congrArg _ (hfree hb)).trans (map_key_startEvent _)

/-- **Step**: every step keeps `timerEvent` in step. -/
theorem InStep.step {l : EngineStep φ} (h : InStep s) (hstep : s.step l = .ok s') : InStep s' := by
  cases moves_of_step hstep with
  | call removing hcall hfree hfollow happly =>
    exact h.outcome hfree happly rfl rfl fun _ => rfl
  | arm ha => exact h.setTimerTrigger ha
  | fire hnotified hfree hfollow hevent happly =>
    refine h.outcome hfree happly rfl rfl fun hnone => ?_
    cases h.coupled.effect_of_apply happly
    cases hnone
  | stale | hash | epollWait | kernelExpire | tick =>
    exact ⟨h.coupled, h.free, h.what, h.when, h.assigned⟩

theorem inStep_of_run {ls : List (EngineStep φ)} (hrun : runFrom step init ls = .ok s) :
    InStep s :=
  runFrom_invariant InStep (fun h hstep => h.step hstep) inStep_init hrun

/-! ## `timerEvent` and the First Entry -/

/-- The first timer is set again, with another callable in its event, and stays the first. -/
def Reassigns (s : EngineTimers φ) : EngineStep φ → Prop
  | .setTimer (some owner) timer func timeout r =>
    s.timers.getStartEvent = some (owner, timer) ∧
      s.timers.startEvent ≠ some ⟨owner, timer, func⟩ ∧
      ∀ p ∈ (s.timers.without (owner, timer)).dateTriples, r.now + timeout < p.deadline
  | _ => False

instance [DecidableEq φ] (s : EngineTimers φ) (l : EngineStep φ) : Decidable (s.Reassigns l) :=
  match l with
  | .setTimer (some owner) timer func timeout r =>
    inferInstanceAs (Decidable (s.timers.getStartEvent = some (owner, timer) ∧
      s.timers.startEvent ≠ some ⟨owner, timer, func⟩ ∧
      ∀ p ∈ (s.timers.without (owner, timer)).dateTriples, r.now + timeout < p.deadline))
  | .setTimer none _ _ _ _ | .cancelTimer _ _ _ | .add _ | .eraseFromHash _ | .cancelAllTimers _ _
  | .setTimerTrigger | .handleTimerExpired _ | .epollWait | .kernelExpire | .tick _ =>
    inferInstanceAs (Decidable False)

/-- If the first timer is one of `what`, `timerEvent` is the copy that its entry has, while
`timerLock` is free. -/
def CurrentFor (what : RunnablePtr) (s : EngineTimers φ) : Prop :=
  s.arming = none → ∀ event, s.timers.startEvent = some event → event.obj = what →
    s.timerEvent = some event

theorem currentFor_init (what : RunnablePtr) : CurrentFor what (init : EngineTimers φ) :=
  fun _ _ h => (by cases h)

/-- **Step**: a step that reassigns no timer of `what` keeps the copies of its timers current. -/
theorem currentFor_step {what : RunnablePtr} {l : EngineStep φ} (hinStep : InStep s)
    (h : CurrentFor what s)
    (hl : ∀ timer func timeout r, l = .setTimer (some what) timer func timeout r → ¬ s.Reassigns l)
    (hstep : s.step l = .ok s') : CurrentFor what s' := by
  cases moves_of_step hstep with
  | @call _ call outcome removing hcall hfree hfollow happly =>
    intro hidle event hevent hobj
    have heffect := hinStep.coupled.effect_of_apply happly
    rcases heffect.request with ⟨-, hstart⟩ | hsome
    · rcases heffect.startEvent hinStep.coupled hstart with hsame | ⟨owner, timer, func, timeout, r,
        rfl, hfirst, hnew, hleast⟩
      · exact h hfree event (hsame ▸ hevent) hobj
      -- the first timer was set again: not with another callable
      · obtain rfl : event = ⟨owner, timer, func⟩ := Option.some.inj (hevent.symm.trans hnew)
        obtain rfl : owner = what := hobj
        have hl' : l = .setTimer (some owner) timer func timeout r := by
          cases l <;> cases hcall
          rfl
        have hold : s.timers.startEvent = some ⟨owner, timer, func⟩ := by
          by_contra hne
          exact hl timer func timeout r hl' (hl' ▸ ⟨hfirst, hne, hleast⟩)
        exact h hfree _ hold rfl
    -- a call that asks for `setTimerTrigger` leaves `timerLock` taken
    · rw [hsome] at hidle
      cases hidle
  -- `setTimerTrigger` copies the callable of the first entry as it is now
  | arm ha =>
    intro hidle event hevent _
    rw [hinStep.timerEvent_setTimerTrigger ha hidle, hevent]
  | fire hnotified hfree hfollow hevent happly =>
    intro hidle
    cases hinStep.coupled.effect_of_apply happly
    cases hidle
  | stale | hash | epollWait | kernelExpire | tick => exact h

theorem currentFor_of_run {ls : List (EngineStep φ)}
    (hreassigns : AllSteps step (fun s l => ¬ s.Reassigns l) init ls)
    (hrun : runFrom step init ls = .ok s) (what : RunnablePtr) : CurrentFor what s :=
  (AllSteps.invariant (fun s : EngineTimers φ => InStep s ∧ CurrentFor what s)
    (fun h hl hstep => ⟨h.1.step hstep, currentFor_step h.1 h.2 (fun _ _ _ _ _ => hl) hstep⟩)
    ⟨inStep_init, currentFor_init what⟩ hreassigns hrun).2

/-- With every timer current, `timerEvent` is the copy of the first entry. -/
theorem InStep.timerEvent_eq (h : InStep s) (hcurrent : ∀ what, CurrentFor what s)
    (hfree : s.arming = none) : s.timerEvent = s.timers.startEvent := by
  cases hstart : s.timers.startEvent with
  | some event => exact hcurrent event.obj hfree event hstart rfl
  | none =>
    have hkey := h.free hfree
    rw [← map_key_startEvent, hstart] at hkey
    exact Option.map_eq_none_iff.mp hkey

/-- A step that reassigns the first timer leaves the older copy armed. -/
theorem InStep.not_current_of_reassigns (h : InStep s) (hcurrent : ∀ what, CurrentFor what s)
    {l : EngineStep φ} (hl : s.Reassigns l) (hstep : s.step l = .ok s') :
    s'.arming = none ∧ s'.timerEvent ≠ s'.timers.startEvent := by
  cases l with
  | setTimer owner timer func timeout r =>
    cases owner with
    | none => exact hl.elim
    | some owner =>
      obtain ⟨hstart, hne, hleast⟩ := hl
      obtain ⟨hfree, hfollow, outcome, happly, rfl⟩ := locked_eq_ok_iff.mp hstep
      cases h.coupled.effect_of_apply happly with
      | set _ _ _ _ _ hdate =>
        -- the entry that was put is the first one
        have hbegin : (s.timers.put ⟨owner, timer, r.now + timeout⟩ func).timesByDate.begin? =
            some (r.now + timeout, ⟨owner, timer, func⟩) := by
          have hperm := SortedMap.emplace_perm (v := (⟨owner, timer, func⟩ : TimerRunnableId φ))
            (free_iff.mp hdate)
          refine SortedMap.begin?_eq_some_iff.mpr
            ⟨hperm.mem_iff.mpr (List.mem_cons_self ..), fun e he hother => ?_⟩
          obtain heq | hold := List.mem_cons.mp (hperm.mem_iff.mp he)
          · exact absurd heq hother
          · exact hleast _ (List.mem_map_of_mem hold)
        have hkept : retrigger s.timers (s.timers.put ⟨owner, timer, r.now + timeout⟩ func)
            r.trigger = none := by
          rw [Timers.retrigger, if_neg]
          rw [hstart, getStartEvent, hbegin]
          simp
        refine ⟨congrArg (Option.map _) hkept, ?_⟩
        have hnew : (s.timers.put ⟨owner, timer, r.now + timeout⟩ func).startEvent =
            some ⟨owner, timer, func⟩ := by
          rw [startEvent, hbegin]
          rfl
        change s.timerEvent ≠ _
        rw [h.timerEvent_eq hcurrent hfree, hnew]
        exact hne
  | _ => exact hl.elim

/-! ## How Often a Timer Is Queued -/

/-- The timer is pending. -/
def IsPending (t : Timers φ) (k : RunnablePtr × EventPtr) : Prop := ∃ p ∈ t.dateTriples, p.key = k

instance (t : Timers φ) (k : RunnablePtr × EventPtr) : Decidable (IsPending t k) :=
  inferInstanceAs (Decidable (∃ p ∈ t.dateTriples, p.key = k))

/-- The step sets the timer. -/
def Sets (k : RunnablePtr × EventPtr) : EngineStep φ → Prop
  | .setTimer owner timer _ _ _ => owner = some k.1 ∧ timer = k.2
  | _ => False

/-- The step cancels the timer: alone, or with the other timers of its owner when the owner is
removed from the engine. -/
def Cancels (k : RunnablePtr × EventPtr) : EngineStep φ → Prop
  | .cancelTimer owner timer _ => owner = some k.1 ∧ timer = k.2
  | .cancelAllTimers what _ => what = k.1
  | _ => False

/-- How often an event of the timer was queued -/
def queuedFor (s : EngineTimers φ) (k : RunnablePtr × EventPtr) : ℕ :=
  (s.enqueued.map TimerEvent.key).count k

/-- Times the timer was queued, and one more if it is still pending. -/
def account (s : EngineTimers φ) (k : RunnablePtr × EventPtr) : ℕ :=
  s.queuedFor k + if IsPending s.timers k then 1 else 0

theorem account_le (h : s'.enqueued = s.enqueued) {k : RunnablePtr × EventPtr}
    (hpending : IsPending s'.timers k → IsPending s.timers k) : s'.account k ≤ s.account k := by
  unfold account queuedFor
  rw [h]
  split
  · rename_i h'
    rw [if_pos (hpending h')]
  · omega

/-- **What one expiry does**: it queues an event of the first timer and removes that timer, or it
changes nothing. -/
theorem InStep.fire {r : Readings} (h : InStep s)
    (hstep : s.step (.handleTimerExpired r) = .ok s') :
    (s'.enqueued = s.enqueued ∧ s'.timers = s.timers) ∨
      ∃ e event, s.timers.timesByDate.begin? = some e ∧ s.arming = none ∧
        s.timerEvent = some event ∧ event.key = e.2.eventObj.key ∧
        s'.enqueued = s.enqueued ++ [event] ∧
        s'.timers = s.timers.without (Pending.ofDate e).key := by
  cases moves_of_step hstep with
  | stale => exact Or.inl ⟨rfl, rfl⟩
  | fire hnotified hfree hfollow hevent happly =>
    have hstart := h.free hfree
    rw [hevent, ← map_key_startEvent] at hstart
    cases h.coupled.effect_of_apply happly with
    | expired r e hfirst =>
      -- with `timerLock` free, `timerEvent` belongs to the first timer
      rw [startEvent, hfirst] at hstart
      exact Or.inr ⟨e, _, hfirst, hfree, hevent, Option.some.inj hstart, rfl, rfl⟩
  | call removing hcall => cases hcall
  | hash => exact Or.inl ⟨rfl, rfl⟩

theorem not_isPending_without {t : Timers φ} {k : RunnablePtr × EventPtr} :
    ¬ IsPending (t.without k) k := by
  rintro ⟨q, hq, hkey⟩
  exact (mem_dateTriples_without.mp hq).2 hkey

/-- Queueing an event of a pending timer and removing the timer moves one unit of its account. -/
theorem account_fire {event : TimerEvent φ} {k : RunnablePtr × EventPtr}
    (hpending : IsPending s.timers event.key) (henqueued : s'.enqueued = s.enqueued ++ [event])
    (htimers : s'.timers = s.timers.without event.key) : s'.account k ≤ s.account k := by
  simp only [account, queuedFor, henqueued, htimers, List.map_append, List.map_singleton,
    List.count_append, List.count_singleton]
  -- the count of this timer goes up by the unit that was pending, another one keeps its account
  by_cases heq : event.key = k
  · subst heq
    rw [if_neg not_isPending_without, if_pos hpending]
    simp
  · have hne : (event.key == k) = false := by simpa using heq
    have hsub : IsPending (s.timers.without event.key) k → IsPending s.timers k := by
      rintro ⟨q, hq, hqe⟩
      exact ⟨q, (mem_dateTriples_without.mp hq).1, hqe⟩
    rw [hne]
    by_cases hpend : IsPending (s.timers.without event.key) k
    · rw [if_pos hpend, if_pos (hsub hpend)]
      simp
    · rw [if_neg hpend]
      simp

/-- A call of an operation that does not set the timer does not make it pending. -/
theorem isPending_of_effect {t : Timers φ} {call : TimersCall φ} {outcome : Outcome φ}
    {k : RunnablePtr × EventPtr} (heffect : Effect t call outcome)
    (hsets : ∀ func timeout r, call ≠ .setTimer (some k.1) k.2 func timeout r)
    (hpending : IsPending outcome.timers k) : IsPending t k := by
  obtain ⟨p, hp, rfl⟩ := hpending
  rcases heffect.mem_dateTriples hp with hmem | ⟨func, timeout, r, hcall⟩
  · exact ⟨p, hmem, rfl⟩
  · exact absurd hcall (hsets func timeout r)

/-- **Step**: only a `setTimer` of the timer adds to its account. -/
theorem InStep.account_step (h : InStep s) {l : EngineStep φ} {k : RunnablePtr × EventPtr}
    (hsets : ¬ Sets k l) (hstep : s.step l = .ok s') : s'.account k ≤ s.account k := by
  cases moves_of_step hstep with
  | call removing hcall hfree hfollow happly =>
    have heffect := h.coupled.effect_of_apply happly
    apply account_le
    · rfl
    · refine isPending_of_effect heffect ?_
      rintro func timeout r rfl
      cases l <;> cases hcall
      exact hsets ⟨rfl, rfl⟩
  | @arm a =>
    refine account_le (setTimerTrigger_enqueued s a) fun hpending => ?_
    rwa [setTimerTrigger_timers] at hpending
  | fire hnotified hfree hfollow hevent happly =>
    rcases h.fire hstep with ⟨henqueued, -⟩ | ⟨e, event, hfirst, -, -, hkey, henqueued, htimers⟩
    · exact absurd henqueued (by simp)
    · have hmem := (SortedMap.begin?_eq_some_iff.mp hfirst).1
      refine account_fire ⟨_, List.mem_map_of_mem hmem, hkey.symm⟩ henqueued ?_
      rw [htimers, hkey]
      rfl
  | stale | hash | epollWait | kernelExpire | tick => exact account_le rfl id

/-- **Run**: along a run that does not set the timer, it is queued at most as often as it was
pending. -/
theorem InStep.account_run (h : InStep s) {ls : List (EngineStep φ)} {k : RunnablePtr × EventPtr}
    (hsets : ∀ l ∈ ls, ¬ Sets k l) (hrun : runFrom EngineTimers.step s ls = .ok s') :
    s'.account k ≤ s.account k := by
  have hinv := AllSteps.invariant
    (fun x => InStep x ∧ x.account k ≤ s.account k)
    (fun hx hC hstep => ⟨hx.1.step hstep, (hx.1.account_step hC hstep).trans hx.2⟩)
    ⟨h, le_refl _⟩ (AllSteps.of_forall_mem (P := fun l => ¬ Sets k l) hsets) hrun
  exact hinv.2

/-- What was queued stays in the record. -/
theorem enqueued_grows {l : EngineStep φ} (hstep : s.step l = .ok s') :
    s.enqueued <+: s'.enqueued := by
  cases moves_of_step hstep with
  | @arm a => rw [setTimerTrigger_enqueued s a]
  | fire => exact List.prefix_append ..
  | call | stale | hash | epollWait | kernelExpire | tick => exact List.prefix_rfl

theorem enqueued_grows_run {ls : List (EngineStep φ)} (hrun : runFrom step s ls = .ok s') :
    s.enqueued <+: s'.enqueued :=
  runFrom_invariant (fun x => s.enqueued <+: x.enqueued)
    (fun hx hstep => hx.trans (enqueued_grows hstep)) List.prefix_rfl hrun

/-- A `setTimer` leaves at most one more event to be queued. -/
theorem InStep.queuedFor_after_set (h : InStep s) {ls : List (EngineStep φ)} {l : EngineStep φ}
    {k : RunnablePtr × EventPtr} (hl : Sets k l) (hsets : ∀ l ∈ ls, ¬ Sets k l)
    (hrun : runFrom EngineTimers.step s (l :: ls) = .ok s') :
    s'.queuedFor k ≤ s.queuedFor k + 1 := by
  obtain ⟨m, hm, hrun'⟩ := runFrom_cons_eq_ok.mp hrun
  have haccount := (h.step hm).account_run hsets hrun'
  -- a `setTimer` queues nothing itself, and leaves at most one unit pending
  have hsame : m.queuedFor k = s.queuedFor k := by
    cases moves_of_step hm with
    | call | hash => rfl
    | arm | stale | fire | epollWait | kernelExpire | tick => exact hl.elim
  unfold account at haccount
  rw [hsame] at haccount
  split at haccount <;> split at haccount <;> omega

/-- After it was cancelled a timer is not queued. -/
theorem InStep.queuedFor_after_cancel (h : InStep s) {ls : List (EngineStep φ)} {l : EngineStep φ}
    {k : RunnablePtr × EventPtr} (hl : Cancels k l) (hsets : ∀ l ∈ ls, ¬ Sets k l)
    (hrun : runFrom EngineTimers.step s (l :: ls) = .ok s') :
    s'.queuedFor k = s.queuedFor k := by
  obtain ⟨m, hm, hrun'⟩ := runFrom_cons_eq_ok.mp hrun
  have haccount := (h.step hm).account_run hsets hrun'
  have hprefix : s.queuedFor k ≤ s'.queuedFor k :=
    ((enqueued_grows_run hrun).map TimerEvent.key).sublist.count_le k
  -- after the cancel the timer is not pending, so its account is what was queued before
  have hcancelled : m.queuedFor k = s.queuedFor k ∧ ¬ IsPending m.timers k := by
    cases moves_of_step hm with
    | call removing hcall hfree hfollow happly =>
      refine ⟨rfl, ?_⟩
      rintro ⟨p, hp, rfl⟩
      cases l with
      | cancelTimer owner timer r =>
        obtain ⟨rfl, rfl⟩ := hl
        cases hcall
        cases h.coupled.effect_of_apply happly
        exact (mem_dateTriples_without.mp hp).2 rfl
      | cancelAllTimers what r =>
        cases hcall
        cases h.coupled.effect_of_apply happly
        exact (mem_dateTriples_keep.mp hp).2 hl.symm
      | setTimer => exact hl.elim
      | _ => cases hcall
    | hash eventHash removing hcall =>
      cases l with
      | cancelTimer | cancelAllTimers => cases hcall
      | _ => exact hl.elim
    | arm | stale | fire | epollWait | kernelExpire | tick => exact hl.elim
  unfold account at haccount
  rw [hcancelled.1, if_neg hcancelled.2] at haccount
  split at haccount <;> omega

/-! ## The Law -/

/-- What the engine's timers are to do in a state, and from it on. -/
structure TimerLaw (s : EngineTimers φ) : Prop where
  /-- While `timerLock` is free, `timerEvent` is the event of the first entry. -/
  timerEvent : s.arming = none → s.timerEvent = s.timers.startEvent
  /-- An expiry that queues an event removes the entry of that event and no other. -/
  removes : ∀ r s' event, s.step (.handleTimerExpired r) = .ok s' →
    s'.enqueued = s.enqueued ++ [event] →
    ∃ e, e.2.eventObj = event ∧
      (e ∈ s.timers.timesByDate ∧
        ∀ x, x ∈ s'.timers.timesByDate ↔ x ∈ s.timers.timesByDate ∧ x ≠ e) ∧
      (.ofDate e ∈ s.timers.ownerTriples ∧
        ∀ q, q ∈ s'.timers.ownerTriples ↔ q ∈ s.timers.ownerTriples ∧ q ≠ .ofDate e)
  /-- A `setTimer` leads to at most one event. -/
  once : ∀ k l ls s', Sets k l → (∀ l' ∈ ls, ¬ Sets k l') → runFrom step s (l :: ls) = .ok s' →
    s'.queuedFor k ≤ s.queuedFor k + 1
  /-- Once it is cancelled, or its owner removed, a timer is not queued until it is set again. -/
  cancelled : ∀ k l ls s', Cancels k l → (∀ l' ∈ ls, ¬ Sets k l') →
    runFrom step s (l :: ls) = .ok s' → s'.queuedFor k = s.queuedFor k

/-- The entry removed is the one whose copy was queued. -/
theorem InStep.removes (h : InStep s) (hcurrent : ∀ what, CurrentFor what s) {r : Readings}
    {event : TimerEvent φ} (hstep : s.step (.handleTimerExpired r) = .ok s')
    (henqueued : s'.enqueued = s.enqueued ++ [event]) :
    ∃ e, e.2.eventObj = event ∧
      (e ∈ s.timers.timesByDate ∧
        ∀ x, x ∈ s'.timers.timesByDate ↔ x ∈ s.timers.timesByDate ∧ x ≠ e) ∧
      (.ofDate e ∈ s.timers.ownerTriples ∧
        ∀ q, q ∈ s'.timers.ownerTriples ↔ q ∈ s.timers.ownerTriples ∧ q ≠ .ofDate e) := by
  rcases h.fire hstep with ⟨hsame, -⟩ | ⟨e, event', hfirst, hfree, hevent, -, hqueued, htimers⟩
  · rw [hsame] at henqueued
    simp at henqueued
  · obtain rfl : event' = event := by simpa using hqueued.symm.trans henqueued
    have hmem := (SortedMap.begin?_eq_some_iff.mp hfirst).1
    have hdate : Pending.ofDate e ∈ s.timers.dateTriples := List.mem_map_of_mem hmem
    have hcopy : e.2.eventObj = event' := by
      have hstart := h.timerEvent_eq hcurrent hfree
      rw [hevent, startEvent, hfirst] at hstart
      exact (Option.some.inj hstart).symm
    -- one key is one timer, so removing the key removes one entry alone
    have honly : ∀ q ∈ s.timers.dateTriples, q.key ≠ (Pending.ofDate e).key ↔ q ≠ .ofDate e :=
      fun q hq => not_congr ⟨fun hkey => h.coupled.eq_of_key_eq hq hdate hkey, fun heq => heq ▸ rfl⟩
    refine ⟨e, hcopy, ⟨hmem, fun x => ?_⟩, h.coupled.mem_owner_iff.mpr hdate, fun q => ?_⟩
    · have hx : x ∈ s'.timers.timesByDate ↔
          x ∈ s.timers.timesByDate ∧ (Pending.ofDate x).key ≠ (Pending.ofDate e).key := by
        rw [htimers]
        exact List.mem_filter.trans (and_congr_right fun _ => decide_eq_true_iff)
      rw [hx]
      refine and_congr_right fun hold => (honly _ (List.mem_map_of_mem hold)).trans (not_congr ?_)
      exact ⟨fun heq => eq_of_ofDate_eq hold hmem heq, fun heq => heq ▸ rfl⟩
    · rw [(h.step hstep).coupled.mem_owner_iff, h.coupled.mem_owner_iff, htimers,
        mem_dateTriples_without]
      exact and_congr_right fun hold => honly q hold

/-- **Timers of the engine**: the law holds after every run that traps nowhere and in which the
first timer is not set again with another callable so that it stays the first. -/
theorem timerEvent_inStep {ls : List (EngineStep φ)}
    (hreassigns : AllSteps step (fun s l => ¬ s.Reassigns l) init ls)
    (hrun : runFrom step init ls = .ok s) : TimerLaw s := by
  have h := inStep_of_run hrun
  have hcurrent := currentFor_of_run hreassigns hrun
  exact {
    timerEvent := h.timerEvent_eq hcurrent
    removes := fun r s' event hstep henqueued => h.removes hcurrent hstep henqueued
    once := fun k l ls s' hl hsets hrun' => h.queuedFor_after_set hl hsets hrun'
    cancelled := fun k l ls s' hl hsets hrun' => h.queuedFor_after_cancel hl hsets hrun' }

/-- Three timers: one fires and is set again, one is cancelled; the next expiry is about to be
handled, and the owner of the first timer is being removed. -/
def threeTimers : List (EngineStep Char) :=
  [.setTimer (some 1) 10 'a' 100 ⟨0, 0, 0, 0⟩, .setTimerTrigger, .setTimerTrigger,
    .setTimerTrigger, .setTimer (some 2) 20 'b' 50 ⟨1, 1, 1, 1⟩, .setTimerTrigger,
    .setTimerTrigger, .setTimerTrigger, .tick 51, .kernelExpire, .epollWait,
    .handleTimerExpired ⟨51, 51, 51, 51⟩, .setTimerTrigger, .setTimerTrigger, .setTimerTrigger,
    .setTimer (some 3) 30 'c' 500 ⟨52, 52, 52, 52⟩, .cancelTimer (some 3) 30 ⟨53, 53, 53, 53⟩,
    .add 2, .setTimer (some 2) 20 'd' 20 ⟨54, 54, 54, 54⟩, .setTimerTrigger, .setTimerTrigger,
    .setTimerTrigger, .tick 74, .kernelExpire, .epollWait, .eraseFromHash 2]

/-- After these steps the expiry queues the copy made last and removes its entry; a timer that is
set again is queued once more, and one whose owner is removed is not. -/
theorem timerEvent_inStep_three_timers : ∃ s, runFrom step init threeTimers = .ok s ∧
    s.timerEvent = s.timers.startEvent ∧
    (∃ s', s.step (.handleTimerExpired ⟨75, 75, 75, 75⟩) = .ok s' ∧
      ∃ e, e.2.eventObj = ⟨2, 20, 'd'⟩ ∧
        ∀ x, x ∈ s'.timers.timesByDate ↔ x ∈ s.timers.timesByDate ∧ x ≠ e) ∧
    (∃ s', runFrom step s [.setTimer (some 2) 20 'd' 20 ⟨75, 75, 75, 75⟩,
      .handleTimerExpired ⟨96, 96, 96, 96⟩] = .ok s' ∧ s'.queuedFor (2, 20) ≤ 2) ∧
    ∃ s', runFrom step s [.cancelAllTimers 2 ⟨75, 75, 75, 75⟩, .setTimerTrigger,
      .setTimerTrigger, .setTimerTrigger, .handleTimerExpired ⟨76, 76, 76, 76⟩] = .ok s' ∧
      s'.queuedFor (2, 20) = 1 := by
  obtain ⟨s, hrun, hfree, hqueued, honce⟩ : ∃ s, runFrom step init threeTimers = .ok s ∧
      s.arming = none ∧ s.enqueued = [⟨2, 20, 'b'⟩] ∧ s.queuedFor (2, 20) = 1 := by
    decide +kernel
  have hlaw : TimerLaw s := timerEvent_inStep (by decide +kernel) hrun
  refine ⟨s, hrun, hlaw.timerEvent hfree, ?_, ?_, ?_⟩
  · obtain ⟨s', hstep, henqueued⟩ : ∃ s', runFrom step init
        (threeTimers ++ [.handleTimerExpired ⟨75, 75, 75, 75⟩]) = .ok s' ∧
        s'.enqueued = [⟨2, 20, 'b'⟩] ++ [⟨2, 20, 'd'⟩] := by
      decide +kernel
    rw [runFrom_append_ok hrun, runFrom_cons_eq_ok] at hstep
    obtain ⟨s'', hstep, hnil⟩ := hstep
    cases hnil
    obtain ⟨e, hcopy, ⟨-, hremoved⟩, -⟩ :=
      hlaw.removes _ s' ⟨2, 20, 'd'⟩ hstep (henqueued.trans (by rw [hqueued]))
    exact ⟨s', hstep, e, hcopy, hremoved⟩
  · obtain ⟨s', hrun', -⟩ : ∃ s', runFrom step init (threeTimers ++
        [.setTimer (some 2) 20 'd' 20 ⟨75, 75, 75, 75⟩, .handleTimerExpired ⟨96, 96, 96, 96⟩]) =
        .ok s' ∧ s'.arming ≠ none := by
      decide +kernel
    rw [runFrom_append_ok hrun] at hrun'
    have hsets : Sets (2, 20) (.setTimer (some 2) 20 'd' 20 ⟨75, 75, 75, 75⟩) := ⟨rfl, rfl⟩
    have hle := hlaw.once _ _ _ s' hsets (List.forall_mem_singleton.mpr id) hrun'
    exact ⟨s', hrun', hle.trans (by omega)⟩
  · obtain ⟨s', hrun', -⟩ : ∃ s', runFrom step init (threeTimers ++
        [.cancelAllTimers 2 ⟨75, 75, 75, 75⟩, .setTimerTrigger, .setTimerTrigger,
          .setTimerTrigger, .handleTimerExpired ⟨76, 76, 76, 76⟩]) = .ok s' ∧
        s'.arming ≠ none := by
      decide +kernel
    rw [runFrom_append_ok hrun] at hrun'
    have hcancels : Cancels (2, 20) (.cancelAllTimers 2 ⟨75, 75, 75, 75⟩ : EngineStep Char) := rfl
    have hsame := hlaw.cancelled _ _ _ s' hcancels (by simp [Sets]) hrun'
    exact ⟨s', hrun', hsame.trans honce⟩

/-- An event is assigned another callable and set again while it is the first: the older one stays
in `timerEvent`. -/
theorem not_timerLaw_reassigned :
    ¬ ∀ (ls : List (EngineStep Char)) s, runFrom step init ls = .ok s → TimerLaw s := by
  intro h
  obtain ⟨s, hrun, hfree, hevent, hfirst⟩ : ∃ s, runFrom step init
      [.setTimer (some 1) 10 'a' 100 ⟨0, 0, 0, 0⟩, .setTimerTrigger, .setTimerTrigger,
        .setTimerTrigger, .setTimer (some 1) 10 'b' 200 ⟨10, 10, 10, 10⟩] = .ok s ∧
      s.arming = none ∧ s.timerEvent = some ⟨1, 10, 'a'⟩ ∧
      s.timers.startEvent = some ⟨1, 10, 'b'⟩ := by
    decide +kernel
  have hsame := (h _ s hrun).timerEvent hfree
  rw [hevent, hfirst] at hsame
  exact absurd hsame (by decide)

end EngineTimers

end Epoller
