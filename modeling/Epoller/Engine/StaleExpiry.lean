import Epoller.Engine.TimerTrigger

/-!
# Stale Expiries

An expiry that `epoll_wait` has returned stays in flight until the epoll thread
takes `timerLock`. `clearTimer` discards expiries that are still in the
descriptor, but not the one in flight: if a worker meanwhile makes another timer
the first one, that timer is queued before its deadline. The expiry can also be
returned while a worker is inside `setTimerTrigger`, before `timerfd_settime`.

## Contents

- `Ahead`: timers are pending and none of them is due
- `Exposes`: the steps that bring an expiry in flight and such timers together
- `Punctual`: the invariant of runs without those steps
- `fires_due_of_run`: such runs queue no event early
-/

namespace Epoller

open Foundation Timers

universe u

variable {φ : Type u}

/-- Timers are pending, and every deadline is later than `now`. -/
def Timers.Ahead (t : Timers φ) (now : TimePointNs) : Prop :=
  t.dateTriples ≠ [] ∧ ∀ p ∈ t.dateTriples, now < p.deadline

instance (t : Timers φ) (now : TimePointNs) : Decidable (t.Ahead now) :=
  inferInstanceAs (Decidable (_ ∧ _))

theorem Timers.not_ahead_iff {t : Timers φ} {now : TimePointNs} :
    ¬ t.Ahead now ↔ ∀ p, t.first? = some p → p.deadline ≤ now := by
  cases hfirst : t.first? with
  | none => simp [Ahead, first?_eq_none_iff.mp hfirst]
  | some p =>
    obtain ⟨hmem, hleast⟩ := first?_eq_some_iff.mp hfirst
    simp only [Ahead, not_and, not_forall, not_lt, Option.some.injEq, forall_eq']
    constructor
    · intro h
      obtain ⟨q, hq, hdue⟩ := h (List.ne_nil_of_mem hmem)
      rcases eq_or_ne q p with rfl | hne
      · exact hdue
      · exact ((hleast q hq hne).le.trans hdue)
    · exact fun hdue _ => ⟨p, hmem, hdue⟩

theorem Timers.Ahead.anti {t : Timers φ} {now now' : TimePointNs} (h : t.Ahead now')
    (hle : now ≤ now') : t.Ahead now :=
  ⟨h.1, fun p hp => hle.trans_lt (h.2 p hp)⟩

namespace EngineTimers

/-- The steps of the law: workers set timers that are not pending and cancel timers, and the kernel
timer expires no earlier than it was asked to. -/
def Regular (s : EngineTimers φ) : EngineStep φ → Prop
  | .setTimer (some owner) timer _ _ _ => ¬ IsPending s.timers (owner, timer)
  | .kernelExpire => ∀ x ∈ s.timerFd.expiry, x ≤ s.now
  | _ => True

instance (s : EngineTimers φ) (l : EngineStep φ) : Decidable (s.Regular l) :=
  match l with
  | .setTimer (some owner) timer _ _ _ =>
    inferInstanceAs (Decidable (¬ IsPending s.timers (owner, timer)))
  | .kernelExpire => inferInstanceAs (Decidable (∀ x ∈ s.timerFd.expiry, x ≤ s.now))
  | .setTimer none _ _ _ _ | .cancelTimer _ _ _ | .add _ | .eraseFromHash _ | .cancelAllTimers _ _
  | .setTimerTrigger | .handleTimerExpired _ | .epollWait | .tick _ =>
    inferInstanceAs (Decidable True)

/-- With an expiry in flight, a worker leaves timers pending of which none is due; or an expiry is
returned while `timerLock` is held and no pending timer is due. -/
def Exposes (s : EngineTimers φ) : EngineStep φ → Prop
  | .setTimer (some owner) timer _ timeout r =>
    s.notified = true ∧ r.trigger < r.now + timeout ∧
      ∀ p ∈ (s.timers.without (owner, timer)).dateTriples, r.trigger < p.deadline
  | .cancelTimer (some owner) timer r =>
    s.notified = true ∧ (s.timers.without (owner, timer)).Ahead r.trigger
  | .cancelAllTimers what r =>
    s.notified = true ∧ (s.timers.keep fun p => p.owner ≠ what).Ahead r.trigger
  | .epollWait => s.arming ≠ none ∧ s.timers.Ahead s.now
  | _ => False

instance (s : EngineTimers φ) (l : EngineStep φ) : Decidable (s.Exposes l) :=
  match l with
  | .setTimer (some owner) timer _ timeout r =>
    inferInstanceAs (Decidable (s.notified = true ∧ r.trigger < r.now + timeout ∧
      ∀ p ∈ (s.timers.without (owner, timer)).dateTriples, r.trigger < p.deadline))
  | .cancelTimer (some owner) timer r =>
    inferInstanceAs (Decidable (s.notified = true ∧
      (s.timers.without (owner, timer)).Ahead r.trigger))
  | .cancelAllTimers what r =>
    inferInstanceAs (Decidable (s.notified = true ∧
      (s.timers.keep fun p => p.owner ≠ what).Ahead r.trigger))
  | .epollWait => inferInstanceAs (Decidable (s.arming ≠ none ∧ s.timers.Ahead s.now))
  | .setTimer none _ _ _ _ | .cancelTimer none _ _ | .add _ | .eraseFromHash _ | .setTimerTrigger
  | .handleTimerExpired _ | .kernelExpire | .tick _ => inferInstanceAs (Decidable False)

variable {s s' : EngineTimers φ}

/-- A timer that is not pending is not the first one. -/
theorem Regular.not_reassigns {l : EngineStep φ} (h : s.Regular l) : ¬ s.Reassigns l := by
  cases l with
  | setTimer owner timer func timeout r =>
    cases owner with
    | none => exact id
    | some owner =>
      rintro ⟨hstart, -⟩
      rw [getStartEvent_eq] at hstart
      obtain ⟨p, hp, hkey⟩ := Option.map_eq_some_iff.mp hstart
      exact h ⟨p, (first?_eq_some_iff.mp hp).1, hkey⟩
  | _ => exact id

/-- An expiry in flight, an expiry in the descriptor, the kernel timer and the request being served
all belong to deadlines that are due when they take effect. -/
structure Punctual (s : EngineTimers φ) : Prop where
  inStep : InStep s
  current : ∀ what, CurrentFor what s
  notified : s.notified = true → ¬ s.timers.Ahead s.now
  readable : s.arming = none → s.timerFd.readable = true → ¬ s.timers.Ahead s.now
  expiry : s.arming = none → ∀ x, s.timerFd.expiry = some x → ¬ s.timers.Ahead x
  request : ∀ a, s.arming = some a → ¬ s.timers.Ahead (s.now + a.request.when)

theorem punctual_init : Punctual (init : EngineTimers φ) := by
  refine ⟨inStep_init, currentFor_init, fun h => ?_, fun _ h => ?_, fun _ x hx => ?_,
    fun a ha => ?_⟩
  · cases h
  · cases h
  · cases hx
  · cases ha

/-- What `setTrigger` asks for, counted from its own reading, is not before the first deadline. -/
theorem not_ahead_setTrigger (t : Timers φ) (now : TimePointNs) :
    ¬ t.Ahead (now + (t.setTrigger now).when) := by
  rw [not_ahead_iff]
  intro p hp
  -- a deadline that has passed is asked for one nanosecond late, never early
  have hle : p.deadline - now ≤ max 1 (p.deadline - now) := le_max_right _ _
  simp only [setTrigger_when, hp]
  linarith

/-- A call of a worker that keeps owner and event of the first entry keeps its deadline. -/
theorem first?_of_call {t : Timers φ} {l : EngineStep φ} {call : TimersCall φ}
    {outcome : Outcome φ}
    (hcoupled : Coupled t) (hcall : call? l = some call) (heffect : Effect t call outcome)
    (hfresh : ∀ owner timer func timeout r, l = .setTimer (some owner) timer func timeout r →
      ¬ IsPending t (owner, timer))
    (hstart : outcome.timers.getStartEvent = t.getStartEvent) :
    outcome.timers.first? = t.first? := by
  refine hcoupled.first?_eq_of_mem hstart.symm fun p hp => ?_
  rcases heffect.mem_dateTriples (first?_eq_some_iff.mp hp).1 with hmem | ⟨func, timeout, r, rfl⟩
  · exact hmem
  · -- the timer that was set was not pending, so it was not the first one before
    cases l <;> cases hcall
    rw [getStartEvent_eq, hp, getStartEvent_eq] at hstart
    obtain ⟨q, hq, hkey⟩ := Option.map_eq_some_iff.mp hstart.symm
    exact absurd ⟨q, (first?_eq_some_iff.mp hq).1, hkey⟩
      (hfresh p.owner p.event func timeout r rfl)

/-- With an expiry in flight, a call that exposes nothing leaves no timers that are all ahead. -/
theorem not_ahead_of_call {l : EngineStep φ} {call : TimersCall φ} {outcome : Outcome φ}
    (hpunctual : Punctual s) (hnotified : s.notified = true) (hcall : call? l = some call)
    (hfollow : call.readings.Follow s.now) (heffect : Effect s.timers call outcome)
    (hexposes : ¬ Exposes s l) : ¬ outcome.timers.Ahead call.readings.trigger := by
  have hlater := hfollow.le_trigger
  cases heffect with
  | setDead | cancelDead => exact fun h => hpunctual.notified hnotified (h.anti hlater)
  | set owner timer func timeout r hfree =>
    cases l <;> cases hcall
    refine fun h => hexposes ⟨hnotified, ?_, fun q hq => ?_⟩
    · exact h.2 _ ((mem_dateTriples_put hfree).mpr (Or.inl rfl))
    · exact h.2 q ((mem_dateTriples_put hfree).mpr (Or.inr (mem_dateTriples_without.mp hq)))
  | cancel owner timer r =>
    cases l <;> cases hcall
    exact fun h => hexposes ⟨hnotified, h⟩
  | cancelAll what r =>
    cases l <;> cases hcall
    exact fun h => hexposes ⟨hnotified, h⟩
  -- workers do not call `handleTimerExpired`
  | expired => cases l <;> cases hcall

/-- After an operation the timers are armed for a deadline, or nothing was to be done. -/
theorem Punctual.outcome {call : TimersCall φ} {outcome : Outcome φ} {holder : Holder}
    (h : Punctual s) (hfree : s.arming = none) (hfollow : call.readings.Follow s.now)
    (heffect : Effect s.timers call outcome) (hinStep : InStep s')
    (hcurrent : ∀ what, CurrentFor what s')
    (htimers : s'.timers = outcome.timers) (hnow : s'.now = call.readings.trigger)
    (harming : s'.arming = outcome.request.map fun request => ⟨holder, request, .clearTimer⟩)
    (hfirst : outcome.request = none → outcome.timers.first? = s.timers.first? ∧
      s'.timerFd = s.timerFd)
    (hnotified : s'.notified = true → ¬ s'.timers.Ahead s'.now) : Punctual s' := by
  have hlater := hfollow.le_trigger
  cases hrequest : outcome.request with
  | none =>
    obtain ⟨hsame, hfd⟩ := hfirst hrequest
    have hidle : s'.arming = none := by rw [harming, hrequest]; rfl
    -- the first deadline is the same, so the kernel timer still fits it
    have hahead : ∀ x, ¬ s.timers.Ahead x → ¬ s'.timers.Ahead x := by
      intro x
      rw [htimers, not_ahead_iff, not_ahead_iff, hsame]
      exact id
    refine ⟨hinStep, hcurrent, hnotified, fun _ hreadable => ?_, fun _ x hx => ?_, fun a ha => ?_⟩
    · rw [hfd] at hreadable
      rw [hnow]
      exact fun hlate => hahead _ (h.readable hfree hreadable) (hlate.anti hlater)
    · rw [hfd] at hx
      exact hahead x (h.expiry hfree x hx)
    · rw [hidle] at ha
      cases ha
  | some request =>
    rw [hrequest] at harming
    -- the kernel timer is about to be set: only the request counts
    have hbusy : s'.arming ≠ none := by rw [harming]; exact Option.some_ne_none _
    refine ⟨hinStep, hcurrent, hnotified, fun hidle => absurd hidle hbusy,
      fun hidle => absurd hidle hbusy, fun a ha => ?_⟩
    cases harming.symm.trans ha
    rcases heffect.request with ⟨hnone, -⟩ | hsome
    · rw [hnone] at hrequest
      cases hrequest
    · rw [hrequest, Option.some.injEq] at hsome
      rw [htimers, hnow, hsome]
      exact not_ahead_setTrigger _ _

theorem Punctual.setTimerTrigger (h : Punctual s) {a : Arming φ} (ha : s.arming = some a) :
    Punctual (s.setTimerTrigger a) := by
  have hinStep := h.inStep.setTimerTrigger ha
  have hcurrent (what : RunnablePtr) : CurrentFor what (s.setTimerTrigger a) :=
    fun hidle event hevent _ => (h.inStep.timerEvent_setTimerTrigger ha hidle).trans hevent
  have hrequest := h.request a ha
  revert hinStep hcurrent
  unfold EngineTimers.setTimerTrigger
  split
  · simp only
    split
    · rename_i hzero
      -- nothing is pending, whatever the kernel timer still does
      have hempty : s.timers.first? = none :=
        startEvent_eq_none_iff.mp ((h.inStep.when a ha).mp hzero)
      have hnever : ∀ x, ¬ s.timers.Ahead x := fun x => not_ahead_iff.mpr fun p hp => by
        rw [hempty] at hp
        cases hp
      exact fun hinStep hcurrent => ⟨hinStep, hcurrent, fun _ => hnever _, fun _ _ => hnever _,
        fun _ x _ => hnever x, fun b hb => (by cases hb)⟩
    · refine fun hinStep hcurrent => ⟨hinStep, hcurrent, h.notified, fun hb => (by cases hb),
        fun hb => (by cases hb), fun b hb => ?_⟩
      cases hb
      exact hrequest
  · refine fun hinStep hcurrent => ⟨hinStep, hcurrent, h.notified, fun hb => (by cases hb),
      fun hb => (by cases hb), fun b hb => ?_⟩
    cases hb
    exact hrequest
  -- the kernel timer takes over the time the request asks for
  · refine fun hinStep hcurrent => ⟨hinStep, hcurrent, h.notified, fun _ hb => (by cases hb),
      fun _ x hx => ?_, fun b hb => (by cases hb)⟩
    cases hx
    exact hrequest

/-- **Step**: a regular step that exposes nothing keeps the engine punctual. -/
theorem Punctual.step {l : EngineStep φ} (h : Punctual s) (hregular : Regular s l)
    (hexposes : ¬ Exposes s l) (hstep : s.step l = .ok s') : Punctual s' := by
  have hinStep := h.inStep.step hstep
  have hcurrent (what : RunnablePtr) : CurrentFor what s' :=
    currentFor_step h.inStep (h.current what) (fun _ _ _ _ _ => hregular.not_reassigns) hstep
  cases moves_of_step hstep with
  | @call _ call outcome removing hcall hfree hfollow happly =>
    have heffect := h.inStep.coupled.effect_of_apply happly
    refine h.outcome hfree hfollow heffect hinStep hcurrent rfl rfl rfl (fun hnone => ⟨?_, rfl⟩)
      fun hnotified => not_ahead_of_call h hnotified hcall hfollow heffect hexposes
    rcases heffect.request with ⟨-, hstart⟩ | hsome
    · refine first?_of_call h.inStep.coupled hcall heffect ?_ hstart
      rintro owner timer func timeout r rfl
      exact hregular
    · rw [hnone] at hsome
      cases hsome
  | arm ha => exact h.setTimerTrigger ha
  | stale => exact ⟨hinStep, hcurrent, fun hb => (by cases hb), h.readable, h.expiry, h.request⟩
  | @fire r _ _ hnotified hfree hfollow hevent happly =>
    have heffect := h.inStep.coupled.effect_of_apply happly
    have hfollow' : (TimersCall.handleTimerExpired (φ := φ) r).readings.Follow s.now := hfollow
    refine h.outcome hfree hfollow' heffect hinStep hcurrent rfl rfl rfl (fun hnone => ?_)
      fun hb => (by cases hb)
    cases heffect
    cases hnone
  | hash => exact ⟨hinStep, hcurrent, h.notified, h.readable, h.expiry, h.request⟩
  | epollWait hnotified hidle hreadable =>
    refine ⟨hinStep, hcurrent, fun _ hahead => ?_, h.readable, h.expiry, h.request⟩
    -- an expiry in the descriptor is due, unless the lock is held for a later first timer
    cases harming : s.arming with
    | none => exact h.readable harming hreadable hahead
    | some a => exact hexposes ⟨by rw [harming]; exact Option.some_ne_none _, hahead⟩
  | kernelExpire hx =>
    refine ⟨hinStep, hcurrent, h.notified, fun hfree _ hahead => ?_, fun _ x hb => (by cases hb),
      h.request⟩
    exact h.expiry hfree _ hx (hahead.anti (hregular _ hx))
  | tick hnow =>
    exact ⟨hinStep, hcurrent, fun hnotified hahead => h.notified hnotified (hahead.anti hnow),
      fun hfree hreadable hahead => h.readable hfree hreadable (hahead.anti hnow), h.expiry,
      fun a ha hahead => h.request a ha (hahead.anti (by linarith))⟩

/-- An expiry that queues an event queues that of a timer whose deadline has been reached. -/
def FiresDue (s : EngineTimers φ) : Prop :=
  ∀ r s' event, s.step (.handleTimerExpired r) = .ok s' → s'.enqueued = s.enqueued ++ [event] →
    ∃ e ∈ s.timers.timesByDate, e.2.eventObj = event ∧ e.1 ≤ s.now

theorem Punctual.firesDue (h : Punctual s) : FiresDue s := by
  intro r s' event hstep henqueued
  rcases h.inStep.fire hstep with ⟨hsame, -⟩ | ⟨e, event', hfirst, hfree, hevent, -, henqueued', -⟩
  · rw [hsame] at henqueued
    simp at henqueued
  · obtain rfl : event' = event := by simpa using henqueued'.symm.trans henqueued
    have hcopy := h.inStep.timerEvent_eq h.current hfree
    rw [hevent, startEvent, hfirst] at hcopy
    have hnotified : s.notified = true := by
      cases moves_of_step hstep with
      | stale hnotified | fire hnotified => exact hnotified
      | call removing hcall => cases hcall
      | hash => simp at henqueued
    refine ⟨e, (SortedMap.begin?_eq_some_iff.mp hfirst).1, (Option.some.inj hcopy).symm, ?_⟩
    exact not_ahead_iff.mp (h.notified hnotified) (.ofDate e) (congrArg (Option.map _) hfirst)

/-- **No early event**: in every run of regular steps that expose nothing, each event that
`handleTimerExpired` queues belongs to a timer whose deadline has been reached. -/
theorem fires_due_of_run {ls : List (EngineStep φ)} (hregular : AllSteps step Regular init ls)
    (hexposes : AllSteps step (fun s l => ¬ Exposes s l) init ls)
    (hrun : runFrom step init ls = .ok s) : FiresDue s :=
  (AllSteps.invariant Punctual (fun h hC hstep => h.step hC.1 hC.2 hstep) punctual_init
    (hregular.and hexposes) hrun).firesDue

/-- A timer is set, expires when it is due, and is queued. -/
theorem fires_due_one_timer :
    ∃ s, runFrom step init [.setTimer (some 1) 10 'a' 100 ⟨0, 0, 0, 0⟩, .setTimerTrigger,
        .setTimerTrigger, .setTimerTrigger, .tick 100, .kernelExpire, .epollWait] = .ok s ∧
      s.notified = true ∧ FiresDue s := by
  obtain ⟨s, hrun⟩ : ∃ s, runFrom step init [.setTimer (some 1) 10 'a' 100 ⟨0, 0, 0, 0⟩,
      .setTimerTrigger, .setTimerTrigger, .setTimerTrigger, .tick 100, .kernelExpire,
      .epollWait] = .ok s := ⟨_, rfl⟩
  refine ⟨s, hrun, ?_, fires_due_of_run (by decide) (by decide) hrun⟩
  cases hrun
  rfl

/-- The first of two timers expires and is cancelled before the expiry is handled: the other one is
queued long before its deadline. -/
theorem not_fires_due_after_cancel :
    ¬ ∀ (ls : List (EngineStep Char)) s, AllSteps step Regular init ls →
      runFrom step init ls = .ok s → FiresDue s := by
  intro h
  obtain ⟨s, hrun⟩ : ∃ s, runFrom step init [.setTimer (some 1) 10 'a' 100 ⟨0, 0, 0, 0⟩,
      .setTimerTrigger, .setTimerTrigger, .setTimerTrigger,
      .setTimer (some 2) 20 'b' 5000 ⟨0, 0, 0, 0⟩, .tick 100, .kernelExpire, .epollWait,
      .cancelTimer (some 1) 10 ⟨100, 100, 100, 100⟩, .setTimerTrigger, .setTimerTrigger,
      .setTimerTrigger] = .ok s := ⟨_, rfl⟩
  -- at 100 only the timer of 5000 is pending, and the notification is still in flight
  have hfires := h _ s (by decide) hrun ⟨100, 100, 100, 100⟩
  have hnow : s.now = 100 := by
    cases hrun
    rfl
  have hpending : s.timers.timesByDate.entries = [(5000, ⟨2, 20, 'b'⟩)] := by
    cases hrun
    rfl
  obtain ⟨s', hstep, henqueued⟩ : ∃ s', s.step (.handleTimerExpired ⟨100, 100, 100, 100⟩) = .ok s' ∧
      s'.enqueued = s.enqueued ++ [⟨2, 20, 'b'⟩] := by
    cases hrun
    exact ⟨_, rfl, rfl⟩
  obtain ⟨e, he, -, hdue⟩ := hfires s' _ hstep henqueued
  have hmem : e ∈ s.timers.timesByDate.entries := he
  rw [hpending, List.mem_singleton] at hmem
  rw [hmem, hnow] at hdue
  exact absurd hdue (by decide)

end EngineTimers

end Epoller
