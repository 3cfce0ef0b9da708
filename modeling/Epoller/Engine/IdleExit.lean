import Epoller.Engine.EventQueue

/-!
# The Idle Exit

After each event a worker tests `eventHash`, `timerEvent` and `activeCount`, one
after the other and without a lock, and stops the engine if it finds all of them
empty. The test does not look at `eventQueue`, and an event that is popped is
counted in `activeCount` only in a later step.

## Contents

- `SoundExit`: nothing is left to do at an idle exit
- `Quiet`, `Undisturbed`: what the test relies on and does not check
- `soundExit_of_run`: under these, every idle exit is sound
- `not_soundExit_uncounted`: an exit while another worker has just popped an event
-/

namespace Epoller

open Foundation

universe u

variable {ε : Type u}

/-- Between pop and `activeCount++`, with an event -/
def WorkerStage.isUncounted : WorkerStage ε → Bool
  | popped (some _) => true
  | _ => false

/-- Who is neither counted nor about to be holds no event. -/
theorem WorkerStage.held_eq_none {w : WorkerStage ε} (huncounted : w.isUncounted = false)
    (hactive : w.isActive = false) : w.held = none := by
  cases w with
  | popped event =>
    cases event with
    | none => rfl
    | some event => cases huncounted
  | running | signalling => cases hactive
  | loop | checking | asleep | woken | returned | testHash | testTimer | testActive | idle
  | exited | threw => rfl

namespace EventQueue

/-- When a worker takes the idle exit, the queue is empty and nobody holds an event. -/
def SoundExit (s : EventQueue ε) : QueueStep ε → Prop
  | .work i => s.workers[i]? = some .idle → s.eventQueue = [] ∧ ∀ w ∈ s.workers, w.held = none
  | _ => True

/-- A worker that finds `activeCount` at 0 finds the semaphore at 0 too, and no thread between
push and signal, between `sem.wait` and pop, or between pop and `activeCount++`. -/
def Quiet (s : EventQueue ε) : QueueStep ε → Prop
  | .work i => s.workers[i]? = some .testActive → s.activeCount = 0 →
      s.count = 0 ∧ s.producers = 0 ∧ s.woken = 0 ∧ ∀ w ∈ s.workers, w.isUncounted = false
  | _ => True

/-- No event is put on the queue while a worker has succeeded with the test and not called
`doStop`. -/
def Undisturbed (s : EventQueue ε) (l : QueueStep ε) : Prop :=
  Pushes s l → .idle ∉ s.workers

instance (s : EventQueue ε) (l : QueueStep ε) : Decidable (Pushes s l) :=
  match l with
  | .newEvent _ evId _ => inferInstanceAs (Decidable (evId ∈ s.eventHash))
  | .doRunAsync .. => .isTrue trivial
  | .handleTimerExpired => inferInstanceAs (Decidable (s.timerEvent.isSome = true))
  | .add _ | .remove _ | .setTimerTrigger _ | .doInit _ | .resetTimerEvent | .rearm _
  | .signal .. | .work _ | .throw _ | .wake _ | .signalHandler | .leaveEpoll | .stopWorkers _ =>
    .isFalse id

instance [DecidableEq ε] (s : EventQueue ε) (l : QueueStep ε) : Decidable (Quiet s l) :=
  match l with
  | .work i => inferInstanceAs (Decidable (s.workers[i]? = some .testActive → s.activeCount = 0 →
      s.count = 0 ∧ s.producers = 0 ∧ s.woken = 0 ∧ ∀ w ∈ s.workers, w.isUncounted = false))
  | .add _ | .remove _ | .setTimerTrigger _ | .doInit _ | .newEvent .. | .doRunAsync ..
  | .handleTimerExpired | .resetTimerEvent | .rearm _ | .signal .. | .throw _ | .wake _
  | .signalHandler | .leaveEpoll | .stopWorkers _ => .isTrue trivial

instance [DecidableEq ε] (s : EventQueue ε) (l : QueueStep ε) : Decidable (Undisturbed s l) :=
  inferInstanceAs (Decidable (Pushes s l → .idle ∉ s.workers))

variable {s s' : EventQueue ε} {l : QueueStep ε} {ls : List (QueueStep ε)}

/-- While a worker is about to take the idle exit, nothing is left to do. -/
structure Settled (s : EventQueue ε) : Prop where
  conserved : Conserved s
  idle : .idle ∈ s.workers → s.eventQueue = [] ∧ ∀ w ∈ s.workers, w.held = none

theorem settled_init : Settled (init : EventQueue ε) :=
  ⟨conserved_init, fun h => absurd h (List.not_mem_nil)⟩

/-- The test succeeds in a quiet moment. -/
theorem Settled.of_quiet (h : Conserved s) (hactive : s.activeCount = 0) (hcount : s.count = 0)
    (hproducers : s.producers = 0) (hwoken : s.woken = 0)
    (huncounted : ∀ w ∈ s.workers, w.isUncounted = false) :
    s.eventQueue = [] ∧ ∀ w ∈ s.workers, w.held = none := by
  refine ⟨?_, fun w hw => ?_⟩
  · have hcovered := h.covered
    rw [accounted, hcount, hproducers, hwoken] at hcovered
    exact List.eq_nil_of_length_eq_zero (Nat.eq_zero_of_le_zero hcovered)
  · have hnone : s.workers.countP WorkerStage.isActive = 0 := h.active.symm.trans hactive
    have hw' := List.countP_eq_zero.mp hnone w hw
    exact WorkerStage.held_eq_none (huncounted w hw) (Bool.eq_false_iff.mpr hw')

/-- A worker at another stage, which is not the idle exit. -/
theorem settled_setWorker {i : ℕ} {stage : WorkerStage ε}
    (h : .idle ∈ s.workers → s.eventQueue = [] ∧ ∀ w ∈ s.workers, w.held = none)
    (hidle : stage ≠ .idle) (hheld : .idle ∈ s.workers → stage.held = none)
    (hmem : .idle ∈ s.workers.set i stage) :
    s.eventQueue = [] ∧ ∀ w ∈ s.workers.set i stage, w.held = none := by
  have hbefore : .idle ∈ s.workers :=
    (List.mem_or_eq_of_mem_set hmem).resolve_right (Ne.symm hidle)
  obtain ⟨hqueue, hnone⟩ := h hbefore
  refine ⟨hqueue, fun w hw => ?_⟩
  rcases List.mem_or_eq_of_mem_set hw with hw | rfl
  · exact hnone w hw
  · exact hheld hbefore

/-- What a signal does to the workers is no idle exit. -/
theorem settled_of_signals
    (h : .idle ∈ s.workers → s.eventQueue = [] ∧ ∀ w ∈ s.workers, w.held = none)
    (hsignals : Signals s s') (hmem : .idle ∈ s'.workers) :
    s'.eventQueue = [] ∧ ∀ w ∈ s'.workers, w.held = none := by
  cases hsignals with
  | nobody => exact h hmem
  | notify hj => exact settled_setWorker h (by simp) (fun _ => rfl) hmem

/-- **Step**: under the two conditions. -/
theorem Settled.step (h : Settled s) (hC : Quiet s l ∧ Undisturbed s l)
    (hstep : s.step l = .ok s') : Settled s' := by
  obtain ⟨hquiet, hundisturbed⟩ := hC
  refine ⟨h.conserved.step hstep, fun hmem => ?_⟩
  cases moves_of_step hstep with
  | other | expire | leave => exact h.idle hmem
  | start => exact absurd (List.eq_of_mem_replicate hmem) (by simp)
  | pushEpoll hl => exact absurd hmem (hundisturbed hl)
  | pushWorker hl =>
    have hbefore := (List.mem_or_eq_of_mem_set hmem).resolve_right (by simp)
    exact absurd hbefore (hundisturbed hl)
  | signalEpoll _ hsignals =>
    exact settled_of_signals (s := { s with epoll := .waiting }) h.idle hsignals hmem
  | @signalWorker i _ event _ hi hsignals =>
    refine settled_of_signals (s := s.setWorker i (.running (some event))) (fun hmem' => ?_)
      hsignals hmem
    refine settled_setWorker h.idle (by simp) (fun hidle => ?_) hmem'
    -- the worker was holding its event before
    have hheld := (h.idle hidle).2 _ (List.mem_of_getElem? hi)
    cases hheld
  | stopWorkers _ hsignals => exact settled_of_signals h.idle hsignals hmem
  | @work i stage stage' s₁ hi hworks =>
    have hheld : .idle ∈ s.workers → stage.held = none := fun hidle =>
      (h.idle hidle).2 _ (List.mem_of_getElem? hi)
    cases hworks with
    | idle hactive =>
      obtain ⟨hcount, hproducers, hwoken, huncounted⟩ := hquiet hi hactive
      obtain ⟨hqueue, hnone⟩ :=
        Settled.of_quiet h.conserved hactive hcount hproducers hwoken huncounted
      refine ⟨hqueue, fun w hw => ?_⟩
      rcases List.mem_or_eq_of_mem_set hw with hw | rfl
      · exact hnone w hw
      · rfl
    | pop hqueue =>
      have hbefore := (List.mem_or_eq_of_mem_set hmem).resolve_right (by simp)
      rw [(h.idle hbefore).1] at hqueue
      cases hqueue
    | call event => exact settled_setWorker h.idle (by simp) hheld hmem
    | test _ hafter hidle =>
      have ha := WorkerStage.uncounted_of_isAside hafter
      exact settled_setWorker h.idle hidle (fun _ => ha.held) hmem
    | enter | pass | sleep | popEmpty | ret | uncount =>
      exact settled_setWorker h.idle (by simp) (fun _ => rfl) hmem
  | throw | wake => exact settled_setWorker h.idle (by simp) (fun _ => rfl) hmem

theorem Settled.soundExit (h : Settled s) : SoundExit s l := by
  cases l with
  | work i => exact fun hi => h.idle (List.mem_of_getElem? hi)
  | _ => trivial

/-- **Idle shutdown**: in every run in which the test reads 0 in quiet moments only, and nothing is
pushed between a test and its `doStop`, every idle exit leaves no work behind. -/
theorem soundExit_of_run (hquiet : AllSteps step Quiet init ls)
    (hundisturbed : AllSteps step Undisturbed init ls) : AllSteps step SoundExit init ls :=
  AllSteps.imp_of_invariant Settled (fun h _ => h.soundExit) Settled.step settled_init
    (hquiet.and hundisturbed)

/-- One worker runs the last event, which removes the last socket, and takes the idle exit. -/
theorem soundExit_one_worker : ∃ ls, ∃ s : EventQueue ℕ, runFrom step init ls = .ok s ∧
    s.workers = [.exited] ∧ s.popped = [(0, 7)] ∧ AllSteps step SoundExit init ls := by
  refine ⟨[.add 1, .doInit 0, .work 0, .work 0, .newEvent .epollThread 1 7,
    .signal .epollThread (some 0), .work 0, .work 0, .work 0, .remove 1, .work 0, .work 0,
    .work 0, .work 0, .work 0, .work 0], ?_⟩
  obtain ⟨s, hrun, hworkers, hpopped⟩ : ∃ s : EventQueue ℕ,
      runFrom step init [.add 1, .doInit 0, .work 0, .work 0, .newEvent .epollThread 1 7,
        .signal .epollThread (some 0), .work 0, .work 0, .work 0, .remove 1, .work 0, .work 0,
        .work 0, .work 0, .work 0, .work 0] = .ok s ∧
      s.workers = [.exited] ∧ s.popped = [(0, 7)] := by
    decide +kernel
  exact ⟨s, hrun, hworkers, hpopped, soundExit_of_run (by decide +kernel) (by decide +kernel)⟩

/-- Worker 1 runs its event, which removes the last socket, and finds `activeCount` at 0, because
worker 0 has popped its event and not counted itself yet. -/
theorem not_soundExit_uncounted :
    ¬ ∀ ls : List (QueueStep ℕ), AllSteps step SoundExit init ls := by
  intro h
  obtain ⟨s, hrun, hidle, hmem⟩ : ∃ s : EventQueue ℕ,
      runFrom step init [.add 1, .doInit 1, .work 0, .work 0, .work 1, .work 1,
        .newEvent .epollThread 1 7, .signal .epollThread (some 0),
        .newEvent .epollThread 1 8, .signal .epollThread (some 1), .work 0, .work 0,
        .work 1, .work 1, .work 1, .remove 1, .work 1, .work 1, .work 1, .work 1,
        .work 1] = .ok s ∧
      s.workers[1]? = some .idle ∧ .popped (some 7) ∈ s.workers := by
    decide +kernel
  have hexit : AllSteps step SoundExit s [.work 1] := (h _).append_right hrun
  cases (hexit.head hidle).2 _ hmem

end EventQueue

end Epoller
