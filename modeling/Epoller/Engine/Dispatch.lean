import Epoller.Engine.EventQueue
import Epoller.Foundation.LeadsTo

/-!
# Every Event Is Dispatched

`eventQueue` and the semaphore are not changed under one lock, so an event may be on
the queue while every worker is blocked and its producer is still to signal. As long
as one worker is left that is not on its way out, the threads empty the queue all the
same, whatever has happened before: a producer signals, the signal reaches a worker in
`sem.wait`, and the worker pops the first event.

## Contents

- `isServing`: a worker that comes back to the queue
- `Dispatches`: the steps that are needed
- `Keeps`, `keeps_step`: what they leave as it is
- `Serving.toPop`: the next event is popped
- `dispatched_of_run`: in every run
-/

namespace Epoller

open Foundation

universe u

variable {ε : Type u}

/-- The worker is not on its way out: from here it comes back to `sem.wait`, if a socket is
registered. -/
def WorkerStage.isServing : WorkerStage ε → Bool
  | loop | checking | asleep | woken | popped _ | running _ | signalling _ | returned
  | testHash => true
  | testTimer | testActive | idle | exited | threw => false

/-- A step of a worker, a signal of a producer, or the rest of `handleTimerExpired` -/
def QueueStep.Dispatches : QueueStep ε → Prop
  | .work _ | .signal .. | .resetTimerEvent | .rearm _ => True
  | .add _ | .remove _ | .setTimerTrigger _ | .doInit _ | .newEvent .. | .doRunAsync ..
  | .handleTimerExpired | .throw _ | .wake _ | .signalHandler | .leaveEpoll
  | .stopWorkers _ => False

namespace EventQueue

variable {s s' : EventQueue ε} {l : QueueStep ε} {ls ms : List (QueueStep ε)} {i j : ℕ}
  {stage : WorkerStage ε}

/-! ## What the Steps Keep -/

/-- Worker `i` serves. -/
def Serves (s : EventQueue ε) (i : ℕ) : Prop :=
  ∃ stage, s.workers[i]? = some stage ∧ stage.isServing = true

/-- Nothing is pushed, registered or stopped, and who serves goes on serving. -/
structure Keeps (s s' : EventQueue ε) : Prop where
  pushed : s'.pushed = s.pushed
  eventHash : s'.eventHash = s.eventHash
  stopping : s'.stopping = s.stopping
  serves : ∀ i, s.Serves i → s'.Serves i

theorem Keeps.trans {s'' : EventQueue ε} (h : Keeps s s') (h' : Keeps s' s'') : Keeps s s'' where
  pushed := h'.pushed.trans h.pushed
  eventHash := h'.eventHash.trans h.eventHash
  stopping := h'.stopping.trans h.stopping
  serves i hi := h'.serves i (h.serves i hi)

theorem Keeps.of_workers (hpushed : s'.pushed = s.pushed) (hhash : s'.eventHash = s.eventHash)
    (hstopping : s'.stopping = s.stopping) (hworkers : s'.workers = s.workers) : Keeps s s' :=
  ⟨hpushed, hhash, hstopping, fun i hi => by rwa [Serves, hworkers]⟩

/-- One worker goes on to another stage. -/
theorem Keeps.of_set {stage' : WorkerStage ε} (hj : s.workers[j]? = some stage)
    (hpushed : s'.pushed = s.pushed) (hhash : s'.eventHash = s.eventHash)
    (hstopping : s'.stopping = s.stopping) (hworkers : s'.workers = s.workers.set j stage')
    (hstage : stage.isServing = true → stage'.isServing = true) : Keeps s s' := by
  refine ⟨hpushed, hhash, hstopping, fun i hserves => ?_⟩
  obtain ⟨stageI, hi, hserving⟩ := hserves
  rw [Serves, hworkers]
  by_cases hij : j = i
  · subst hij
    obtain ⟨hlt, -⟩ := List.getElem?_eq_some_iff.mp hj
    cases hj.symm.trans hi
    exact ⟨stage', by simp [hlt], hstage hserving⟩
  · exact ⟨stageI, (List.getElem?_set_ne hij).trans hi, hserving⟩

theorem keeps_signals (hsignals : Signals s s') : Keeps s s' := by
  cases hsignals with
  | nobody => exact .of_workers rfl rfl rfl rfl
  | notify hj => exact .of_set hj rfl rfl rfl rfl fun _ => rfl

/-- A worker that serves goes on serving, as the test of `eventHash` fails. -/
theorem keeps_work (hruns : s.stopping = false) (hregistered : s.eventHash ≠ [])
    (hj : s.workers[j]? = some stage) (h : s.work j stage = .ok s') : Keeps s s' := by
  cases stage with
  | loop =>
    cases h
    exact .of_set hj rfl rfl rfl rfl fun _ => by simp [hruns, WorkerStage.isServing]
  | testHash =>
    cases h
    exact .of_set hj rfl rfl rfl rfl fun _ => by simp [hregistered, WorkerStage.isServing]
  | checking | woken =>
    simp only [work] at h
    split at h <;> cases h <;> exact .of_set hj rfl rfl rfl rfl fun _ => rfl
  | popped | running | returned =>
    cases h
    exact .of_set hj rfl rfl rfl rfl fun _ => rfl
  | testTimer | testActive | idle =>
    -- the worker may come back from a test, but then nobody relied on it
    cases h
    exact .of_set hj rfl rfl rfl rfl fun hserving => (by cases hserving)
  | asleep | signalling | exited | threw => cases h

theorem keeps_step (hruns : s.stopping = false) (hregistered : s.eventHash ≠ [])
    (hstep : s.step l = .ok s') (hl : l.Dispatches) : Keeps s s' := by
  cases l with
  | work j =>
    simp only [step] at hstep
    split at hstep
    · exact keeps_work hruns hregistered ‹_› hstep
    · cases hstep
  | signal who wakes =>
    cases who with
    | epollThread =>
      simp only [step] at hstep
      split at hstep
      · have hepoll : Keeps s { s with epoll := .waiting } := .of_workers rfl rfl rfl rfl
        exact hepoll.trans (keeps_signals (signals_of_signal hstep))
      · cases hstep
    | worker j =>
      simp only [step] at hstep
      split at hstep
      · rename_i event hj
        have hrunning : Keeps s (s.setWorker j (.running (some event))) :=
          .of_set hj rfl rfl rfl rfl fun _ => rfl
        exact hrunning.trans (keeps_signals (signals_of_signal hstep))
      · cases hstep
  | resetTimerEvent | rearm =>
    simp only [step] at hstep
    split at hstep <;> cases hstep
    exact .of_workers rfl rfl rfl rfl
  | add | remove | setTimerTrigger | doInit | newEvent | doRunAsync | handleTimerExpired | throw
  | wake | signalHandler | leaveEpoll | stopWorkers => exact hl.elim

/-- A running engine with a registered socket, one of whose workers serves -/
structure Serving (i : ℕ) (s : EventQueue ε) : Prop where
  conserved : Conserved s
  runs : s.stopping = false
  registered : s.eventHash ≠ []
  serves : s.Serves i

theorem Serving.step (h : Serving i s) (hstep : s.step l = .ok s') (hl : l.Dispatches) :
    Serving i s' := by
  have hkeeps := keeps_step h.runs h.registered hstep hl
  exact ⟨h.conserved.step hstep, hkeeps.stopping.trans h.runs, hkeeps.eventHash ▸ h.registered,
    hkeeps.serves i h.serves⟩

/-! ## The Next Event Is Popped -/

/-- The steps lead to a pop. -/
def ToPop (s : EventQueue ε) : Prop :=
  LeadsTo step QueueStep.Dispatches (fun t => t.eventQueue.length < s.eventQueue.length) s

theorem ToPop.cons (hstep : s.step l = .ok s') (hl : l.Dispatches)
    (hqueue : s'.eventQueue = s.eventQueue) (h : ToPop s') : ToPop s := by
  rw [ToPop, hqueue] at h
  exact LeadsTo.cons hl hstep h

theorem step_work (hj : s.workers[j]? = some stage) : s.step (.work j) = s.work j stage := by
  simp only [step, hj]

theorem getElem?_setWorker (hj : s.workers[j]? = some stage) (stage' : WorkerStage ε) :
    (s.setWorker j stage').workers[j]? = some stage' := by
  obtain ⟨hlt, -⟩ := List.getElem?_eq_some_iff.mp hj
  simp [setWorker, hlt]

theorem toPop_woken (hqueue : s.eventQueue ≠ []) (hj : s.workers[j]? = some .woken) : ToPop s := by
  obtain ⟨event, rest, hcons⟩ := List.exists_cons_of_ne_nil hqueue
  have hstep := step_work hj
  simp only [work, hcons] at hstep
  have hl : (QueueStep.work j : QueueStep ε).Dispatches := trivial
  refine LeadsTo.cons hl hstep (LeadsTo.here ?_)
  rw [hcons]
  exact Nat.lt_succ_self _

/-- A worker in `sem.wait` that looks at `count` passes. -/
theorem toPop_checking (hqueue : s.eventQueue ≠ []) (hcount : 0 < s.count)
    (hj : s.workers[j]? = some .checking) : ToPop s := by
  have hstep := step_work hj
  simp only [work, hcount, if_true] at hstep
  refine ToPop.cons hstep trivial rfl ?_
  exact toPop_woken hqueue (getElem?_setWorker (s := { s with count := s.count - 1 }) hj _)

/-- Nobody sleeps while there is something to pass with, unless somebody else is about to look. -/
theorem toPop_asleep (hqueue : s.eventQueue ≠ []) (hcount : 0 < s.count)
    (hsound : s.semaphore.Sound) (hj : s.workers[j]? = some .asleep) : ToPop s := by
  have hasleep : 0 < s.semaphore.asleep := countP_pos_of_getElem? hj rfl
  have hchecking : 0 < s.workers.countP WorkerStage.isChecking := hcount.trans_le (hsound hasleep)
  -- a wake-up is not lost: the one that `count` stands for may have gone to another worker
  obtain ⟨k, w, hk, hwait⟩ := exists_getElem?_of_countP_pos hchecking
  cases w with
  | checking => exact toPop_checking hqueue hcount hk
  | loop | asleep | woken | popped | running | signalling | returned | testHash | testTimer
  | testActive | idle | exited | threw => cases hwait

theorem toPop_loop (hqueue : s.eventQueue ≠ []) (hcount : 0 < s.count) (hruns : s.stopping = false)
    (hj : s.workers[j]? = some .loop) : ToPop s := by
  have hstep := step_work hj
  simp only [work, hruns, Bool.false_eq_true, if_false] at hstep
  exact ToPop.cons hstep trivial rfl
    (toPop_checking hqueue hcount (getElem?_setWorker hj _))

/-- The test of `eventHash` sends the worker back. -/
theorem toPop_testHash (hqueue : s.eventQueue ≠ []) (hcount : 0 < s.count)
    (hruns : s.stopping = false) (hregistered : s.eventHash ≠ [])
    (hj : s.workers[j]? = some .testHash) : ToPop s := by
  have hstep := step_work hj
  simp only [work, hregistered, if_false] at hstep
  exact ToPop.cons hstep trivial rfl
    (toPop_loop hqueue hcount hruns (getElem?_setWorker hj _))

theorem toPop_returned (hqueue : s.eventQueue ≠ []) (hcount : 0 < s.count)
    (hruns : s.stopping = false) (hregistered : s.eventHash ≠ [])
    (hj : s.workers[j]? = some .returned) : ToPop s := by
  refine ToPop.cons (step_work hj) trivial rfl ?_
  exact toPop_testHash hqueue hcount hruns hregistered
    (getElem?_setWorker (s := { s with activeCount := s.activeCount - 1 }) hj _)

theorem toPop_running {event : Option ε} (hqueue : s.eventQueue ≠ []) (hcount : 0 < s.count)
    (hruns : s.stopping = false) (hregistered : s.eventHash ≠ [])
    (hj : s.workers[j]? = some (.running event)) : ToPop s :=
  ToPop.cons (step_work hj) trivial rfl
    (toPop_returned hqueue hcount hruns hregistered (getElem?_setWorker hj _))

theorem toPop_popped {event : Option ε} (hqueue : s.eventQueue ≠ []) (hcount : 0 < s.count)
    (hruns : s.stopping = false) (hregistered : s.eventHash ≠ [])
    (hj : s.workers[j]? = some (.popped event)) : ToPop s := by
  refine ToPop.cons (step_work hj) trivial rfl ?_
  exact toPop_running hqueue hcount hruns hregistered
    (getElem?_setWorker (s := { s with activeCount := s.activeCount + 1 }) hj _)

/-- A signal is always possible, and wakes nobody who is awake. -/
theorem exists_signal (s : EventQueue ε) :
    ∃ (wakes : Option ℕ) (s' : EventQueue ε), s.signal wakes = .ok s' ∧
    s'.count = s.count + 1 ∧ s'.eventQueue = s.eventQueue ∧
    ∀ (i : ℕ) (stage : WorkerStage ε), s.workers[i]? = some stage → stage.isAsleep = false →
      s'.workers[i]? = some stage := by
  by_cases hasleep : s.workers.countP WorkerStage.isAsleep = 0
  · exact ⟨none, _, if_pos hasleep, rfl, rfl, fun _ _ hi _ => hi⟩
  · -- `notify_one` may wake any of those who sleep
    obtain ⟨k, w, hk, hsleeps⟩ := exists_getElem?_of_countP_pos (Nat.pos_of_ne_zero hasleep)
    have hw' : w = .asleep := by
      cases w with
      | asleep => rfl
      | loop | checking | woken | popped | running | signalling | returned | testHash | testTimer
      | testActive | idle | exited | threw => cases hsleeps
    subst hw'
    refine ⟨some k, { s with count := s.count + 1 }.setWorker k .checking, ?_, rfl, rfl,
      fun i stage hi hawake => ?_⟩
    · simp only [signal, hk]
    · have hne : k ≠ i := fun hki => by
        subst hki
        cases hk.symm.trans hi
        cases hawake
      exact (List.getElem?_set_ne hne).trans hi

/-- A worker between push and signal signals, and comes back. -/
theorem toPop_signalling {event : ε} (hqueue : s.eventQueue ≠ []) (hruns : s.stopping = false)
    (hregistered : s.eventHash ≠ []) (hj : s.workers[j]? = some (.signalling event)) :
    ToPop s := by
  obtain ⟨wakes, s', hsignal, hcount, hsame, hothers⟩ :=
    exists_signal (s.setWorker j (.running (some event)))
  have hstep : s.step (.signal (.worker j) wakes) = .ok s' := by
    simp only [step, hj]
    exact hsignal
  have hkeeps := keeps_step hruns hregistered hstep trivial
  have hrunning := hothers j _ (getElem?_setWorker hj _) rfl
  refine ToPop.cons hstep trivial hsame ?_
  refine toPop_running (hsame ▸ hqueue) (by omega) (hkeeps.stopping.trans hruns) ?_ hrunning
  rw [hkeeps.eventHash]
  exact hregistered

/-- **Something to pass with**: the worker that serves comes to `sem.wait`, or somebody is there. -/
theorem Serving.toPop_count (h : Serving i s) (hqueue : s.eventQueue ≠ []) (hcount : 0 < s.count) :
    ToPop s := by
  obtain ⟨stage, hi, hserving⟩ := h.serves
  cases stage with
  | loop => exact toPop_loop hqueue hcount h.runs hi
  | checking => exact toPop_checking hqueue hcount hi
  | asleep => exact toPop_asleep hqueue hcount h.conserved.semaphore hi
  | woken => exact toPop_woken hqueue hi
  | popped => exact toPop_popped hqueue hcount h.runs h.registered hi
  | running => exact toPop_running hqueue hcount h.runs h.registered hi
  | signalling => exact toPop_signalling hqueue h.runs h.registered hi
  | returned => exact toPop_returned hqueue hcount h.runs h.registered hi
  | testHash => exact toPop_testHash hqueue hcount h.runs h.registered hi
  | testTimer | testActive | idle | exited | threw => cases hserving

/-- The epoll thread signals. -/
theorem Serving.toPop_epoll (h : Serving i s) (hqueue : s.eventQueue ≠ [])
    (hepoll : s.epoll = .signalling) : ToPop s := by
  obtain ⟨wakes, s', hsignal, hcount, hsame, -⟩ := exists_signal { s with epoll := .waiting }
  have hstep : s.step (.signal .epollThread wakes) = .ok s' := by
    simp only [EventQueue.step, hepoll, if_true]
    exact hsignal
  refine ToPop.cons hstep trivial hsame ?_
  exact (h.step hstep trivial).toPop_count (hsame ▸ hqueue) (by omega)

theorem Serving.toPop_rearming (h : Serving i s) (hqueue : s.eventQueue ≠ [])
    (hepoll : s.epoll = .rearming) : ToPop s := by
  have hstep : s.step (.rearm none) =
      .ok { s with timerEvent := none, epoll := .signalling } := if_pos hepoll
  exact ToPop.cons hstep trivial rfl ((h.step hstep trivial).toPop_epoll hqueue rfl)

/-- A producer between push and signal -/
theorem Serving.toPop_producer (h : Serving i s) (hqueue : s.eventQueue ≠ [])
    (hproducers : 0 < s.producers) : ToPop s := by
  by_cases hepoll : s.epoll.isSignalling = true
  · cases hstage : s.epoll with
    | signalling => exact h.toPop_epoll hqueue hstage
    | rearming => exact h.toPop_rearming hqueue hstage
    | expired =>
      have hstep : s.step .resetTimerEvent =
          .ok { s with timerEvent := none, epoll := .rearming } := if_pos hstage
      exact ToPop.cons hstep trivial rfl ((h.step hstep trivial).toPop_rearming hqueue rfl)
    | waiting | left =>
      rw [hstage] at hepoll
      cases hepoll
  · have hworkers : 0 < s.workers.countP WorkerStage.isSignalling := by
      rw [producers, Bool.eq_false_of_not_eq_true hepoll] at hproducers
      simpa using hproducers
    obtain ⟨k, w, hk, hsignals⟩ := exists_getElem?_of_countP_pos hworkers
    cases w with
    | signalling => exact toPop_signalling hqueue h.runs h.registered hk
    | loop | checking | asleep | woken | popped | running | returned | testHash | testTimer
    | testActive | idle | exited | threw => cases hsignals

/-- **The next event**: what is queued is accounted for, and whoever stands for it leads to a
pop. -/
theorem Serving.toPop (h : Serving i s) (hqueue : s.eventQueue ≠ []) : ToPop s := by
  have hpos : 0 < s.accounted :=
    (List.length_pos_iff.mpr hqueue).trans_le h.conserved.covered
  -- `count`, the producers between push and signal, or a worker between `sem.wait` and the pop
  by_cases hcount : 0 < s.count
  · exact h.toPop_count hqueue hcount
  · by_cases hproducers : 0 < s.producers
    · exact h.toPop_producer hqueue hproducers
    · have hwoken : 0 < s.workers.countP WorkerStage.isWoken := by
        rw [accounted, woken] at hpos
        omega
      obtain ⟨k, w, hk, hreturned⟩ := exists_getElem?_of_countP_pos hwoken
      cases w with
      | woken => exact toPop_woken hqueue hk
      | loop | checking | asleep | popped | running | signalling | returned | testHash | testTimer
      | testActive | idle | exited | threw => cases hreturned

/-! ## The Queue Is Emptied -/

/-- One event fewer, and nothing else pushed. -/
theorem Serving.progress (h : Serving i s) (hqueue : s.eventQueue ≠ []) :
    LeadsTo EventQueue.step QueueStep.Dispatches (fun t => (Serving i t ∧ t.pushed = s.pushed) ∧
      t.eventQueue.length < s.eventQueue.length) s := by
  refine LeadsTo.keeping (h.toPop hqueue) (fun t => Serving i t ∧ t.pushed = s.pushed)
    (fun {t l t'} hinv hl hstep => ?_) ⟨h, rfl⟩
  have hkeeps := keeps_step hinv.1.runs hinv.1.registered hstep hl
  exact ⟨hinv.1.step hstep hl, hkeeps.pushed.trans hinv.2⟩

/-- The threads empty the queue: the length of the queue is the measure. -/
theorem Serving.drains (h : Serving i s) :
    LeadsTo EventQueue.step QueueStep.Dispatches
      (fun t => (Serving i t ∧ t.pushed = s.pushed) ∧ t.eventQueue = []) s := by
  refine LeadsTo.of_measure (fun t => Serving i t ∧ t.pushed = s.pushed)
    (fun t => t.eventQueue.length) (fun t hinv hqueue => ?_) ⟨h, rfl⟩
  rw [← hinv.2]
  exact hinv.1.progress hqueue

/-- **Run**: in every run of a running engine with a registered socket, as long as one worker is not
on its way out, steps of the threads empty the queue, and the workers have then popped all that was
ever pushed, in its order. -/
theorem dispatched_of_run (hrun : runFrom step init ls = .ok s) (hruns : s.stopping = false)
    (hregistered : s.eventHash ≠ []) (hserves : s.Serves i) :
    ∃ ms t, (∀ l ∈ ms, l.Dispatches) ∧ runFrom step s ms = .ok t ∧ t.eventQueue = [] ∧
      t.popped.map Prod.snd = s.pushed := by
  have hconserved : Conserved s :=
    runFrom_invariant Conserved (fun h hstep => h.step hstep) conserved_init hrun
  have hserving : Serving i s := ⟨hconserved, hruns, hregistered, hserves⟩
  obtain ⟨ms, t, hms, hdispatched, ⟨ht, hpushed⟩, hempty⟩ := hserving.drains
  have horder := ht.conserved.order
  rw [hempty, List.append_nil, hpushed] at horder
  exact ⟨ms, t, hms, hdispatched, hempty, horder.symm⟩

/-- One worker has returned from `sem.wait`, the other is asleep, and the second of two events is
still to be signalled. -/
theorem dispatched_two_workers : ∃ s : EventQueue ℕ,
    runFrom step init [.add 1, .doInit 1, .work 0, .work 0, .work 1, .work 1,
      .newEvent .epollThread 1 7, .signal .epollThread (some 0), .work 0,
      .newEvent .epollThread 1 8] = .ok s ∧
    s.eventQueue = [7, 8] ∧
    ∃ ms t, (∀ l ∈ ms, l.Dispatches) ∧ runFrom step s ms = .ok t ∧ t.eventQueue = [] ∧
      t.popped.map Prod.snd = [7, 8] := by
  obtain ⟨s, hrun, hruns, hregistered, hasleep, hqueue, hpushed⟩ : ∃ s : EventQueue ℕ,
      runFrom step init [.add 1, .doInit 1, .work 0, .work 0, .work 1, .work 1,
        .newEvent .epollThread 1 7, .signal .epollThread (some 0), .work 0,
        .newEvent .epollThread 1 8] = .ok s ∧
      s.stopping = false ∧ s.eventHash ≠ [] ∧ s.workers[1]? = some .asleep ∧
      s.eventQueue = [7, 8] ∧ s.pushed = [7, 8] := by
    decide +kernel
  have hserves : s.Serves 1 := ⟨.asleep, hasleep, rfl⟩
  have h := dispatched_of_run hrun hruns hregistered hserves
  rw [hpushed] at h
  exact ⟨s, hrun, hqueue, h⟩

end EventQueue

end Epoller
