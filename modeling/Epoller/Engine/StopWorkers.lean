import Epoller.Engine.EventQueue

/-!
# Deleting the Workers

`stopWorkers` asks each `Worker` again and again whether its thread has `exited`,
and deletes all of them when a whole round has found every flag set. The flag is
the last thing that a thread writes, but the constructor of `Worker` does not set
it: what is in memory there is a parameter.

## Contents

- `Stopping`, `StoppingStep`, `Stopping.step`: the machine
- `Safe`: a worker that is deleted is gone
- `Seen.step`: flags stay set, so a round sees what will be deleted
- `safe_of_run`: the condition on the memory
-/

namespace Epoller

open Foundation

universe u

variable {ε : Type u}

/-! ## Workers That Have Left -/

/-- The thread has left the loop of `Engine::worker`. -/
def WorkerStage.hasLeft : WorkerStage ε → Bool
  | exited | threw => true
  | _ => false

namespace EventQueue

variable {s s' : EventQueue ε} {l : QueueStep ε} {i j : ℕ} {stage w : WorkerStage ε}

theorem hasLeft_setWorker (hj : s.workers[j]? = some stage) (hstage : stage.hasLeft = false)
    (hi : s.workers[i]? = some w) (hw : w.hasLeft = true) (stage' : WorkerStage ε) :
    (s.setWorker j stage').workers[i]? = some w := by
  have hne : j ≠ i := by
    rintro rfl
    rw [hj] at hi
    cases hi
    exact absurd (hstage.symm.trans hw) (by decide)
  exact (List.getElem?_set_ne hne).trans hi

theorem Works.workers {s₁ : EventQueue ε} {stage' : WorkerStage ε}
    (h : Works s i stage stage' s₁) : s₁.workers = s.workers := by
  cases h <;> rfl

theorem hasLeft_signals (h : Signals s s') (hi : s.workers[i]? = some w) (hw : w.hasLeft = true) :
    s'.workers[i]? = some w := by
  cases h with
  | nobody => exact hi
  | notify hj => exact hasLeft_setWorker hj rfl hi hw _

theorem work_of_hasLeft (hw : w.hasLeft = true) : s.work i w = .error .disabled := by
  cases w with
  | exited | threw => rfl
  | _ => cases hw

/-- **Frame**: a worker that has left takes no step, and nobody puts it elsewhere. -/
theorem hasLeft_step (hstep : s.step l = .ok s') (hi : s.workers[i]? = some w)
    (hw : w.hasLeft = true) : s'.workers[i]? = some w := by
  cases moves_of_step hstep with
  | start hnone =>
    rw [hnone] at hi
    cases hi
  | pushWorker _ hj => exact hasLeft_setWorker hj rfl hi hw _
  | signalEpoll _ hsignals | stopWorkers _ hsignals => exact hasLeft_signals hsignals hi hw
  | signalWorker hj hsignals =>
    exact hasLeft_signals hsignals (hasLeft_setWorker hj rfl hi hw _) hw
  | @work j stage stage' s₁ hj hworks =>
    -- a worker that has left is not the one that works
    have hstage : stage.hasLeft = false := by
      by_contra hleft
      simp only [step, hj] at hstep
      rw [work_of_hasLeft (Bool.eq_true_of_not_eq_false hleft)] at hstep
      cases hstep
    rw [← hworks.workers] at hj hi
    exact hasLeft_setWorker hj hstage hi hw _
  | throw hj | wake hj => exact hasLeft_setWorker hj rfl hi hw _
  | other | pushEpoll | expire | leave => exact hi

theorem length_signals (h : Signals s s') : s'.workers.length = s.workers.length := by
  cases h with
  | nobody => rfl
  | notify => exact List.length_set

/-- The number of workers changes only when they are started. -/
theorem length_step (hstep : s.step l = .ok s') (hworkers : s.workers ≠ []) :
    s'.workers.length = s.workers.length := by
  cases moves_of_step hstep with
  | start hnone => exact absurd hnone hworkers
  | signalEpoll _ hsignals =>
    have hlength := length_signals hsignals
    exact hlength
  | stopWorkers _ hsignals => exact length_signals hsignals
  | signalWorker _ hsignals => exact (length_signals hsignals).trans List.length_set
  | work _ hworks => exact List.length_set.trans (congrArg List.length hworks.workers)
  | pushWorker | throw | wake => exact List.length_set
  | other | pushEpoll | expire | leave => rfl

end EventQueue

/-! ## The Machine -/

/-- Where the main thread is in `stopWorkers`; `i` and `waiting` are its variables. -/
inductive MainStage where
  /-- Before `stopWorkers` -/
  | before
  /-- `i > 0 && waiting` -/
  | testing (i : ℕ) (waiting : Bool)
  /-- In the loop over `slaves` -/
  | polling (i slave : ℕ) (waiting : Bool)
  /-- The slave has not exited: before `sem.signal` -/
  | signalling (i slave : ℕ)
  /-- In the loop that deletes -/
  | deleting (slave : ℕ)
  | stopped
  /-- "Engine::stopWorkers failed to stop" -/
  | trapped
deriving DecidableEq, Repr

/-- The engine and its `Worker`s -/
structure Stopping (ε : Type u) where
  queue : EventQueue ε
  main : MainStage
  /-- `Worker::exited` of each slave -/
  exited : ℕ → Bool
  /-- The thread has set `exited` and returned. -/
  gone : ℕ → Bool
  deleted : ℕ → Bool

/-- The main thread makes this step, in `stopWorkers`. -/
def QueueStep.isStopWorkers : QueueStep ε → Bool
  | stopWorkers _ => true
  | _ => false

inductive StoppingStep (ε : Type u) where
  /-- A step of any thread before or beside `stopWorkers` -/
  | queue (l : QueueStep ε)
  /-- `me.exited = true` of worker `i` -/
  | exit (i : ℕ)
  /-- `doInit` calls `stopWorkers`. -/
  | stopWorkers
  /-- The main thread goes on; `wakes` is the worker that `notify_one` wakes. -/
  | main (wakes : Option ℕ)
deriving DecidableEq, Repr

namespace Stopping

/-- A fresh engine; `memory` is what the constructor of each `Worker` finds in `exited`. -/
def init (memory : ℕ → Bool) : Stopping ε where
  queue := .init
  main := .before
  exited := memory
  gone := fun _ => false
  deleted := fun _ => false

/-- The next step of the main thread -/
def mainStep (s : Stopping ε) (wakes : Option ℕ) : MainStage → Except QueueHalt (Stopping ε)
  | .testing i waiting =>
    -- `waiting = false` at the head of the body
    if 0 < i ∧ waiting = true then .ok { s with main := .polling i 0 false }
    else .ok { s with main := if waiting = true then .trapped else .deleting 0 }
  | .polling i slave waiting =>
    if slave < s.queue.workers.length then
      .ok { s with
        main := if s.exited slave = true then .polling i (slave + 1) waiting
          else .signalling i slave }
    -- the main thread sleeps if it is waiting; the rounds that are left are counted down
    else .ok { s with main := .testing (i - 1) waiting }
  -- `stopWorkers` goes on with the next slave whether or not this one has woken up
  | .signalling i slave => do
    let queue ← s.queue.step (.stopWorkers wakes)
    .ok { s with queue, main := .polling i (slave + 1) true }
  | .deleting slave =>
    if slave < s.queue.workers.length then
      .ok { s with
        main := .deleting (slave + 1)
        deleted := Function.update s.deleted slave true }
    else .ok { s with main := .stopped }
  | .before | .stopped | .trapped => .error .disabled

/-- `rounds` is `1024 * std::thread::hardware_concurrency()`. -/
def step (rounds : ℕ) (s : Stopping ε) : StoppingStep ε → Except QueueHalt (Stopping ε)
  | .queue l =>
    if l.isStopWorkers = true then .error .disabled
    else do
      let queue ← s.queue.step l
      .ok { s with queue }
  | .exit i =>
    match s.queue.workers[i]? with
    | some w =>
      -- behind the loop, or behind the handler that caught what it threw
      if w.hasLeft = true ∧ s.gone i = false then
        .ok { s with
          exited := Function.update s.exited i true
          gone := Function.update s.gone i true }
      else .error .disabled
    | none => .error .disabled
  | .stopWorkers =>
    if s.main = .before ∧ s.queue.epoll = .left ∧ s.queue.workers ≠ [] then
      .ok { s with main := .testing rounds true }
    else .error .disabled
  | .main wakes => s.mainStep wakes s.main

/-- The thread of worker `i` has left the loop and set its flag: it does nothing any more. -/
def Gone (s : Stopping ε) (i : ℕ) : Prop :=
  s.gone i = true ∧ ∃ w, s.queue.workers[i]? = some w ∧ w.hasLeft = true

/-- **Safety**: a `Worker` is deleted only when its thread is gone. -/
def Safe (s : Stopping ε) : Prop := ∀ i, s.deleted i = true → Gone s i

/-! ## What a Step Can Do -/

variable {s s' : Stopping ε} {l : StoppingStep ε} {rounds i : ℕ}

/-- Everything a step can do. -/
inductive Moves (s : Stopping ε) : Stopping ε → Prop where
  | queue {l : QueueStep ε} {queue : EventQueue ε} (hqueue : s.queue.step l = .ok queue) :
      Moves s { s with queue := queue }
  | exit {i : ℕ} {w : WorkerStage ε} (hi : s.queue.workers[i]? = some w) (hw : w.hasLeft = true) :
      Moves s { s with
        exited := Function.update s.exited i true
        gone := Function.update s.gone i true }
  | begin {rounds : ℕ} (hbefore : s.main = .before) (hworkers : s.queue.workers ≠ []) :
      Moves s { s with main := .testing rounds true }
  | round {i : ℕ} {waiting : Bool} (hmain : s.main = .testing i waiting) :
      Moves s { s with main := .polling i 0 false }
  | trap {i : ℕ} (hmain : s.main = .testing i true) : Moves s { s with main := .trapped }
  /-- All flags were set. -/
  | decide {i : ℕ} (hmain : s.main = .testing i false) : Moves s { s with main := .deleting 0 }
  | seen {i slave : ℕ} {waiting : Bool} (hmain : s.main = .polling i slave waiting)
      (hexited : s.exited slave = true) : Moves s { s with main := .polling i (slave + 1) waiting }
  | unseen {i slave : ℕ} {waiting : Bool} (hmain : s.main = .polling i slave waiting) :
      Moves s { s with main := .signalling i slave }
  | roundOver {i slave : ℕ} {waiting : Bool} (hmain : s.main = .polling i slave waiting)
      (hall : s.queue.workers.length ≤ slave) : Moves s { s with main := .testing (i - 1) waiting }
  | signal {l : QueueStep ε} {queue : EventQueue ε} {i slave : ℕ}
      (hmain : s.main = .signalling i slave) (hqueue : s.queue.step l = .ok queue) :
      Moves s { s with queue := queue, main := .polling i (slave + 1) true }
  | delete {slave : ℕ} (hmain : s.main = .deleting slave)
      (hslave : slave < s.queue.workers.length) :
      Moves s { s with
        main := .deleting (slave + 1)
        deleted := Function.update s.deleted slave true }
  | stop {slave : ℕ} (hmain : s.main = .deleting slave) : Moves s { s with main := .stopped }

theorem moves_of_step (hstep : s.step rounds l = .ok s') : Moves s s' := by
  cases l with
  | queue l =>
    simp only [step] at hstep
    split at hstep
    · cases hstep
    · obtain ⟨queue, hqueue, hstep⟩ := bind_eq_ok_iff.mp hstep
      cases hstep
      exact .queue hqueue
  | exit i =>
    simp only [step] at hstep
    split at hstep
    · rename_i w hi
      split at hstep <;> cases hstep
      rename_i hready
      exact .exit hi hready.1
    · cases hstep
  | stopWorkers =>
    simp only [step] at hstep
    split at hstep <;> cases hstep
    rename_i hready
    exact .begin hready.1 hready.2.2
  | main wakes =>
    simp only [step] at hstep
    cases hmain : s.main with
    | before | stopped | trapped =>
      rw [hmain] at hstep
      cases hstep
    | testing i waiting =>
      rw [hmain] at hstep
      simp only [mainStep] at hstep
      split at hstep <;> cases hstep
      · exact .round hmain
      · cases waiting with
        | true => exact .trap hmain
        | false => exact .decide hmain
    | polling i slave waiting =>
      rw [hmain] at hstep
      simp only [mainStep] at hstep
      split at hstep <;> cases hstep
      · split
        · exact .seen hmain ‹_›
        · exact .unseen hmain
      · exact .roundOver hmain (not_lt.mp ‹_›)
    | signalling i slave =>
      rw [hmain] at hstep
      obtain ⟨queue, hqueue, hstep⟩ := bind_eq_ok_iff.mp hstep
      cases hstep
      exact .signal hmain hqueue
    | deleting slave =>
      rw [hmain] at hstep
      simp only [mainStep] at hstep
      split at hstep <;> cases hstep
      · exact .delete hmain ‹_›
      · exact .stop hmain

/-! ## What the Main Thread Has Seen -/

/-- The flags that the main thread has found set in this round -/
def SeenAt (s : Stopping ε) : MainStage → Prop
  | .polling _ slave false => ∀ j < slave, s.exited j = true
  | .testing _ false | .deleting _ => ∀ j < s.queue.workers.length, s.exited j = true
  | .polling _ _ true | .testing _ true | .before | .signalling _ _ | .stopped | .trapped => True

/-- **The invariant**: a flag is set because it was so from the start, or because the thread is
gone. -/
structure Seen (memory : ℕ → Bool) (s : Stopping ε) : Prop where
  workers : s.main ≠ .before → s.queue.workers ≠ []
  exited : ∀ i, s.exited i = true → memory i = true ∨ Gone s i
  seen : SeenAt s s.main
  deleted : ∀ i, s.deleted i = true → i < s.queue.workers.length ∧ s.exited i = true

variable {memory : ℕ → Bool}

theorem Gone.queue {queue : EventQueue ε} {l : QueueStep ε} (h : Gone s i)
    (hqueue : s.queue.step l = .ok queue) : Gone { s with queue := queue } i := by
  obtain ⟨hgone, w, hi, hw⟩ := h
  exact ⟨hgone, w, EventQueue.hasLeft_step hqueue hi hw, hw⟩

/-- Flags stay set. -/
theorem SeenAt.mono {stage : MainStage} (h : SeenAt s stage)
    (hexited : ∀ j, s.exited j = true → s'.exited j = true)
    (hlength : s'.queue.workers.length = s.queue.workers.length) : SeenAt s' stage := by
  cases stage with
  | polling i slave waiting =>
    cases waiting with
    | true => trivial
    | false => exact fun j hj => hexited j (h j hj)
  | testing i waiting =>
    cases waiting with
    | true => trivial
    | false => exact fun j hj => hexited j (h j (hlength ▸ hj))
  | deleting slave => exact fun j hj => hexited j (h j (hlength ▸ hj))
  | before | signalling | stopped | trapped => trivial

/-- A step of the other threads -/
theorem Seen.queue {queue : EventQueue ε} {l : QueueStep ε} (h : Seen memory s)
    (hqueue : s.queue.step l = .ok queue) : Seen memory { s with queue := queue } := by
  have hlength : s.queue.workers ≠ [] → queue.workers.length = s.queue.workers.length :=
    EventQueue.length_step hqueue
  refine ⟨fun hmain hnil => ?_, fun i hi => (h.exited i hi).imp_right fun hgone =>
    hgone.queue hqueue, ?_, fun i hi => ?_⟩
  -- the slaves are never taken out of the list
  · have hworkers := h.workers hmain
    have hzero := hlength hworkers
    rw [hnil, List.length_nil] at hzero
    exact hworkers (List.length_eq_zero_iff.mp hzero.symm)
  · change SeenAt { s with queue := queue } s.main
    by_cases hmain : s.main = .before
    · rw [hmain]
      trivial
    · exact h.seen.mono (fun _ hj => hj) (hlength (h.workers hmain))
  · obtain ⟨hlt, hexited⟩ := h.deleted i hi
    have hworkers : s.queue.workers ≠ [] := List.ne_nil_of_length_pos (Nat.zero_lt_of_lt hlt)
    exact ⟨(hlength hworkers).symm ▸ hlt, hexited⟩

/-- A thread that has left sets its flag. -/
theorem Seen.exit {w : WorkerStage ε} (h : Seen memory s) (hi : s.queue.workers[i]? = some w)
    (hw : w.hasLeft = true) :
    Seen memory { s with
      exited := Function.update s.exited i true
      gone := Function.update s.gone i true } := by
  have hset : ∀ (flags : ℕ → Bool) j, flags j = true → Function.update flags i true j = true := by
    intro flags j hj
    rw [Function.update_apply]
    split
    · rfl
    · exact hj
  refine ⟨h.workers, fun j hj => ?_, h.seen.mono (hset s.exited) rfl, fun j hj => ?_⟩
  · by_cases hji : j = i
    · subst hji
      exact Or.inr ⟨Function.update_self .., w, hi, hw⟩
    · change Function.update s.exited i true j = true at hj
      rw [Function.update_of_ne hji] at hj
      exact (h.exited j hj).imp_right fun hgone => ⟨hset s.gone j hgone.1, hgone.2⟩
  · exact (h.deleted j hj).imp_right (hset s.exited j)

/-- The main thread goes on. -/
theorem Seen.goTo {stage : MainStage} (h : Seen memory s) (hmain : s.main ≠ .before)
    (hseen : SeenAt s stage) : Seen memory { s with main := stage } :=
  ⟨fun _ => h.workers hmain, h.exited, hseen.mono (fun _ hj => hj) rfl, h.deleted⟩

/-- **Step** -/
theorem Seen.step (h : Seen memory s) (hstep : s.step rounds l = .ok s') : Seen memory s' := by
  have hseen := h.seen
  cases moves_of_step hstep with
  | queue hqueue => exact h.queue hqueue
  | exit hi hw => exact h.exit hi hw
  | begin _ hworkers => exact ⟨fun _ => hworkers, h.exited, trivial, h.deleted⟩
  | round hmain => exact h.goTo (by simp [hmain]) fun j hj => absurd hj (Nat.not_lt_zero j)
  | trap hmain | unseen hmain | stop hmain => exact h.goTo (by simp [hmain]) trivial
  | decide hmain =>
    rw [hmain] at hseen
    exact h.goTo (by simp [hmain]) hseen
  | @seen i slave waiting hmain hexited =>
    rw [hmain] at hseen
    refine h.goTo (by simp [hmain]) ?_
    cases waiting with
    | true => trivial
    -- no flag was missing so far in this round, and this one is set
    | false =>
      intro j hj
      rcases Nat.lt_succ_iff_lt_or_eq.mp hj with hlt | rfl
      · exact hseen j hlt
      · exact hexited
  | @roundOver i slave waiting hmain hall =>
    rw [hmain] at hseen
    refine h.goTo (by simp [hmain]) ?_
    cases waiting with
    | true => trivial
    | false => exact fun j hj => hseen j (lt_of_lt_of_le hj hall)
  | signal hmain hqueue =>
    have hsignalled := h.queue hqueue
    exact hsignalled.goTo (by simp [hmain]) trivial
  | @delete slave hmain hslave =>
    rw [hmain] at hseen
    refine ⟨fun _ => h.workers (by simp [hmain]), h.exited, hseen, fun j hj => ?_⟩
    by_cases hjs : j = slave
    · subst hjs
      exact ⟨hslave, hseen j hslave⟩
    · change Function.update s.deleted slave true j = true at hj
      rw [Function.update_of_ne hjs] at hj
      exact h.deleted j hj

theorem seen_init (memory : ℕ → Bool) : Seen memory (init memory : Stopping ε) :=
  ⟨fun hmain => absurd rfl hmain, fun _ hi => Or.inl hi, trivial, fun _ hi => (by cases hi)⟩

/-- **No worker is deleted too early** in a run in which every slave finds `exited` false. -/
theorem safe_of_run {ls : List (StoppingStep ε)}
    (hrun : runFrom (step rounds) (init memory) ls = .ok s)
    (hmemory : ∀ i < s.queue.workers.length, memory i = false) : Safe s := by
  have hseen := runFrom_invariant (Seen memory) (fun h hstep => h.step hstep) (seen_init memory)
    hrun
  intro i hi
  obtain ⟨hlt, hexited⟩ := hseen.deleted i hi
  -- the flag was not there from the start, so the thread has set it
  refine (hseen.exited i hexited).resolve_left fun hset => ?_
  exact absurd ((hmemory i hlt).symm.trans hset) (by decide)

/-- One worker, whose flag is false at first: it is deleted when it is gone. -/
theorem safe_one_worker : ∃ s : Stopping ℕ,
    runFrom (step 1) (init fun _ => false) [.queue (.add 1), .queue (.doInit 0),
      .queue .signalHandler, .queue .leaveEpoll, .queue (.work 0), .exit 0, .stopWorkers,
      .main none, .main none, .main none, .main none, .main none] = .ok s ∧
    s.deleted 0 = true ∧ Safe s := by
  obtain ⟨s, hrun, hdeleted⟩ : ∃ s : Stopping ℕ,
      runFrom (step 1) (init fun _ => false) [.queue (.add 1), .queue (.doInit 0),
        .queue .signalHandler, .queue .leaveEpoll, .queue (.work 0), .exit 0, .stopWorkers,
        .main none, .main none, .main none, .main none, .main none] = .ok s ∧
      s.deleted 0 = true := by
    decide +kernel
  exact ⟨s, hrun, hdeleted, safe_of_run hrun fun _ _ => rfl⟩

/-- One worker, whose flag is true in memory: it is deleted before it has done anything. -/
theorem not_safe_flag_set : ¬ ∀ (memory : ℕ → Bool) (rounds : ℕ) (ls : List (StoppingStep ℕ))
    (s : Stopping ℕ), runFrom (step rounds) (init memory) ls = .ok s → Safe s := by
  intro h
  obtain ⟨s, hrun, hdeleted, hgone⟩ : ∃ s : Stopping ℕ,
      runFrom (step 1) (init fun _ => true) [.queue (.add 1), .queue (.doInit 0),
        .queue .signalHandler, .queue .leaveEpoll, .stopWorkers,
        .main none, .main none, .main none, .main none, .main none] = .ok s ∧
      s.deleted 0 = true ∧ s.gone 0 = false := by
    decide +kernel
  exact absurd (hgone.symm.trans (h _ _ _ s hrun 0 hdeleted).1) (by decide)

end Stopping

end Epoller
