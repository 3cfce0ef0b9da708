import Mathlib

/-!
# Threads, Mutexes and Semaphores

A pool of threads is the list of the places they are at; a step puts one thread
at another place. A mutex has an owner or none, and the code of a thread says at
each place which mutexes are held there. A counting semaphore is seen by how many
threads are at each place of its `wait`.

## Contents

- `countP_set`: how a step changes the number of threads at certain places
- `MutexAction`, `MutexAction.run`: an operation on mutexes that are not recursive
- `MutexAction.owner_iff`: a thread owns what its code holds
- `Semaphore`, `Semaphore.Step`: a count, guarded by a mutex, with a condition variable
- `Semaphore.Sound.step`: no wake-up is lost
-/

namespace Epoller.Foundation

universe u v

/-! ## Pools -/

section Pool

variable {τ : Type u} {threads : List τ} {i : ℕ} {a b : τ}

/-- A place that counts is counted. -/
theorem countP_pos_of_getElem? {p : τ → Bool} (h : threads[i]? = some a) (ha : p a = true) :
    0 < threads.countP p :=
  List.countP_pos_iff.mpr ⟨a, List.mem_of_getElem? h, ha⟩

/-- A place that is counted is that of some thread. -/
theorem exists_getElem?_of_countP_pos {p : τ → Bool} (h : 0 < threads.countP p) :
    ∃ (i : ℕ) (a : τ), threads[i]? = some a ∧ p a = true := by
  obtain ⟨a, hmem, ha⟩ := List.countP_pos_iff.mp h
  obtain ⟨i, hi⟩ := List.getElem?_of_mem hmem
  exact ⟨i, a, hi, ha⟩

/-- A step takes a thread off its place and puts it at another. -/
theorem countP_set (p : τ → Bool) (h : threads[i]? = some a) (b : τ) :
    (threads.set i b).countP p + (p a).toNat = threads.countP p + (p b).toNat := by
  obtain ⟨hi, hget⟩ := List.getElem?_eq_some_iff.mp h
  rw [List.countP_set hi, hget]
  cases ha : p a with
  | false => cases p b <;> simp
  | true =>
    have hpos := countP_pos_of_getElem? h ha
    cases p b <;> simp <;> omega

end Pool

/-! ## Mutexes -/

/-- An operation on one of the mutexes `μ` -/
inductive MutexAction (μ : Type u) where
  | lock (m : μ)
  | unlock (m : μ)
  | none
deriving DecidableEq, Repr

namespace MutexAction

variable {μ : Type u} {ω : Type v} [DecidableEq μ]

/-- What the operation makes of the mutexes that the code holds. -/
def apply (held : μ → Bool) : MutexAction μ → μ → Bool
  | lock m => Function.update held m true
  | unlock m => Function.update held m false
  | none => held

/-- The operation of the thread `who`. A mutex that has an owner cannot be locked, not even by that
owner. -/
def run (who : ω) (owner : μ → Option ω) : MutexAction μ → Option (μ → Option ω)
  | lock m => if owner m = .none then some (Function.update owner m (some who)) else .none
  | unlock m => some (Function.update owner m .none)
  | none => some owner

variable {who : ω} {owner owner' : μ → Option ω} {held : μ → Bool} {action : MutexAction μ}

theorem run_lock_eq_some_iff {m : μ} :
    (lock m).run who owner = some owner' ↔
      owner m = .none ∧ owner' = Function.update owner m (some who) := by
  simp [run, eq_comm]

/-- A thread that owns what its code holds goes on doing so. -/
theorem owner_iff (h : ∀ m, owner m = some who ↔ held m = true)
    (hrun : action.run who owner = some owner') (m : μ) :
    owner' m = some who ↔ action.apply held m = true := by
  cases action with
  | lock m' =>
    obtain ⟨-, rfl⟩ := run_lock_eq_some_iff.mp hrun
    by_cases hm : m = m'
    · subst hm
      simp [apply]
    · simpa [apply, hm] using h m
  | unlock m' =>
    cases hrun
    by_cases hm : m = m'
    · subst hm
      simp [apply]
    · simpa [apply, hm] using h m
  | none =>
    cases hrun
    exact h m

end MutexAction

/-! ## Semaphores -/

/-- A counting semaphore and the threads in its `wait`. -/
structure Semaphore where
  count : ℕ
  /-- Threads about to lock the mutex and look at `count` -/
  checking : ℕ
  /-- Threads blocked on the condition variable -/
  asleep : ℕ
deriving DecidableEq, Repr

namespace Semaphore

/-- A step of a thread in `wait` or `signal`. The mutex makes looking at `count` and what follows
one step. -/
inductive Step (s s' : Semaphore) : Prop where
  /-- A thread calls `wait`. -/
  | enter (hcount : s'.count = s.count) (hchecking : s'.checking = s.checking + 1)
      (hasleep : s'.asleep = s.asleep)
  /-- `count` is positive: the thread takes one and returns. -/
  | pass (hcount : s'.count + 1 = s.count) (hchecking : s'.checking + 1 = s.checking)
      (hasleep : s'.asleep = s.asleep)
  /-- `count` is 0: the thread blocks. -/
  | sleep (hzero : s.count = 0) (hcount : s'.count = s.count)
      (hchecking : s'.checking + 1 = s.checking) (hasleep : s'.asleep = s.asleep + 1)
  /-- A spurious wake-up -/
  | wake (hcount : s'.count = s.count) (hchecking : s'.checking = s.checking + 1)
      (hasleep : s'.asleep + 1 = s.asleep)
  /-- `signal` when nobody is blocked -/
  | signal (hnobody : s.asleep = 0) (hcount : s'.count = s.count + 1)
      (hchecking : s'.checking = s.checking) (hasleep : s'.asleep = s.asleep)
  /-- `signal` when somebody is blocked: one thread is woken. -/
  | notify (hcount : s'.count = s.count + 1) (hchecking : s'.checking = s.checking + 1)
      (hasleep : s'.asleep + 1 = s.asleep)

/-- No wake-up is lost: while a thread is blocked, as many are about to look as may pass. -/
def Sound (s : Semaphore) : Prop := 0 < s.asleep → s.count ≤ s.checking

variable {s s' : Semaphore}

/-- **Step** -/
theorem Sound.step (h : Sound s) (hstep : Step s s') : Sound s' := by
  unfold Sound at h ⊢
  -- only `pass` and `signal` could break it: one takes as much from both sides, the other
  -- finds nobody blocked
  cases hstep <;> omega

/-- If all threads in `wait` are blocked and there is one, nothing is left to pass with. -/
theorem Sound.count_eq_zero (h : Sound s) (hasleep : 0 < s.asleep) (hchecking : s.checking = 0) :
    s.count = 0 :=
  Nat.eq_zero_of_le_zero (hchecking ▸ h hasleep)

end Semaphore

end Epoller.Foundation
