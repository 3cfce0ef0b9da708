import Epoller.Timers.Coupling

/-!
# Timers as a Map of Deadlines

What `Timers` is for: it remembers one deadline for each pair of an owner and an
event. Every run of the operations that traps nowhere is a run of that map.

- `Deadlines`, `Deadlines.Step`: the map and what each call does to it
- `Timers.deadline?`: the map that the containers hold
- `Timers.run_refines`: the simulation
-/

namespace Epoller

open Foundation

universe u

variable {φ : Type u}

/-- The deadlines of the pending timers. -/
abbrev Deadlines := RunnablePtr × EventPtr → Option TimePointNs

/-- What a call does to the deadlines. -/
inductive Deadlines.Step (a : Deadlines) : TimersCall φ → Deadlines → Prop where
  | setDead (timer : EventPtr) (func : φ) (timeout : NanoSecs) (r : Readings) :
      Step a (.setTimer none timer func timeout r) a
  /-- Insert or overwrite one key. -/
  | set (owner : RunnablePtr) (timer : EventPtr) (func : φ) (timeout : NanoSecs) (r : Readings) :
      Step a (.setTimer (some owner) timer func timeout r)
        (Function.update a (owner, timer) (some (r.now + timeout)))
  | cancelDead (timer : EventPtr) (r : Readings) : Step a (.cancelTimer none timer r) a
  /-- Remove one key. -/
  | cancel (owner : RunnablePtr) (timer : EventPtr) (r : Readings) :
      Step a (.cancelTimer (some owner) timer r) (Function.update a (owner, timer) none)
  /-- Remove the keys of one owner. -/
  | cancelAll (what : RunnablePtr) (r : Readings) :
      Step a (.cancelAllTimers what r) fun k => if k.1 = what then none else a k
  /-- Remove the key with the smallest deadline. -/
  | expired (r : Readings) (k : RunnablePtr × EventPtr) (d : TimePointNs) (hk : a k = some d)
      (hleast : ∀ k' d', a k' = some d' → k' ≠ k → d < d') :
      Step a (.handleTimerExpired r) (Function.update a k none)

namespace Timers

variable {t : Timers φ}

theorem Coupled.deadline?_keep (h : Coupled t) (p : Pending → Prop) [DecidablePred p]
    {q : RunnablePtr × EventPtr → Prop} [DecidablePred q] (hpq : ∀ x, p x ↔ ¬ q x.key) :
    (t.keep p).deadline? = fun k => if q k then none else t.deadline? k := by
  funext k
  apply Option.ext
  intro d
  rw [h.keep.deadline?_eq_some_iff, mem_dateTriples_keep, hpq, ← h.deadline?_eq_some_iff]
  by_cases hk : q k <;> simp [Pending.key, hk]

theorem Coupled.deadline?_without (h : Coupled t) (k : RunnablePtr × EventPtr) :
    (t.without k).deadline? = Function.update t.deadline? k none := by
  rw [Timers.without, h.deadline?_keep (fun p => p.key ≠ k) (q := fun k' => k' = k) (by simp)]
  funext k'
  simp [Function.update_apply]

theorem Coupled.deadline?_put (h : Coupled t) {p : Pending} {func : φ}
    (hfree : (t.without p.key).Free p.deadline) :
    (t.put p func).deadline? = Function.update t.deadline? p.key (some p.deadline) := by
  funext k
  apply Option.ext
  intro d
  rw [(h.put hfree).deadline?_eq_some_iff, mem_dateTriples_put hfree, ← h.deadline?_eq_some_iff,
    Function.update_apply]
  by_cases hk : k = p.key
  · subst hk
    simp [Pending.key, Pending.ext_iff, eq_comm]
  -- the other keys keep their deadlines
  · have hne : (⟨k.1, k.2, d⟩ : Pending) ≠ p := fun heq => hk (congrArg Pending.key heq)
    have hkey : (⟨k.1, k.2, d⟩ : Pending).key ≠ p.key := hk
    simp [hk, hne, hkey]

/-- **Step**: an operation does to the map what its abstract counterpart does. -/
theorem Coupled.deadline?_step (h : Coupled t) {call : TimersCall φ} {t' : Timers φ}
    (hstep : t.step call = .ok t') : Deadlines.Step t.deadline? call t'.deadline? := by
  obtain ⟨outcome, happly, rfl⟩ := step_eq_ok_iff.mp hstep
  cases h.effect_of_apply happly with
  | setDead timer func timeout r => exact .setDead timer func timeout r
  | set owner timer func timeout r hfree =>
    rw [h.deadline?_put (p := ⟨owner, timer, r.now + timeout⟩) hfree]
    exact .set owner timer func timeout r
  | cancelDead timer r => exact .cancelDead timer r
  | cancel owner timer r =>
    rw [h.deadline?_without]
    exact .cancel owner timer r
  | cancelAll what r =>
    change Deadlines.Step _ _ (t.keep fun p => p.owner ≠ what).deadline?
    rw [h.deadline?_keep (fun p => p.owner ≠ what) (q := fun k => k.1 = what) fun x => Iff.rfl]
    exact .cancelAll what r
  | expired r e hfirst =>
    -- the first entry of the map has the smallest deadline
    obtain ⟨hmem, hleast⟩ := SortedMap.begin?_eq_some_iff.mp hfirst
    rw [h.deadline?_without]
    refine .expired r _ e.1 (h.deadline?_eq_some_iff.mpr (List.mem_map_of_mem hmem)) ?_
    intro k' d' hk' hne
    obtain ⟨e', he', heq⟩ := List.mem_map.mp (h.deadline?_eq_some_iff.mp hk')
    have hdeadline : e'.1 = d' := congrArg Pending.deadline heq
    exact hdeadline ▸ hleast e' he' fun hee => hne (hee ▸ (congrArg Pending.key heq).symm)

/-- **Refinement**: a run of the operations that traps nowhere is a run of the map of deadlines,
and both containers hold that map. -/
theorem run_refines {calls : List (TimersCall φ)} (hrun : runFrom step empty calls = .ok t) :
    AbsRun Deadlines.Step (fun _ => none) calls t.deadline? ∧
      (∀ k d, t.deadline? k = some d ↔ ⟨k.1, k.2, d⟩ ∈ t.dateTriples) ∧
      ∀ k d, t.deadline? k = some d ↔ ⟨k.1, k.2, d⟩ ∈ t.ownerTriples := by
  have h := coupled_of_run hrun
  refine ⟨?_, fun k d => h.deadline?_eq_some_iff, fun k d => ?_⟩
  · exact runFrom_simulates Coupled deadline?
      (fun hs hstep => ⟨hs.step hstep, hs.deadline?_step hstep⟩) coupled_empty hrun
  · rw [h.deadline?_eq_some_iff, h.mem_owner_iff]

/-- A timer is set, moved, and a second one cancelled. -/
theorem run_refines_moved_timer :
    ∃ t, runFrom step empty [.setTimer (some 1) 10 'a' 100 ⟨0, 0, 0, 0⟩,
        .setTimer (some 2) 20 'b' 70 ⟨3, 3, 4, 4⟩, .setTimer (some 1) 10 'a' 50 ⟨5, 5, 5, 5⟩,
        .cancelTimer (some 2) 20 ⟨6, 6, 6, 6⟩] = .ok t ∧
      AbsRun Deadlines.Step (fun _ => none) [.setTimer (some 1) 10 'a' 100 ⟨0, 0, 0, 0⟩,
        .setTimer (some 2) 20 'b' 70 ⟨3, 3, 4, 4⟩, .setTimer (some 1) 10 'a' 50 ⟨5, 5, 5, 5⟩,
        .cancelTimer (some 2) 20 ⟨6, 6, 6, 6⟩] t.deadline? ∧
      t.deadline? (1, 10) = some 55 :=
  ⟨_, rfl, (run_refines rfl).1, by decide⟩

end Timers

end Epoller
