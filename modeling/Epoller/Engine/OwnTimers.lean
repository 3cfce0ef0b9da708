import Epoller.Engine.FiringOrder

/-!
# The Timers of One Owner

The engine as one owner of timers sees it. Its own calls make a copy of an event or
drop one; the steps of others leave its copies alone, unless one of its timers
expires: then an event of it is queued, which is the copy that was made last as long
as the owner sets no first timer again with another callable.

## Contents

- `IsForeign`: the steps of others
- `mem_eventObjs_setTimer`, `mem_eventObjs_cancelTimer`: the calls of the owner
- `foreign_step`: the steps of others
-/

namespace Epoller

open Foundation Timers

universe u

variable {φ : Type u}

/-- The step is no call for a timer of this owner. -/
def EngineStep.IsForeign (what : RunnablePtr) : EngineStep φ → Prop
  | .setTimer owner .. | .cancelTimer owner .. => owner ≠ some what
  | .add what' | .eraseFromHash what' | .cancelAllTimers what' _ => what' ≠ what
  | .setTimerTrigger | .handleTimerExpired _ | .epollWait | .kernelExpire | .tick _ => True

instance (what : RunnablePtr) (l : EngineStep φ) : Decidable (l.IsForeign what) :=
  match l with
  | .setTimer .. | .cancelTimer .. => inferInstanceAs (Decidable (_ ≠ _))
  | .add _ | .eraseFromHash _ | .cancelAllTimers .. => inferInstanceAs (Decidable (_ ≠ _))
  | .setTimerTrigger | .handleTimerExpired _ | .epollWait | .kernelExpire | .tick _ =>
    .isTrue trivial

namespace EngineTimers

variable {s s' : EngineTimers φ} {l : EngineStep φ} {what : RunnablePtr} {timer : EventPtr}

/-! ## Copies -/

/-- A timer is pending when there is a copy of its event. -/
theorem isPending_iff {t : Timers φ} {k : RunnablePtr × EventPtr} :
    IsPending t k ↔ ∃ x ∈ t.eventObjs, x.key = k := by
  have hkeys : IsPending t k ↔ k ∈ t.dateTriples.map Pending.key := List.mem_map.symm
  rw [hkeys, ← map_key_eventObjs, List.mem_map]

theorem isPending_congr {t t' : Timers φ}
    (h : ∀ x, x.obj = what → (x ∈ t'.eventObjs ↔ x ∈ t.eventObjs)) :
    IsPending t' (what, timer) ↔ IsPending t (what, timer) := by
  rw [isPending_iff, isPending_iff]
  refine exists_congr fun x => ⟨fun hx => ⟨?_, hx.2⟩, fun hx => ⟨?_, hx.2⟩⟩
  · exact (h x (congrArg Prod.fst hx.2)).mp hx.1
  · exact (h x (congrArg Prod.fst hx.2)).mpr hx.1

/-- With its copy a timer goes. -/
theorem isPending_of_drop {t t' : Timers φ} {k k' : RunnablePtr × EventPtr}
    (h : ∀ x, x ∈ t'.eventObjs ↔ x ∈ t.eventObjs ∧ x.key ≠ k') :
    IsPending t' k ↔ k ≠ k' ∧ IsPending t k := by
  simp only [isPending_iff, h]
  constructor
  · rintro ⟨x, ⟨hx, hne⟩, rfl⟩
    exact ⟨hne, x, hx, rfl⟩
  · rintro ⟨hne, x, hx, rfl⟩
    exact ⟨x, ⟨hx, hne⟩, rfl⟩

/-- With a copy made anew its timer is pending. -/
theorem isPending_of_put {t t' : Timers φ} {event : TimerEvent φ} {k : RunnablePtr × EventPtr}
    (h : ∀ x, x ∈ t'.eventObjs ↔ x = event ∨ x ∈ t.eventObjs ∧ x.key ≠ event.key) :
    IsPending t' k ↔ k = event.key ∨ IsPending t k := by
  simp only [isPending_iff, h]
  constructor
  · rintro ⟨x, rfl | ⟨hx, -⟩, rfl⟩
    · exact .inl rfl
    · exact .inr ⟨x, hx, rfl⟩
  · rintro (rfl | ⟨x, hx, rfl⟩)
    · exact ⟨event, .inl rfl, rfl⟩
    · by_cases hkey : x.key = event.key
      · exact ⟨event, .inl rfl, hkey.symm⟩
      · exact ⟨x, .inr ⟨hx, hkey⟩, rfl⟩

/-- Calls queue nothing. -/
theorem enqueued_of_call {call : TimersCall φ} (hcall : call? l = some call)
    (hstep : s.step l = .ok s') : s'.enqueued = s.enqueued := by
  cases moves_of_step hstep with
  | call => rfl
  | hash eventHash removing hnone => cases hcall.symm.trans hnone
  | arm | stale | fire | epollWait | kernelExpire | tick => cases hcall

/-- The owner sets a timer: its copy is made anew. -/
theorem mem_eventObjs_setTimer (h : InStep s) {func : φ} {timeout : NanoSecs} {r : Readings}
    (hstep : s.step (.setTimer (some what) timer func timeout r) = .ok s') {x : TimerEvent φ} :
    x ∈ s'.timers.eventObjs ↔
      x = ⟨what, timer, func⟩ ∨ x ∈ s.timers.eventObjs ∧ x.key ≠ (what, timer) := by
  obtain ⟨-, -, outcome, happly, rfl⟩ := locked_eq_ok_iff.mp hstep
  cases h.coupled.effect_of_apply happly with
  | set _ _ _ _ _ hfree => exact mem_eventObjs_put hfree

/-- The owner cancels a timer: its copy goes. -/
theorem mem_eventObjs_cancelTimer (h : InStep s) {r : Readings}
    (hstep : s.step (.cancelTimer (some what) timer r) = .ok s') {x : TimerEvent φ} :
    x ∈ s'.timers.eventObjs ↔
      x ∈ s.timers.eventObjs ∧ x.key ≠ (what, timer) := by
  obtain ⟨-, -, outcome, happly, rfl⟩ := locked_eq_ok_iff.mp hstep
  cases h.coupled.effect_of_apply happly with
  | cancel => exact mem_eventObjs_without

/-- The calls of others leave the copies of an owner alone. -/
theorem mem_eventObjs_foreign {t : Timers φ} {call : TimersCall φ} {outcome : Outcome φ}
    (heffect : Effect t call outcome) (hcall : call? l = some call) (hforeign : l.IsForeign what)
    {x : TimerEvent φ} (hx : x.obj = what) : x ∈ outcome.timers.eventObjs ↔ x ∈ t.eventObjs := by
  cases heffect with
  | setDead | cancelDead => exact Iff.rfl
  | set owner timer func timeout r hfree =>
    have howner : owner ≠ what := by
      cases l <;> cases hcall
      exact fun heq => hforeign (congrArg some heq)
    rw [mem_eventObjs_put hfree, or_iff_right, and_iff_left]
    · exact fun hkey => howner ((congrArg Prod.fst hkey).symm.trans hx)
    · rintro rfl
      exact howner hx
  | cancel owner timer r =>
    have howner : owner ≠ what := by
      cases l <;> cases hcall
      exact fun heq => hforeign (congrArg some heq)
    rw [mem_eventObjs_without, and_iff_left]
    exact fun hkey => howner ((congrArg Prod.fst hkey).symm.trans hx)
  | cancelAll owner r =>
    have howner : owner ≠ what := by
      cases l <;> cases hcall
      exact hforeign
    refine (mem_eventObjs_keep (q := fun k => k.1 ≠ owner) fun _ => Iff.rfl).trans ?_
    exact and_iff_left fun hkey => howner (hkey.symm.trans hx)
  | expired => cases l <;> cases hcall

/-- **Steps of others**: the copies of an owner stay, and no event of it is queued; or one of its
timers expires. -/
theorem foreign_step (h : InStep s) (hforeign : l.IsForeign what) (hstep : s.step l = .ok s') :
    (∃ new, s'.enqueued = s.enqueued ++ new ∧ (∀ x ∈ new, x.obj ≠ what) ∧
      ∀ x, x.obj = what → (x ∈ s'.timers.eventObjs ↔ x ∈ s.timers.eventObjs)) ∨
    ∃ event, event.obj = what ∧ s'.enqueued = s.enqueued ++ [event] ∧
      (CurrentFor what s → event ∈ s.timers.eventObjs) ∧
      ∀ x, x ∈ s'.timers.eventObjs ↔ x ∈ s.timers.eventObjs ∧ x.key ≠ event.key := by
  have hquiet (henqueued : s'.enqueued = s.enqueued) (htimers : s'.timers = s.timers) :
      ∃ new, s'.enqueued = s.enqueued ++ new ∧ (∀ x ∈ new, x.obj ≠ what) ∧
        ∀ x, x.obj = what → (x ∈ s'.timers.eventObjs ↔ x ∈ s.timers.eventObjs) :=
    ⟨[], by simpa using henqueued, by simp, fun x _ => by rw [htimers]⟩
  have hfire := fun r (hl : l = .handleTimerExpired r) => h.fire (r := r) (hl ▸ hstep)
  cases moves_of_step hstep with
  | call removing hcall hfree hfollow happly =>
    have heffect := h.coupled.effect_of_apply happly
    exact .inl ⟨[], by simp, by simp, fun x hx => mem_eventObjs_foreign heffect hcall hforeign hx⟩
  | @arm a => exact .inl (hquiet (setTimerTrigger_enqueued s a) (setTimerTrigger_timers s a))
  | @fire r =>
    rcases hfire r rfl with ⟨henqueued, htimers⟩ | ⟨e, event, hbegin, hfree, hevent, hkey,
      henqueued, htimers⟩
    · exact .inl (hquiet henqueued htimers)
    · have hkey' : (Pending.ofDate e).key = event.key := hkey.symm
      have hmem : e.2.eventObj ∈ s.timers.eventObjs :=
        List.mem_map_of_mem (SortedMap.begin?_eq_some_iff.mp hbegin).1
      have hcopies : ∀ x, x ∈ (s.timers.without event.key).eventObjs ↔
          x ∈ s.timers.eventObjs ∧ x.key ≠ event.key := fun x => mem_eventObjs_without
      rw [hkey'] at htimers
      by_cases hobj : event.obj = what
      · refine .inr ⟨event, hobj, henqueued, fun hcurrent => ?_, htimers ▸ hcopies⟩
        -- a copy that is current is the one of the first entry
        have hstart : s.timers.startEvent = some e.2.eventObj := by
          rw [startEvent, hbegin]
          rfl
        have hobj' : e.2.eventObj.obj = what := (congrArg Prod.fst hkey).symm.trans hobj
        have hcopy := hcurrent hfree _ hstart hobj'
        rw [hevent] at hcopy
        rwa [Option.some.inj hcopy]
      · refine .inl ⟨[event], henqueued, by simpa using hobj, fun x hx => ?_⟩
        rw [htimers, hcopies, and_iff_left]
        exact fun heq => hobj ((congrArg Prod.fst heq).symm.trans hx)
  | stale | hash | epollWait | kernelExpire | tick => exact .inl (hquiet rfl rfl)

/-- Steps of others keep the copies of an owner current. -/
theorem currentFor_foreign (h : InStep s) (hcurrent : CurrentFor what s)
    (hforeign : l.IsForeign what) (hstep : s.step l = .ok s') : CurrentFor what s' := by
  refine currentFor_step h hcurrent ?_ hstep
  rintro timer func timeout r rfl
  exact absurd rfl hforeign

end EngineTimers

end Epoller
