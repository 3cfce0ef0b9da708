import Epoller.Timers.Coupling

/-!
# The Armed Timer and the First Deadline

`armTimer` is called whenever the first entry changes its owner or its event. The
last request then asks for the deadline of the first entry, unless a `setTimer`
moved the timer at the front and it stayed there: the comparison of the first
entries does not see their deadlines.

- `Armed`, `Armed.step`: the containers and the last request
- `Tracks`: the last request is for the first deadline
- `MovesFirst`: the calls that leave the armed timer behind
- `tracks_of_run`, `tracks_iff_of_movesFirst`: the runs that track, and why the others do not
-/

namespace Epoller

open Foundation Timers

universe u

variable {φ : Type u}

/-- The containers, and the last call of `armTimer` with the reading of the clock it was computed
from. -/
structure Armed (φ : Type u) where
  timers : Timers φ
  request : Option (ArmRequest φ × TimePointNs)
deriving DecidableEq

namespace Armed

/-- No timer is pending and `armTimer` has not been called. -/
def init : Armed φ := ⟨.empty, none⟩

/-- One call. -/
def step (s : Armed φ) (call : TimersCall φ) : Except TimersAssertion (Armed φ) := do
  let outcome ← s.timers.apply call
  .ok ⟨outcome.timers,
    (outcome.request.map fun request => (request, call.readings.trigger)).or s.request⟩

/-- The last request names the event of the first entry, by its owner and its address, and asks for
its deadline, or for the next nanosecond if the deadline had passed; without an entry it is the
disarm request. -/
structure Tracks (s : Armed φ) : Prop where
  first : ∀ p, s.timers.first? = some p → ∃ now what,
    s.request = some (⟨some what, max 1 (p.deadline - now)⟩, now) ∧ what.key = p.key
  disarmed : s.timers.first? = none → ∀ q, s.request = some q → q.1 = ⟨none, 0⟩

/-- The call moves the timer of the first entry to a deadline at which it stays the first. -/
def MovesFirst (t : Timers φ) : TimersCall φ → Prop
  | .setTimer (some owner) timer _ timeout r =>
    t.getStartEvent = some (owner, timer) ∧
      t.deadline? (owner, timer) ≠ some (r.now + timeout) ∧
      ∀ p ∈ (t.without (owner, timer)).dateTriples, r.now + timeout < p.deadline
  | _ => False

instance (t : Timers φ) (call : TimersCall φ) : Decidable (MovesFirst t call) :=
  match call with
  | .setTimer (some owner) timer _ timeout r =>
    inferInstanceAs (Decidable (t.getStartEvent = some (owner, timer) ∧
      t.deadline? (owner, timer) ≠ some (r.now + timeout) ∧
      ∀ p ∈ (t.without (owner, timer)).dateTriples, r.now + timeout < p.deadline))
  | .setTimer none _ _ _ _ | .cancelTimer _ _ _ | .cancelAllTimers _ _ | .handleTimerExpired _ =>
    inferInstanceAs (Decidable False)

/-! ## One Call -/

variable {t t' : Timers φ}

theorem tracks_setTrigger (t : Timers φ) (now : TimePointNs) :
    Tracks ⟨t, some (t.setTrigger now, now)⟩ := by
  refine ⟨fun p hp => ?_, fun hnone q hq => ?_⟩
  · obtain ⟨e, hbegin, rfl⟩ := Option.map_eq_some_iff.mp hp
    refine ⟨now, e.2.eventObj, ?_, rfl⟩
    simp only [setTrigger, hbegin]
    rfl
  · cases hq
    rw [first?, Option.map_eq_none_iff] at hnone
    simp only [setTrigger, hnone]

/-- Re-arming on a change of owner or event is enough where such a first entry that keeps both
keeps its deadline. -/
theorem Tracks.retrigger {request : Option (ArmRequest φ × TimePointNs)} (h : Tracks ⟨t, request⟩)
    (now : TimePointNs) (hsame : t.getStartEvent = t'.getStartEvent → t'.first? = t.first?) :
    Tracks ⟨t', ((retrigger t t' now).map fun q => (q, now)).or request⟩ := by
  unfold Timers.retrigger
  split
  · exact tracks_setTrigger t' now
  -- no request is made, and the old one still fits the first entry
  · rename_i heq
    have hfirst := hsame (not_not.mp heq)
    exact ⟨fun p hp => h.first p (hfirst ▸ hp), fun hnone => h.disarmed (hfirst ▸ hnone)⟩

/-- Removing timers moves no deadline. -/
theorem first?_of_subset (h : Coupled t) (hsub : ∀ p ∈ t'.dateTriples, p ∈ t.dateTriples)
    (hstart : t.getStartEvent = t'.getStartEvent) : t'.first? = t.first? :=
  h.first?_eq_of_mem hstart fun p hp => hsub p (first?_eq_some_iff.mp hp).1

/-- A `setTimer` that moves no first timer keeps the first deadline if it keeps the first key. -/
theorem first?_put (h : Coupled t) {owner : RunnablePtr} {timer : EventPtr} {func : φ}
    {timeout : NanoSecs} {r : Readings} (hfree : (t.without (owner, timer)).Free (r.now + timeout))
    (hmoves : ¬ MovesFirst t (.setTimer (some owner) timer func timeout r))
    (hstart : t.getStartEvent = (t.put ⟨owner, timer, r.now + timeout⟩ func).getStartEvent) :
    (t.put ⟨owner, timer, r.now + timeout⟩ func).first? = t.first? := by
  refine h.first?_eq_of_mem hstart fun p hp => ?_
  obtain ⟨hmem, hleast⟩ := first?_eq_some_iff.mp hp
  rcases (mem_dateTriples_put hfree).mp hmem with rfl | ⟨hmem, -⟩
  · -- the timer that was set is the first one, before and after
    by_contra hnew
    refine hmoves ⟨?_, fun hdeadline => ?_, fun q hq => ?_⟩
    · rw [hstart, getStartEvent_eq, hp]
      rfl
    · exact hnew (h.deadline?_eq_some_iff.mp hdeadline)
    · obtain ⟨hmem, hqkey⟩ := mem_dateTriples_without.mp hq
      exact hleast q ((mem_dateTriples_put hfree).mpr (Or.inr ⟨hmem, hqkey⟩))
        fun heq => hqkey (congrArg Pending.key heq)
  · -- the first timer is another one, which the call left where it was
    exact hmem

/-- **Step**: a call that does not move the first timer in place keeps the request on track. -/
theorem Tracks.step {s s' : Armed φ} {call : TimersCall φ} (hcoupled : Coupled s.timers)
    (h : Tracks s) (hmoves : ¬ MovesFirst s.timers call) (hstep : s.step call = .ok s') :
    Coupled s'.timers ∧ Tracks s' := by
  obtain ⟨outcome, happly, hs'⟩ := bind_eq_ok_iff.mp hstep
  cases hs'
  have heffect := hcoupled.effect_of_apply happly
  refine ⟨hcoupled.effect heffect, ?_⟩
  cases heffect with
  | setDead | cancelDead => exact h
  | set owner timer func timeout r hfree =>
    exact h.retrigger r.trigger (first?_put hcoupled hfree hmoves)
  | cancel owner timer r =>
    exact h.retrigger r.trigger
      (first?_of_subset hcoupled fun p hp => (mem_dateTriples_without.mp hp).1)
  | cancelAll what r =>
    exact h.retrigger r.trigger
      (first?_of_subset hcoupled fun p hp => (mem_dateTriples_keep.mp hp).1)
  -- an expiry always arms again
  | expired r e hfirst => exact tracks_setTrigger _ r.trigger

/-- Requests for two deadlines agree when both deadlines had passed. -/
theorem max_sub_eq_iff {old new now : ℤ} (hne : old ≠ new) :
    max 1 (old - now) = max 1 (new - now) ↔ old ≤ now + 1 ∧ new ≤ now + 1 := by
  omega

/-- After a call that moves the first timer in place, the request, computed from the reading `now`,
is on track only if neither deadline was still ahead of it. -/
theorem tracks_iff_of_movesFirst {s s' : Armed φ} {owner : RunnablePtr} {timer : EventPtr}
    {func : φ} {timeout : NanoSecs} {r : Readings} {request : ArmRequest φ} {now old : TimePointNs}
    (hcoupled : Coupled s.timers) (h : Tracks s)
    (hmoves : MovesFirst s.timers (.setTimer (some owner) timer func timeout r))
    (hrequest : s.request = some (request, now))
    (hold : s.timers.deadline? (owner, timer) = some old)
    (hstep : s.step (.setTimer (some owner) timer func timeout r) = .ok s') :
    Tracks s' ↔ old ≤ now + 1 ∧ r.now + timeout ≤ now + 1 := by
  obtain ⟨outcome, happly, hs'⟩ := bind_eq_ok_iff.mp hstep
  cases hs'
  obtain ⟨hstart, hne, hleast⟩ := hmoves
  cases hcoupled.effect_of_apply happly with
  | set _ _ _ _ _ hfree =>
    -- the moved timer is the first one before the call and after it
    have hfirst : s.timers.first? = some ⟨owner, timer, old⟩ := by
      rw [getStartEvent_eq] at hstart
      obtain ⟨p, hp, hkey⟩ := Option.map_eq_some_iff.mp hstart
      rw [hp, hcoupled.eq_of_key_eq (first?_eq_some_iff.mp hp).1
        (hcoupled.deadline?_eq_some_iff.mp hold) hkey]
    have hfirst' : (s.timers.put ⟨owner, timer, r.now + timeout⟩ func).first? =
        some ⟨owner, timer, r.now + timeout⟩ := by
      refine first?_eq_some_iff.mpr ⟨(mem_dateTriples_put hfree).mpr (Or.inl rfl), ?_⟩
      intro q hq hqne
      obtain hmem := ((mem_dateTriples_put hfree).mp hq).resolve_left hqne
      exact hleast q (mem_dateTriples_without.mpr hmem)
    -- the first entry keeps its owner and its event, so nothing is armed
    have hkept : retrigger s.timers (s.timers.put ⟨owner, timer, r.now + timeout⟩ func) r.trigger =
        none := by
      rw [Timers.retrigger, if_neg]
      rw [getStartEvent_eq, getStartEvent_eq, hfirst, hfirst']
      simp [Pending.key]
    obtain ⟨now', what, hnow', hkey⟩ := h.first _ hfirst
    rw [hrequest] at hnow'
    simp only [Option.some.injEq, Prod.mk.injEq] at hnow'
    obtain ⟨rfl, rfl⟩ := hnow'
    have hne' : old ≠ r.now + timeout := fun heq => hne (hold.trans (congrArg some heq))
    -- the request kept is right when it asks for the same delay as the new deadline would
    rw [← max_sub_eq_iff hne']
    constructor
    · intro htracks
      obtain ⟨now', what', hnow', -⟩ := htracks.first _ hfirst'
      simp only [hkept, Option.map_none, Option.none_or, hrequest, Option.some.injEq,
        Prod.mk.injEq, ArmRequest.mk.injEq] at hnow'
      obtain ⟨⟨-, hwhen⟩, rfl⟩ := hnow'
      exact hwhen
    · intro hwhen
      refine ⟨fun p hp => ?_, fun hnone => ?_⟩
      · cases hfirst'.symm.trans hp
        exact ⟨now, what, by simp only [hkept, Option.map_none, Option.none_or, hrequest, hwhen],
          hkey⟩
      · cases hfirst'.symm.trans hnone

/-! ## Runs -/

/-- The readings of the clock during the calls do not decrease, in the order in which `Readings`
takes them to be made. -/
def Chronological (calls : List (TimersCall φ)) : Prop :=
  ((calls.map TimersCall.readings).flatMap fun r =>
    [r.now, r.removed, r.counted, r.trigger]).Pairwise (· ≤ ·)

instance (calls : List (TimersCall φ)) : Decidable (Chronological calls) :=
  inferInstanceAs (Decidable (List.Pairwise _ _))

/-- **The armed timer tracks the first deadline** after every run in which no call moves the first
timer to a deadline at which it stays the first. -/
theorem tracks_of_run {calls : List (TimersCall φ)} {s : Armed φ}
    (hmoves : AllSteps step (fun s call => ¬ MovesFirst s.timers call) init calls)
    (hrun : runFrom step init calls = .ok s) : Tracks s := by
  have hinit : Coupled (init : Armed φ).timers ∧ Tracks (init : Armed φ) :=
    ⟨coupled_empty, ⟨fun p hp => (by cases hp), fun _ q hq => (by cases hq)⟩⟩
  exact (AllSteps.invariant (fun s => Coupled s.timers ∧ Tracks s)
    (fun hinv hC hs => hinv.2.step hinv.1 hC hs) hinit hmoves hrun).2

/-- A second timer is set, to expire before the first. -/
theorem tracks_earlier_timer :
    ∃ s, runFrom step init [.setTimer (some 1) 10 'a' 100 ⟨0, 0, 0, 0⟩,
        .setTimer (some 2) 20 'b' 50 ⟨5, 5, 5, 6⟩] = .ok s ∧ Tracks s ∧
      s.request = some (⟨some ⟨2, 20, 'b'⟩, 49⟩, 6) := by
  obtain ⟨s, hrun⟩ : ∃ s, runFrom step init [.setTimer (some 1) 10 'a' 100 ⟨0, 0, 0, 0⟩,
      .setTimer (some 2) 20 'b' 50 ⟨5, 5, 5, 6⟩] = .ok s := ⟨_, rfl⟩
  refine ⟨s, hrun, tracks_of_run (by decide) hrun, ?_⟩
  cases hrun
  decide

/-- The inactivity timer of a stream is set to a minute, and half a minute later again: the request
stays at the first minute. -/
theorem not_tracks_reset_timer :
    ¬ ∀ (calls : List (TimersCall Char)) s, Chronological calls →
      runFrom step init calls = .ok s → Tracks s := by
  intro h
  obtain ⟨s, hrun⟩ : ∃ s, runFrom step init [.setTimer (some 1) 10 'a' 60 ⟨0, 0, 0, 0⟩,
      .setTimer (some 1) 10 'a' 60 ⟨30, 30, 30, 30⟩] = .ok s := ⟨_, rfl⟩
  obtain ⟨now, what, hnow, -⟩ :=
    (h _ _ (by decide) hrun).first ⟨1, 10, 90⟩ (by cases hrun; decide)
  have hrequest : s.request = some (⟨some ⟨1, 10, 'a'⟩, 60⟩, 0) := by cases hrun; decide
  rw [hrequest] at hnow
  simp only [Option.some.injEq, Prod.mk.injEq, ArmRequest.mk.injEq] at hnow
  obtain ⟨⟨-, hwhen⟩, rfl⟩ := hnow
  exact absurd hwhen (by decide)

end Armed

end Epoller
