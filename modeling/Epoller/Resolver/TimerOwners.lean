import Epoller.Resolver.Timeouts

/-!
# One Timeout for Each Request

The timeout of one request drops all those behind it, whose timers stay behind in
`Timers` with the addresses of events that are no more. Where timeouts drop their
own requests only, no timer is left behind: no request has two timeouts, and the copy
that is armed is always the one that was made last.

## Contents

- `LeavesAlone`: what the steps of such a run are
- `OneTimeout`, `Owned`: requests and timers belong together
- `oneTimeout_of_run`: one to one, in every such run
-/

namespace Epoller

open Foundation Query Timers

namespace TimedRequests

variable {resolver : RunnablePtr} {s s' : TimedRequests} {l : TimedStep} {ls : List TimedStep}

/-- A timeout drops its own request only, and a number is given to a new request when its last one
has left and no timeout of that one is under way. -/
def LeavesAlone (resolver : RunnablePtr) (s : TimedRequests) : TimedStep → Prop
  | .resolve _ name _ _ _ _ => name ∉ s.requests.impl.byName →
    ¬ s.Outstanding s.requests.impl.request ∧
      s.requests.impl.request ∉ s.timeouts resolver ++ s.running
  | .queryTimedout _ behind => behind = []
  | .requestComplete .. | .engine _ | .pop => True

instance (resolver : RunnablePtr) (s : TimedRequests) (l : TimedStep) :
    Decidable (LeavesAlone resolver s l) :=
  match l with
  | .resolve _ name _ _ _ _ => inferInstanceAs (Decidable (name ∉ s.requests.impl.byName →
      ¬ s.Outstanding s.requests.impl.request ∧
        s.requests.impl.request ∉ s.timeouts resolver ++ s.running))
  | .queryTimedout _ behind => inferInstanceAs (Decidable (behind = []))
  | .requestComplete .. | .engine _ | .pop => .isTrue trivial

/-- The timer of the request pends, or its timeout is under way, once. -/
def OneTimeout (resolver : RunnablePtr) (s : TimedRequests) (k : UInt16) : Prop :=
  (EngineTimers.IsPending s.engine.timers (resolver, s.node k) ∧
      (s.timeouts resolver ++ s.running).count k = 0) ∨
    (¬ EngineTimers.IsPending s.engine.timers (resolver, s.node k) ∧
      (s.timeouts resolver ++ s.running).count k = 1)

/-- A timer that pends is that of a request, and has the copy that is bound to its number. -/
def Owned (resolver : RunnablePtr) (s : TimedRequests) (event : TimerEvent TimerFunc) : Prop :=
  ∃ k, s.Outstanding k ∧ event = s.timeoutEvent resolver k

structure Matched (resolver : RunnablePtr) (s : TimedRequests) : Prop where
  one : ∀ k, s.Outstanding k → OneTimeout resolver s k
  owned : ∀ event ∈ s.engine.timers.eventObjs, event.obj = resolver → Owned resolver s event
  current : EngineTimers.CurrentFor resolver s.engine

theorem OneTimeout.of_eq {k : UInt16} (h : OneTimeout resolver s k)
    (hpending : EngineTimers.IsPending s'.engine.timers (resolver, s'.node k) ↔
      EngineTimers.IsPending s.engine.timers (resolver, s.node k))
    (hcount : (s'.timeouts resolver ++ s'.running).count k =
      (s.timeouts resolver ++ s.running).count k) : OneTimeout resolver s' k := by
  rwa [OneTimeout, hpending, hcount]

/-- At the address of a new request no timer is pending. -/
theorem Matched.not_rebinds (h : Matched resolver s) (halone : LeavesAlone resolver s l)
    (hstep : s.step resolver l = .ok s') : ¬ Rebinds resolver s l := by
  cases l with
  | resolve client name prefs timeout place r =>
    rintro ⟨hname, hstart, -⟩
    have haddress : s.address place = place := if_neg (halone hname).1
    have hplace : ¬ s.Taken place := by
      intro htaken
      simp only [step, if_pos htaken] at hstep
      cases hstep
    rw [haddress, ← map_key_startEvent] at hstart
    obtain ⟨event, hevent, hkey⟩ := Option.map_eq_some_iff.mp hstart
    obtain ⟨k, hk, rfl⟩ :=
      h.owned event (mem_eventObjs_of_startEvent hevent) (congrArg Prod.fst hkey)
    exact hplace ⟨k, AList.mem_keys.mpr hk, congrArg Prod.snd hkey⟩
  | requestComplete | engine | pop | queryTimedout => exact id

/-- **Step** -/
theorem matched_step (hdistinct : Distinct s) (h : Matched resolver s)
    (halone : LeavesAlone resolver s l) (hstep : s.step resolver l = .ok s') :
    Matched resolver s' := by
  have hinStep := hdistinct.ticking.1
  have hmoves := moves_of_step hdistinct.numbered hstep
  have hcurrent := hmoves.currentFor hinStep h.current (h.not_rebinds halone hstep)
  cases hmoves with
  | quiet hl hentries hnode hengine hqueued hrunning =>
    refine ⟨fun k hk => ?_, fun event hmem hobj => ?_, hcurrent⟩
    · rw [hentries] at hk
      refine (h.one k hk).of_eq ?_ (by rw [timeouts, hqueued, hrunning, timeouts])
      rw [hengine, hnode k hk]
    · rw [hengine] at hmem
      obtain ⟨k, hk, rfl⟩ := h.owned event hmem hobj
      exact ⟨k, (hentries k).mpr hk, by rw [timeoutEvent, timeoutEvent, hnode k hk]⟩
  | @start _ _ _ _ place _ _ hname hplace hentries hnode hengine hqueued hrunning =>
    obtain ⟨hnone, hunused⟩ := halone hname
    -- the number was free, so the new map node is nobody else's
    have hne : ∀ k, s.Outstanding k → k ≠ s.requests.impl.request := fun k hk heq =>
      hnone (heq ▸ hk)
    have hcopies := fun x => EngineTimers.mem_eventObjs_setTimer hinStep hengine (x := x)
    have hpending : ∀ e, EngineTimers.IsPending s'.engine.timers (resolver, e) ↔
        e = s.address place ∨ EngineTimers.IsPending s.engine.timers (resolver, e) := fun e =>
      (EngineTimers.isPending_of_put hcopies).trans (or_congr_left (by simp [TimerEvent.key]))
    refine ⟨fun k hk => ?_, fun event hmem hobj => ?_, hcurrent⟩
    · rcases (hentries k).mp hk with rfl | hold
      · left
        rw [hpending, hnode, Function.update_self, timeouts, hqueued, hrunning]
        exact ⟨.inl rfl, List.count_eq_zero.mpr hunused⟩
      · refine (h.one k hold).of_eq ?_ (by rw [timeouts, hqueued, hrunning, timeouts])
        rw [hpending, hnode, Function.update_of_ne (hne k hold),
          or_iff_right (hdistinct.node_ne_address hplace hold (hne k hold))]
    · rcases (hcopies event).mp hmem with rfl | ⟨hold, -⟩
      · refine ⟨s.requests.impl.request, (hentries _).mpr (.inl rfl), ?_⟩
        rw [timeoutEvent, hnode, Function.update_self]
      · obtain ⟨k, hk, rfl⟩ := h.owned event hold hobj
        refine ⟨k, (hentries k).mpr (.inr hk), ?_⟩
        rw [timeoutEvent, timeoutEvent, hnode, Function.update_of_ne (hne k hk)]
  | finish hfound hentries hnode hengine hqueued hrunning =>
    have hcopies := fun x => EngineTimers.mem_eventObjs_cancelTimer hinStep hengine (x := x)
    refine ⟨fun k hk => ?_, fun event hmem hobj => ?_, hcurrent⟩
    · obtain ⟨hne, hold⟩ := (hentries k).mp hk
      refine (h.one k hold).of_eq ?_ (by rw [timeouts, hqueued, hrunning, timeouts])
      rw [hnode, EngineTimers.isPending_of_drop hcopies]
      refine and_iff_right fun hkey => hne ?_
      exact hdistinct.apart _ _ hold hfound (congrArg Prod.snd hkey)
    · obtain ⟨hold, hkey⟩ := (hcopies event).mp hmem
      obtain ⟨k, hk, rfl⟩ := h.owned event hold hobj
      refine ⟨k, (hentries k).mpr ⟨fun heq => hkey ?_, hk⟩, ?_⟩
      · rw [timeoutEvent, heq, TimerEvent.key]
      · rw [timeoutEvent, timeoutEvent, hnode]
  | engine hforeign hengine =>
    rcases engine_timeouts hinStep hforeign hengine rfl with ⟨htimeouts, hcopies⟩ |
      ⟨event, hobj, htimeouts, hmem, hcopies⟩
    · refine ⟨fun k hk => (h.one k hk).of_eq (EngineTimers.isPending_congr hcopies) ?_,
        fun event hmem hobj => h.owned event ((hcopies event hobj).mp hmem) hobj, hcurrent⟩
      rw [htimeouts]
    · -- the event that is queued is the copy of an outstanding request
      obtain ⟨n, hn, rfl⟩ := h.owned event (hmem h.current) hobj
      have hnumber : (s.timeoutEvent resolver n).timeout? resolver = some n :=
        timeout?_eq_some_iff.mpr ⟨rfl, rfl⟩
      rw [hnumber, Option.toList_some] at htimeouts
      refine ⟨fun k hk => ?_, fun x hx hobj' => ?_, hcurrent⟩
      · by_cases heq : k = n
        · subst heq
          have hidle := (h.one k hk).resolve_right fun hgone =>
            hgone.1 (EngineTimers.isPending_iff.mpr ⟨_, hmem h.current, rfl⟩)
          right
          refine ⟨fun hstill => ((EngineTimers.isPending_of_drop hcopies).mp hstill).1 rfl, ?_⟩
          have hcount := hidle.2
          simp only [htimeouts, List.count_append, List.count_singleton_self] at hcount ⊢
          omega
        · refine (h.one k hk).of_eq ((EngineTimers.isPending_of_drop hcopies).trans ?_) ?_
          · refine and_iff_right fun hkey => heq ?_
            exact hdistinct.apart _ _ hk hn (congrArg Prod.snd hkey)
          · rw [htimeouts, List.append_assoc, List.count_append, List.singleton_append,
              List.count_cons_of_ne (Ne.symm heq), List.count_append]
      · exact h.owned x ((hcopies x).mp hx).1 hobj'
  | @pop event rest hqueued =>
    refine ⟨fun k hk => (h.one k hk).of_eq Iff.rfl ?_, h.owned, hcurrent⟩
    simp only [timeouts, hqueued, List.filterMap_cons]
    cases event.timeout? resolver with
    | none => simp
    | some n =>
      simp only [Option.toList_some, List.count_append, List.count_cons, List.count_nil]
      omega
  | queryTimedout hrunning hentries hothers =>
    refine ⟨fun k hk => ?_, fun event hmem hobj => ?_, hcurrent⟩
    · obtain ⟨hne, hold⟩ := hentries k hk
      refine (h.one k hold).of_eq Iff.rfl ?_
      simp only [timeouts, List.count_append, List.count_erase_of_ne hne]
    · obtain ⟨k, hk, rfl⟩ := h.owned event hmem hobj
      refine ⟨k, hothers halone k (fun heq => ?_) hk, rfl⟩
      -- a request whose timeout has run has no timer
      subst heq
      rcases h.one k hk with ⟨-, hcount⟩ | ⟨hnone, -⟩
      · exact List.count_eq_zero.mp hcount (List.mem_append_right _ hrunning)
      · exact hnone (EngineTimers.isPending_iff.mpr ⟨_, hmem, rfl⟩)

/-- **One timeout for each request**: in a run in which timeouts drop their own requests only and
numbers are not given away too early, the timer of each outstanding request pends or its timeout is
under way once, each timer of the resolver that pends has the event of an outstanding request, bound
to its number, and this is what is armed when it is the first timer. -/
theorem oneTimeout_of_run (hrun : runFrom (step resolver) init ls = .ok s)
    (halone : AllSteps (step resolver) (LeavesAlone resolver) init ls) :
    (∀ k, s.Outstanding k → OneTimeout resolver s k) ∧
      (∀ event ∈ s.engine.timers.eventObjs, event.obj = resolver → Owned resolver s event) ∧
      EngineTimers.CurrentFor resolver s.engine := by
  have hinit : Matched resolver init :=
    ⟨fun k hk => (by cases hk), fun event hmem => (by cases hmem),
      EngineTimers.currentFor_init resolver⟩
  have h := (AllSteps.invariant (fun s => Distinct s ∧ Matched resolver s)
    (fun h hl hstep => ⟨distinct_step h.1 hstep, matched_step h.1 h.2 hl hstep⟩)
    ⟨distinct_init, hinit⟩ halone hrun).2
  exact ⟨h.one, h.owned, h.current⟩

/-- Two calls, of which the first is answered before a third is made in its place; the timer of the
second expires. -/
def placeReused : List TimedStep :=
  [.resolve 1 [0x61] .Ipv4Only 10 5 ⟨0, 0, 0, 0⟩, .engine .setTimerTrigger,
    .engine .setTimerTrigger, .engine .setTimerTrigger,
    .resolve 2 [0x62] .Ipv4Only 10 6 ⟨1, 1, 1, 1⟩,
    .requestComplete 0 ⟨false, 0, [0x61], [], none, 0⟩ ⟨2, 2, 2, 2⟩, .engine .setTimerTrigger,
    .engine .setTimerTrigger, .engine .setTimerTrigger,
    .resolve 3 [0x63] .Ipv4Only 10 5 ⟨3, 3, 3, 3⟩, .engine .kernelExpire, .engine .epollWait,
    .engine (.handleTimerExpired ⟨11, 11, 11, 11⟩), .engine .setTimerTrigger,
    .engine .setTimerTrigger, .engine .setTimerTrigger]

/-- The entry of an answered request gives its place to the next one; the timeout of another is
under way. -/
theorem oneTimeout_place_reused : ∃ s, runFrom (step 9) init placeReused = .ok s ∧
    OneTimeout 9 s 1 ∧ OneTimeout 9 s 2 ∧
    (∀ event ∈ s.engine.timers.eventObjs, event.obj = 9 → Owned 9 s event) ∧
    s.engine.timerEvent = some (s.timeoutEvent 9 2) := by
  obtain ⟨s, hrun, hfirst, hsecond, hidle, hstart⟩ : ∃ s,
      runFrom (step 9) init placeReused = .ok s ∧ s.Outstanding 1 ∧ s.Outstanding 2 ∧
      s.engine.arming = none ∧
      s.engine.timers.startEvent = some (s.timeoutEvent 9 2) := by
    decide +kernel
  obtain ⟨hone, howned, hcurrent⟩ := oneTimeout_of_run hrun (by decide +kernel)
  exact ⟨s, hrun, hone 1 hfirst, hone 2 hsecond, howned, hcurrent hidle _ hstart rfl⟩

end TimedRequests

end Epoller
