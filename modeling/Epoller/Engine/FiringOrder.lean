import Epoller.Engine.TimerTrigger
import Epoller.Foundation.LeadsTo

/-!
# The Order in Which Timers Fire

What the kernel and the epoll thread do with the pending timers as long as nobody
sets or cancels one. A timer is never forgotten: while one is pending and
`timerLock` is free, an expiry has been reported to the epoll thread, or the
kernel is to report one.

## Contents

- `Served`, `served_step`: the kernel timer behind a pending timer
- `firing`, `copies`: what was queued and what is pending, in order
- `Drives`: the steps that are needed
- `leadsTo_settled`, `leadsTo_notified`, `exists_fired`: the parts of a round
- `work_step`, `exists_drives`: these steps come to an end, and not before all timers have expired
- `drains_of_run`: all pending timers fire, by their deadlines
-/

namespace Epoller.EngineTimers

open Foundation Timers

universe u

variable {φ : Type u} {s s' : EngineTimers φ} {l : EngineStep φ} {ls ms : List (EngineStep φ)}

/-! ## The Kernel Timer -/

/-- Behind `timerEvent` there is an expiry: reported, or one that epoll is to report. -/
structure Served (s : EngineTimers φ) : Prop where
  free : s.arming = none → s.timerEvent ≠ none →
    s.notified = true ∨
      (s.timerFd.interest = true ∧ (s.timerFd.readable = true ∨ s.timerFd.expiry ≠ none))
  /-- The registration that `epoll_ctl` has armed is disarmed only by a report. -/
  settime : ∀ a, s.arming = some a → a.phase = .settime →
    s.notified = true ∨ s.timerFd.interest = true

theorem served_init : Served (init : EngineTimers φ) :=
  ⟨fun _ h => absurd rfl h, fun _ h => (by cases h)⟩

/-- `setTimerTrigger` leaves an armed kernel timer, or no pending event. -/
theorem Served.setTimerTrigger (h : Served s) {a : Arming φ} (ha : s.arming = some a) :
    Served (s.setTimerTrigger a) := by
  unfold EngineTimers.setTimerTrigger
  split
  · simp only
    split
    · exact ⟨fun _ hevent => absurd rfl hevent, fun _ hb => (by cases hb)⟩
    · refine ⟨fun hb => (by cases hb), fun b hb hphase => ?_⟩
      cases hb
      cases hphase
  · exact ⟨fun hb => (by cases hb), fun _ _ _ => .inr rfl⟩
  · rename_i hphase
    refine ⟨fun _ _ => ?_, fun _ hb => (by cases hb)⟩
    exact (h.settime a ha hphase).imp_right fun hinterest => ⟨hinterest, .inr (by simp)⟩

/-- **Step**: an expiry stays behind `timerEvent`. -/
theorem served_step (h : Served s) (hstep : s.step l = .ok s') : Served s' := by
  cases moves_of_step hstep with
  | @call _ _ outcome removing hcall hfree hfollow happly =>
    cases hrequest : outcome.request with
    | none =>
      simp only [Option.map_none]
      exact ⟨fun _ => h.free hfree, fun _ hb => (by cases hb)⟩
    | some request =>
      simp only [Option.map_some]
      refine ⟨fun hb => (by cases hb), fun a ha hphase => ?_⟩
      cases ha
      cases hphase
  | arm ha => exact h.setTimerTrigger ha
  | stale hnotified hfree hnone =>
    exact ⟨fun _ hevent => absurd hnone hevent, fun a ha => by
      rw [show s.arming = none from hfree] at ha
      cases ha⟩
  | @fire _ _ outcome =>
    refine ⟨fun _ hevent => absurd rfl hevent, fun a ha hphase => ?_⟩
    obtain ⟨request, -, rfl⟩ := Option.map_eq_some_iff.mp ha
    cases hphase
  | hash | tick => exact ⟨h.free, h.settime⟩
  | epollWait => exact ⟨fun _ _ => .inl rfl, fun _ _ _ => .inl rfl⟩
  | kernelExpire =>
    exact ⟨fun hfree hevent => (h.free hfree hevent).imp_right fun hfd => ⟨hfd.1, .inl rfl⟩,
      h.settime⟩

/-! ## Order -/

/-- The timers that were queued, and the pending ones, by their deadlines -/
def firing (s : EngineTimers φ) : List (RunnablePtr × EventPtr) :=
  s.enqueued.map TimerEvent.key ++ s.timers.dateTriples.map Pending.key

/-- The copies that were queued, and those of the pending timers, by their deadlines -/
def copies (s : EngineTimers φ) : List (TimerEvent φ) := s.enqueued ++ s.timers.eventObjs

/-- The first entry is the one that `begin?` finds, and its key is its own. -/
theorem entries_eq_cons {t : Timers φ} (h : Coupled t) {e : TimePointNs × TimerRunnableId φ}
    (hbegin : t.timesByDate.begin? = some e) :
    t.timesByDate.entries = e :: (t.without (Pending.ofDate e).key).timesByDate.entries := by
  obtain ⟨rest, hentries⟩ : ∃ rest, t.timesByDate.entries = e :: rest := by
    cases hentries : t.timesByDate.entries with
    | nil => simp [SortedMap.begin?, hentries] at hbegin
    | cons e' rest =>
      simp only [SortedMap.begin?, hentries, List.head?_cons, Option.some.injEq] at hbegin
      exact ⟨rest, by rw [hbegin]⟩
  -- no other entry has the deadline of the first, so none has its key
  have hsorted := t.timesByDate.sorted
  rw [hentries] at hsorted
  have hother : ∀ x ∈ rest, (Pending.ofDate x).key ≠ (Pending.ofDate e).key := by
    intro x hx hkey
    have hmem : x ∈ t.timesByDate.entries := hentries ▸ List.mem_cons_of_mem _ hx
    have hfirst : e ∈ t.timesByDate.entries := hentries ▸ List.mem_cons_self ..
    have heq := h.eq_of_key_eq (List.mem_map_of_mem hmem) (List.mem_map_of_mem hfirst) hkey
    have hlt := (List.pairwise_cons.mp hsorted).1 x hx
    rw [eq_of_ofDate_eq hmem hfirst heq] at hlt
    exact lt_irrefl _ hlt
  have hrest : rest.filter (fun x => (Pending.ofDate x).key ≠ (Pending.ofDate e).key) = rest :=
    List.filter_eq_self.mpr fun x hx => by simpa using hother x hx
  rw [Timers.without, Timers.keep, SortedMap.entries_filter, hentries,
    List.filter_cons_of_neg (by simp), hrest]

/-- **Step**: unless a timer is set or cancelled, the timers that are queued are the first pending
ones. -/
theorem firing_step (h : InStep s) (hcall : call? l = none) (hstep : s.step l = .ok s') :
    s'.firing = s.firing := by
  have hfire := fun r (hl : l = .handleTimerExpired r) => h.fire (r := r) (hl ▸ hstep)
  cases moves_of_step hstep with
  | call removing hcalled => rw [hcall] at hcalled; cases hcalled
  | @arm a => rw [firing, setTimerTrigger_enqueued, setTimerTrigger_timers, firing]
  | @fire r =>
    rcases hfire r rfl with ⟨henqueued, htimers⟩ | ⟨e, event, he, -, -, hkey, henqueued, htimers⟩
    · rw [firing, henqueued, htimers]
      rfl
    · rw [firing, henqueued, htimers, firing, dateTriples, dateTriples,
        entries_eq_cons h.coupled he, List.map_append, List.map_singleton, hkey, List.map_cons,
        List.map_cons, List.append_assoc, List.singleton_append]
      rfl
  | stale | hash | tick | epollWait | kernelExpire => rfl

/-- **Step**: where the copies are current, those that are queued are the copies of the first
pending timers. -/
theorem copies_step (h : InStep s) (hcurrent : ∀ what, CurrentFor what s) (hcall : call? l = none)
    (hstep : s.step l = .ok s') : s'.copies = s.copies := by
  have hfire := fun r (hl : l = .handleTimerExpired r) => h.fire (r := r) (hl ▸ hstep)
  cases moves_of_step hstep with
  | call removing hcalled => rw [hcall] at hcalled; cases hcalled
  | @arm a => rw [copies, setTimerTrigger_enqueued, setTimerTrigger_timers, copies]
  | @fire r =>
    rcases hfire r rfl with ⟨henqueued, htimers⟩ | ⟨e, event, he, hfree, hevent, -, henqueued,
      htimers⟩
    · rw [copies, henqueued, htimers]
      rfl
    · have hcopy := h.timerEvent_eq hcurrent hfree
      rw [hevent, startEvent, he] at hcopy
      rw [copies, henqueued, htimers, copies, eventObjs, eventObjs, entries_eq_cons h.coupled he,
        List.map_cons, List.append_assoc, List.singleton_append, Option.some.inj hcopy]
  | stale | hash | tick | epollWait | kernelExpire => rfl

/-! ## Rounds -/

/-- A step of the kernel, of the epoll thread that handles an expiry, or of whoever holds
`timerLock` -/
def Drives : EngineStep φ → Prop
  | .setTimerTrigger | .handleTimerExpired _ | .epollWait | .kernelExpire => True
  | .setTimer .. | .cancelTimer .. | .add _ | .eraseFromHash _ | .cancelAllTimers .. | .tick _ =>
    False

theorem Drives.call?_eq_none (h : Drives l) : call? l = none := by
  cases l with
  | setTimer | cancelTimer | cancelAllTimers => exact h.elim
  | _ => rfl

/-- The invariant of a run -/
def Ticking (s : EngineTimers φ) : Prop := InStep s ∧ Served s

theorem ticking_step (h : Ticking s) (hstep : s.step l = .ok s') : Ticking s' :=
  ⟨h.1.step hstep, served_step h.2 hstep⟩

theorem ticking_of_run (hrun : runFrom step init ls = .ok s) : Ticking s :=
  runFrom_invariant Ticking ticking_step ⟨inStep_init, served_init⟩ hrun

/-- A run in which nobody sets or cancels a timer queues the first pending timers. -/
theorem firing_run (h : InStep s) (hcalls : ∀ l ∈ ls, call? l = none)
    (hrun : runFrom step s ls = .ok s') : s'.firing = s.firing := by
  have hinv := AllSteps.invariant (fun t => InStep t ∧ t.firing = s.firing)
    (fun ht hl hstep => ⟨ht.1.step hstep, (firing_step ht.1 hl hstep).trans ht.2⟩) ⟨h, rfl⟩
    (AllSteps.of_forall_mem (P := fun l => call? l = none) hcalls) hrun
  exact hinv.2

theorem not_reassigns_of_call? (hcall : call? l = none) : ¬ s.Reassigns l := by
  cases l with
  | setTimer => cases hcall
  | _ => exact id

theorem copies_run (h : InStep s) (hcurrent : ∀ what, CurrentFor what s)
    (hcalls : ∀ l ∈ ls, call? l = none) (hrun : runFrom step s ls = .ok s') :
    s'.copies = s.copies := by
  have hinv := AllSteps.invariant
    (fun t => (InStep t ∧ ∀ what, CurrentFor what t) ∧ t.copies = s.copies)
    (fun ht hl hstep => ⟨⟨ht.1.1.step hstep, fun what => currentFor_step ht.1.1 (ht.1.2 what)
      (fun _ _ _ _ _ => not_reassigns_of_call? hl) hstep⟩,
      (copies_step ht.1.1 ht.1.2 hl hstep).trans ht.2⟩) ⟨⟨h, hcurrent⟩, rfl⟩
    (AllSteps.of_forall_mem (P := fun l => call? l = none) hcalls) hrun
  exact hinv.2

theorem step_setTimerTrigger {a : Arming φ} (ha : s.arming = some a) :
    s.step .setTimerTrigger = .ok (s.setTimerTrigger a) := by
  simp only [step, ha]

/-- The steps that a phase of `setTimerTrigger` can lead to, with those of the expiry behind it -/
def ArmPhase.work : ArmPhase → ℕ
  | .clearTimer => 6
  | .epollCtl => 5
  | .settime => 2

/-- What the kernel, the epoll thread and whoever holds `timerLock` can do at most; an event that is
queued counts for two steps. -/
def work (s : EngineTimers φ) : ℕ :=
  8 * s.timers.dateTriples.length + (s.arming.elim 0 fun a => ArmPhase.work a.phase) +
    2 * s.timerFd.interest.toNat + s.timerFd.expiry.toList.length + s.notified.toNat

theorem work_setTimerTrigger {a : Arming φ} (ha : s.arming = some a) :
    (s.setTimerTrigger a).work < s.work := by
  have hinterest := Bool.toNat_le s.timerFd.interest
  unfold EngineTimers.setTimerTrigger
  split <;> rename_i hphase
  · simp only
    split <;> simp [work, ha, hphase, ArmPhase.work]
  · simp [work, ha, hphase, ArmPhase.work]
    omega
  · simp [work, ha, hphase, ArmPhase.work]
    omega

/-- Whoever holds `timerLock` can go on until it is free. -/
theorem leadsTo_settled (s : EngineTimers φ) :
    LeadsTo step Drives (fun t => t.timers = s.timers ∧ t.arming = none) s := by
  refine LeadsTo.of_measure (fun t => t.timers = s.timers) work (fun t hsame hbusy => ?_) rfl
  obtain ⟨a, ha⟩ := Option.ne_none_iff_exists'.mp hbusy
  have htimers : (t.setTimerTrigger a).timers = s.timers := by rw [setTimerTrigger_timers, hsame]
  have hdrives : Drives (.setTimerTrigger : EngineStep φ) := trivial
  exact LeadsTo.cons hdrives (step_setTimerTrigger ha)
    (LeadsTo.here ⟨htimers, work_setTimerTrigger ha⟩)

/-- The kernel and `epoll_wait` can report an expiry to the epoll thread. -/
theorem leadsTo_notified (h : Served s) (hfree : s.arming = none) (hevent : s.timerEvent ≠ none) :
    LeadsTo step Drives
      (fun t => t.timers = s.timers ∧ t.arming = none ∧ t.notified = true) s := by
  have hreport : ∀ t : EngineTimers φ, t.timers = s.timers → t.arming = none →
      t.notified = false → t.timerFd.interest = true → t.timerFd.readable = true →
      LeadsTo step Drives
        (fun t => t.timers = s.timers ∧ t.arming = none ∧ t.notified = true) t := by
    intro t hsame hidle hnot hinterest hreadable
    have hbusy : ¬ t.EpollThreadBusy := by
      rintro ⟨a, ha, -⟩
      rw [hidle] at ha
      cases ha
    have hstep : t.step .epollWait = .ok { t with
        timerFd := { t.timerFd with interest := false }, notified := true } := by
      simp only [step, hnot, hbusy, hinterest, hreadable, not_false_eq_true, and_self, if_true]
    have hdrives : Drives (.epollWait : EngineStep φ) := trivial
    exact LeadsTo.cons hdrives hstep (LeadsTo.here ⟨hsame, hidle, rfl⟩)
  cases hnotified : s.notified with
  | true => exact LeadsTo.here ⟨rfl, hfree, hnotified⟩
  | false =>
    obtain ⟨hinterest, hfd⟩ := (h.free hfree hevent).resolve_left (by rw [hnotified]; decide)
    rcases hfd with hreadable | hexpiry
    · exact hreport s rfl hfree hnotified hinterest hreadable
    · -- the kernel timer has yet to expire
      have hexpire : s.step .kernelExpire = .ok { s with
          timerFd := { s.timerFd with expiry := none, readable := true } } := by
        simp only [step, if_neg hexpiry]
      have hdrives : Drives (.kernelExpire : EngineStep φ) := trivial
      exact LeadsTo.cons hdrives hexpire (hreport _ rfl hfree hnotified hinterest rfl)

/-- The epoll thread can handle the expiry: the first timer leaves. -/
theorem exists_fired (h : InStep s) (hfree : s.arming = none) (hnotified : s.notified = true)
    {e : TimePointNs × TimerRunnableId φ} (hbegin : s.timers.timesByDate.begin? = some e) :
    ∃ r s', s.step (.handleTimerExpired r) = .ok s' ∧
      s'.timers = s.timers.without (Pending.ofDate e).key := by
  have hkey := h.free hfree
  rw [getStartEvent, hbegin] at hkey
  obtain ⟨event, hevent, -⟩ := Option.map_eq_some_iff.mp hkey
  let r : Readings := ⟨s.now, s.now, s.now, s.now⟩
  have hfollow : r.Follow s.now := ⟨le_refl _, le_refl _, le_refl _, le_refl _⟩
  have happly := h.coupled.handleTimerExpired_eq r hbegin
  refine ⟨r, { s with
    timers := s.timers.without (Pending.ofDate e).key
    timerEvent := none
    arming := some ⟨.epollThread, (s.timers.without (Pending.ofDate e).key).setTrigger s.now,
      .clearTimer⟩
    timerFd := { s.timerFd with readable := false }
    notified := false
    enqueued := s.enqueued ++ [event] }, ?_, rfl⟩
  simp only [step, handleTimerExpired]
  rw [if_pos ⟨hnotified, hfree, hfollow⟩, hevent]
  exact locked_eq_ok_iff.mpr ⟨hfree, hfollow, _, happly, rfl⟩

/-! ## An End -/

theorem length_without_lt {t : Timers φ} {p : Pending} (hp : p ∈ t.dateTriples) :
    (t.without p.key).dateTriples.length < t.dateTriples.length := by
  rw [without, dateTriples_keep, List.length_filter_lt_length_iff_exists]
  exact ⟨p, hp, by simp⟩

/-- **Step**: there is less to do after it. -/
theorem work_step (h : InStep s) (hl : Drives l) (hstep : s.step l = .ok s') :
    s'.work + 2 * s'.enqueued.length < s.work + 2 * s.enqueued.length := by
  cases l with
  | setTimer | cancelTimer | add | eraseFromHash | cancelAllTimers | tick => exact hl.elim
  | setTimerTrigger =>
    simp only [step] at hstep
    split at hstep
    · rename_i a ha
      cases hstep
      have hless := work_setTimerTrigger ha
      rw [setTimerTrigger_enqueued]
      omega
    · cases hstep
  | handleTimerExpired r =>
    simp only [step, handleTimerExpired] at hstep
    split at hstep
    · rename_i hready
      split at hstep
      · cases hstep
        simp [work, hready.1]
      · obtain ⟨-, -, outcome, happly, rfl⟩ := locked_eq_ok_iff.mp hstep
        -- a timer leaves, an event is queued and the next one is to be armed
        cases h.coupled.effect_of_apply happly with
        | expired _ e hbegin =>
          have hmem := (SortedMap.begin?_eq_some_iff.mp hbegin).1
          have hless := length_without_lt (t := s.timers) (List.mem_map_of_mem hmem)
          simp [work, hready.1, hready.2.1, ArmPhase.work]
          omega
    · cases hstep
  | epollWait =>
    simp only [step] at hstep
    split at hstep
    · rename_i hready
      cases hstep
      simp [work, hready.1, hready.2.2.2]
      omega
    · cases hstep
  | kernelExpire =>
    simp only [step] at hstep
    split at hstep
    · cases hstep
    · rename_i hne
      cases hstep
      obtain ⟨x, hx⟩ := Option.ne_none_iff_exists'.mp hne
      simp [work, hx]

/-! ## All Timers -/

/-- **Round**: the steps lead to a state with one pending timer fewer. -/
theorem Ticking.round (h : Ticking s) (hpending : s.timers.dateTriples ≠ []) :
    LeadsTo step Drives (fun t => Ticking t ∧
      t.timers.dateTriples.length < s.timers.dateTriples.length) s := by
  have hticking {Q : EngineTimers φ → Prop} {t : EngineTimers φ} (ht : Ticking t)
      (hQ : LeadsTo step Drives Q t) : LeadsTo step Drives (fun t => Ticking t ∧ Q t) t :=
    hQ.keeping Ticking (fun ht _ hstep => ticking_step ht hstep) ht
  refine LeadsTo.bind (hticking h (leadsTo_settled s)) fun t ⟨ht, hsame, hfree⟩ => ?_
  obtain ⟨e, hbegin⟩ : ∃ e, t.timers.timesByDate.begin? = some e := by
    refine Option.ne_none_iff_exists'.mp fun hnone => hpending ?_
    rw [← hsame]
    exact first?_eq_none_iff.mp (congrArg (Option.map _) hnone)
  have hevent : t.timerEvent ≠ none := by
    intro hnone
    have hkey := ht.1.free hfree
    rw [hnone, getStartEvent, hbegin] at hkey
    cases hkey
  refine LeadsTo.bind (hticking ht (leadsTo_notified ht.2 hfree hevent)) fun u hu => ?_
  obtain ⟨hu, hsame', hfree', hnotified⟩ := hu
  obtain ⟨r, v, hstep, hv⟩ := exists_fired hu.1 hfree' hnotified (hsame' ▸ hbegin)
  have hdrives : Drives (.handleTimerExpired r : EngineStep φ) := trivial
  refine LeadsTo.cons hdrives hstep (LeadsTo.here ⟨ticking_step hu hstep, ?_⟩)
  have hcons := entries_eq_cons ht.1.coupled hbegin
  rw [hv, hsame', ← hsame, dateTriples, dateTriples, hcons, List.map_cons, List.length_cons]
  exact Nat.lt_succ_self _

/-- As long as a timer is pending, one of these steps is possible. -/
theorem exists_drives (h : Ticking s) {k : RunnablePtr × EventPtr}
    (hpending : IsPending s.timers k) : ∃ l t, Drives l ∧ s.step l = .ok t := by
  obtain ⟨p, hp, -⟩ := hpending
  obtain ⟨ms, t, hms, hrun, -, hless⟩ := h.round (List.ne_nil_of_mem hp)
  cases ms with
  | nil =>
    cases hrun
    exact absurd hless (lt_irrefl _)
  | cons l ms =>
    obtain ⟨u, hstep, -⟩ := runFrom_cons_eq_ok.mp hrun
    exact ⟨l, u, (List.forall_mem_cons.mp hms).1, hstep⟩

/-- Each round lets a pending timer leave, so all of them leave. -/
theorem Ticking.drains (h : Ticking s) :
    LeadsTo step Drives (fun t => Ticking t ∧ t.timers.dateTriples = []) s :=
  LeadsTo.of_measure Ticking (fun t => t.timers.dateTriples.length)
    (fun _ ht hpending => ht.round hpending) h

/-- **Firing**: in every state that a run reaches, the timers that are pending are queued in the
order of their deadlines until somebody sets or cancels one, and steps of the kernel, the epoll
thread and whoever holds `timerLock` are enough for all of them to be queued. If no first timer was
set again with another callable so that it stayed the first, what is queued are the copies that were
made when the timers were set last. -/
theorem drains_of_run (hrun : runFrom step init ls = .ok s) :
    (s.timers.dateTriples.Pairwise fun p q => p.deadline < q.deadline) ∧
      (∀ ms s', (∀ l ∈ ms, call? l = none) → runFrom step s ms = .ok s' →
        s'.enqueued.map TimerEvent.key ++ s'.timers.dateTriples.map Pending.key =
          s.enqueued.map TimerEvent.key ++ s.timers.dateTriples.map Pending.key) ∧
      (∃ ms s', (∀ l ∈ ms, Drives l) ∧ runFrom step s ms = .ok s' ∧ s'.timers.dateTriples = [] ∧
        s'.enqueued.map TimerEvent.key =
          s.enqueued.map TimerEvent.key ++ s.timers.dateTriples.map Pending.key) ∧
      (AllSteps step (fun s l => ¬ s.Reassigns l) init ls → ∀ ms s', (∀ l ∈ ms, call? l = none) →
        runFrom step s ms = .ok s' →
        s'.enqueued ++ s'.timers.eventObjs = s.enqueued ++ s.timers.eventObjs) := by
  have h := ticking_of_run hrun
  refine ⟨?_, fun ms s' hms hrun' => firing_run h.1 hms hrun', ?_, fun hreassigns ms s' hms hrun' =>
    copies_run h.1 (currentFor_of_run hreassigns hrun) hms hrun'⟩
  · rw [dateTriples, List.pairwise_map]
    exact s.timers.timesByDate.sorted
  · obtain ⟨ms, s', hms, hrun', -, hnil⟩ := h.drains
    refine ⟨ms, s', hms, hrun', hnil, ?_⟩
    have hfiring := firing_run h.1 (fun l hl => (hms l hl).call?_eq_none) hrun'
    rwa [firing, hnil, List.map_nil, List.append_nil] at hfiring

/-- Two timers, the later one set first; it is set again with another callable when it is not the
first any more. -/
theorem drains_two_timers : ∃ s,
    runFrom step init [.setTimer (some 1) 10 'a' 100 ⟨0, 0, 0, 0⟩, .setTimerTrigger,
      .setTimerTrigger, .setTimerTrigger, .setTimer (some 2) 20 'b' 50 ⟨1, 1, 1, 1⟩,
      .setTimerTrigger, .setTimerTrigger, .setTimerTrigger,
      .setTimer (some 1) 10 'c' 100 ⟨2, 2, 2, 2⟩] = .ok s ∧
    (∃ ms s', (∀ l ∈ ms, Drives l) ∧ runFrom step s ms = .ok s' ∧
      s'.enqueued.map TimerEvent.key = [(2, 20), (1, 10)]) ∧
    ∀ ms s', (∀ l ∈ ms, call? l = none) → runFrom step s ms = .ok s' →
      s'.enqueued ++ s'.timers.eventObjs = [⟨2, 20, 'b'⟩, ⟨1, 10, 'c'⟩] := by
  obtain ⟨s, hrun, hkeys, hcopies⟩ : ∃ s,
      runFrom step init [.setTimer (some 1) 10 'a' 100 ⟨0, 0, 0, 0⟩, .setTimerTrigger,
        .setTimerTrigger, .setTimerTrigger, .setTimer (some 2) 20 'b' 50 ⟨1, 1, 1, 1⟩,
        .setTimerTrigger, .setTimerTrigger, .setTimerTrigger,
        .setTimer (some 1) 10 'c' 100 ⟨2, 2, 2, 2⟩] = .ok s ∧
      s.enqueued.map TimerEvent.key ++ s.timers.dateTriples.map Pending.key =
        [(2, 20), (1, 10)] ∧
      s.enqueued ++ s.timers.eventObjs = [⟨2, 20, 'b'⟩, ⟨1, 10, 'c'⟩] := by
    decide +kernel
  obtain ⟨-, -, ⟨ms, s', hms, hrun', -, henqueued⟩, hcurrent⟩ := drains_of_run hrun
  refine ⟨s, hrun, ⟨ms, s', hms, hrun', henqueued.trans hkeys⟩, fun ms s' hms hrun' => ?_⟩
  exact (hcurrent (by decide +kernel) ms s' hms hrun').trans hcopies

end Epoller.EngineTimers
