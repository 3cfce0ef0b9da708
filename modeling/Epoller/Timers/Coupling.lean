import Epoller.Timers
import Epoller.Foundation.Runs

/-!
# The Two Containers of `Timers`

`timesByDate` and `timersByOwner` record the same pending timers. `Coupled` says
so, and that no timer is pending twice. Under it every operation is a filter on
both containers, followed in `setTimer` by an insertion, and the size assertions
fail in one place only: `setTimer` with a deadline another pending timer has.

## Contents

- `Pending`, `dateTriples`, `ownerTriples`: what the containers record
- `Coupled`: the invariant
- `eventObjs`, `startEvent`: the copies of the events, and that of the first entry
- `Effect`, `Coupled.effect_of_apply`: what each operation does
- `consistent_iff_distinctDeadlines`: the containers agree exactly as long as deadlines differ
-/

namespace Epoller

open Foundation

universe u

variable {φ : Type u}

/-! ## Pending Timers -/

/-- A pending timer, as either container records it. -/
@[ext] structure Pending where
  owner : RunnablePtr
  event : EventPtr
  deadline : TimePointNs
deriving DecidableEq, Repr

namespace Pending

/-- A timer is identified by its owner and its event. -/
def key (p : Pending) : RunnablePtr × EventPtr := (p.owner, p.event)

def ofDate (e : TimePointNs × TimerRunnableId φ) : Pending := ⟨e.2.ep, e.2.id, e.1⟩

def ofOwner (bo : RunnablePtr × TimerDateId) : Pending := ⟨bo.1, bo.2.id, bo.2.tp⟩

theorem ofOwner_injective : Function.Injective ofOwner := by
  rintro ⟨owner, tp, id⟩ ⟨owner', tp', id'⟩ h
  simp only [ofOwner, Pending.mk.injEq] at h
  obtain ⟨rfl, rfl, rfl⟩ := h
  rfl

end Pending

namespace Timers

variable {t : Timers φ}

def dateTriples (t : Timers φ) : List Pending := t.timesByDate.entries.map .ofDate

def ownerTriples (t : Timers φ) : List Pending := t.timersByOwner.map .ofOwner

/-- The containers record the same timers, each once. -/
structure Coupled (t : Timers φ) : Prop where
  same : t.dateTriples.Perm t.ownerTriples
  unique : (t.ownerTriples.map Pending.key).Nodup

theorem coupled_empty : Coupled (empty : Timers φ) := ⟨.refl _, .nil⟩

theorem Coupled.size_eq (h : Coupled t) : t.timesByDate.size = t.timersByOwner.length := by
  simpa [dateTriples, ownerTriples, SortedMap.size] using h.same.length_eq

theorem Coupled.mem_owner_iff (h : Coupled t) {p : Pending} :
    p ∈ t.ownerTriples ↔ p ∈ t.dateTriples :=
  h.same.mem_iff.symm

/-- Two pending timers with one key are one timer. -/
theorem Coupled.eq_of_key_eq (h : Coupled t) {p q : Pending} (hp : p ∈ t.dateTriples)
    (hq : q ∈ t.dateTriples) (hkey : p.key = q.key) : p = q :=
  List.inj_on_of_nodup_map h.unique (h.mem_owner_iff.mpr hp) (h.mem_owner_iff.mpr hq) hkey

/-- Two pending timers with one deadline are one timer. -/
theorem eq_of_deadline_eq {p q : Pending} (hp : p ∈ t.dateTriples) (hq : q ∈ t.dateTriples)
    (hdeadline : p.deadline = q.deadline) : p = q := by
  obtain ⟨e, he, rfl⟩ := List.mem_map.mp hp
  obtain ⟨e', he', rfl⟩ := List.mem_map.mp hq
  exact congrArg Pending.ofDate (SortedMap.eq_of_mem_of_key_eq he he' hdeadline)

/-- The map has one entry for a pending timer. -/
theorem eq_of_ofDate_eq {e e' : TimePointNs × TimerRunnableId φ} (he : e ∈ t.timesByDate)
    (he' : e' ∈ t.timesByDate) (h : Pending.ofDate e = .ofDate e') : e = e' :=
  SortedMap.eq_of_mem_of_key_eq he he' (congrArg Pending.deadline h)

/-! ## Filtering Both Containers -/

/-- Keep the pending timers that satisfy `p`. -/
def keep (t : Timers φ) (p : Pending → Prop) [DecidablePred p] : Timers φ where
  timesByDate := t.timesByDate.filter fun e => p (.ofDate e)
  timersByOwner := t.timersByOwner.filter fun bo => p (.ofOwner bo)

variable {p : Pending → Prop} [DecidablePred p]

@[simp] theorem dateTriples_keep : (t.keep p).dateTriples = t.dateTriples.filter fun x => p x := by
  simp only [dateTriples, keep, SortedMap.entries_filter, List.filter_map]
  rfl

@[simp] theorem ownerTriples_keep :
    (t.keep p).ownerTriples = t.ownerTriples.filter fun x => p x := by
  simp only [ownerTriples, keep, List.filter_map]
  rfl

theorem Coupled.keep (h : Coupled t) : Coupled (t.keep p) := by
  refine ⟨?_, ?_⟩
  · rw [dateTriples_keep, ownerTriples_keep]
    exact h.same.filter _
  · rw [ownerTriples_keep]
    exact h.unique.sublist (List.filter_sublist.map _)

/-- Drop the timer with key `k`. -/
def without (t : Timers φ) (k : RunnablePtr × EventPtr) : Timers φ := t.keep fun p => p.key ≠ k

theorem Coupled.without (h : Coupled t) (k : RunnablePtr × EventPtr) : Coupled (t.without k) :=
  h.keep

@[simp] theorem mem_dateTriples_keep {q : Pending} :
    q ∈ (t.keep p).dateTriples ↔ q ∈ t.dateTriples ∧ p q := by
  simp

@[simp] theorem mem_dateTriples_without {k : RunnablePtr × EventPtr} {q : Pending} :
    q ∈ (t.without k).dateTriples ↔ q ∈ t.dateTriples ∧ q.key ≠ k :=
  mem_dateTriples_keep

/-! ## `removeTimer` -/

/-- The deadline of the pending timer with key `k`. -/
def deadline? (t : Timers φ) (k : RunnablePtr × EventPtr) : Option TimePointNs :=
  (t.ownerTriples.find? fun p => p.key = k).map Pending.deadline

/-- A deadline is recorded in both containers. -/
theorem Coupled.deadline?_eq_some_iff (h : Coupled t) {k : RunnablePtr × EventPtr}
    {d : TimePointNs} : t.deadline? k = some d ↔ ⟨k.1, k.2, d⟩ ∈ t.dateTriples := by
  rw [← h.mem_owner_iff]
  simp only [deadline?, Option.map_eq_some_iff]
  constructor
  · rintro ⟨p, hp, rfl⟩
    have hkey : p.key = k := by simpa using List.find?_some hp
    exact hkey ▸ List.mem_of_find?_eq_some hp
  · intro hmem
    cases hfind : t.ownerTriples.find? fun p => p.key = k with
    | none => exact absurd (List.find?_eq_none.mp hfind _ hmem) (by simp [Pending.key])
    | some p =>
      have hkey : p.key = k := by simpa using List.find?_some hfind
      have heq : p = ⟨k.1, k.2, d⟩ :=
        List.inj_on_of_nodup_map h.unique (List.mem_of_find?_eq_some hfind) hmem hkey
      exact ⟨p, rfl, congrArg Pending.deadline heq⟩

theorem eraseDate_eq (timer : EventPtr) (m : SortedMap TimePointNs (TimerRunnableId φ))
    (bo : RunnablePtr × TimerDateId) :
    eraseDate timer m bo = m.filter fun e => ¬ (e.1 = bo.2.tp ∧ e.2.id = timer) := by
  apply SortedMap.ext
  unfold eraseDate
  -- the map has at most one entry at the deadline of `bo`
  cases hfind : m.find? bo.2.tp with
  | none =>
    have hne : ∀ e ∈ m.entries, e.1 ≠ bo.2.tp := by
      intro e he htp
      have hsome := SortedMap.find?_eq_some_iff.mpr (show (bo.2.tp, e.2) ∈ m from htp ▸ he)
      rw [hfind] at hsome
      cases hsome
    exact (List.filter_eq_self.mpr fun e he => by simp [hne e he]).symm
  | some r =>
    have hmem := SortedMap.find?_eq_some_iff.mp hfind
    have huniq : ∀ e ∈ m.entries, e.1 = bo.2.tp → e.2 = r := fun e he htp =>
      congrArg Prod.snd (SortedMap.eq_of_mem_of_key_eq he hmem htp)
    simp only
    split
    · rename_i hid
      refine List.filter_congr fun e he => ?_
      by_cases htp : e.1 = bo.2.tp
      · simp [htp, huniq e he htp, hid]
      · simp [htp]
    · rename_i hid
      refine (List.filter_eq_self.mpr fun e he => ?_).symm
      by_cases htp : e.1 = bo.2.tp
      · simp [htp, huniq e he htp, Ne.symm hid]
      · simp [htp]

/-- The first loop of `removeTimer` over the entries of the owner. -/
theorem foldl_eraseDate_eq (timer : EventPtr) (m : SortedMap TimePointNs (TimerRunnableId φ))
    (bos : List (RunnablePtr × TimerDateId)) :
    bos.foldl (eraseDate timer) m =
      m.filter fun e => ¬ (e.2.id = timer ∧ ∃ bo ∈ bos, bo.2.tp = e.1) := by
  -- each entry of the owner filters the map once more
  induction bos generalizing m with
  | nil => exact (SortedMap.ext (List.filter_eq_self.mpr fun e _ => by simp)).symm
  | cons bo bos ih =>
    rw [List.foldl_cons, ih, eraseDate_eq, SortedMap.filter_filter]
    refine SortedMap.filter_congr fun e _ => ?_
    simp only [List.mem_cons, exists_eq_or_imp]
    rw [← not_or, and_or_left, and_comm, @eq_comm _ e.1]

theorem Coupled.date_filter_eq (h : Coupled t) (what : RunnablePtr) (timer : EventPtr) :
    (t.timersByOwner.filter fun bo => bo.1 = what).foldl (eraseDate timer) t.timesByDate =
      (t.without (what, timer)).timesByDate := by
  rw [foldl_eraseDate_eq]
  refine SortedMap.filter_congr fun e he => not_congr ?_
  have hdate : Pending.ofDate e ∈ t.dateTriples := List.mem_map_of_mem he
  simp only [List.mem_filter, decide_eq_true_eq, Pending.key, Pending.ofDate, Prod.mk.injEq]
  constructor
  · rintro ⟨hid, bo, ⟨hbo, rfl⟩, htp⟩
    -- the entry of the owner stands in `timesByDate` at the same deadline
    have hbo' := h.mem_owner_iff.mp (List.mem_map_of_mem (f := Pending.ofOwner) hbo)
    have heq := eq_of_deadline_eq hbo' hdate htp
    exact ⟨(congrArg Pending.owner heq).symm, hid⟩
  · rintro ⟨hep, hid⟩
    obtain ⟨bo, hbo, heq⟩ := List.mem_map.mp (h.mem_owner_iff.mpr hdate)
    exact ⟨hid, bo, ⟨hbo, (congrArg Pending.owner heq).trans hep⟩, congrArg Pending.deadline heq⟩

theorem Coupled.nodup_owner (h : Coupled t) : t.timersByOwner.Nodup :=
  .of_map _ (.of_map _ h.unique)

/-- **Specification of `removeTimer`**: it removes the timer from both containers, returns its
deadline, or the reading of the clock if it was not pending, and its assertion holds. -/
theorem Coupled.removeTimer_eq (h : Coupled t) (what : RunnablePtr) (timer : EventPtr)
    (now : TimePointNs) :
    t.removeTimer what timer now =
      .ok (t.without (what, timer), (t.deadline? (what, timer)).getD now) := by
  have hfind : ((t.timersByOwner.filter fun bo => bo.1 = what).find? fun bo => bo.2.id = timer) =
      t.timersByOwner.find? fun bo => (Pending.ofOwner bo).key = (what, timer) := by
    rw [List.find?_filter]
    congr 1
    funext bo
    simp [Pending.key, Pending.ofOwner]
  have hdeadline : t.deadline? (what, timer) =
      (t.timersByOwner.find? fun bo => (Pending.ofOwner bo).key = (what, timer)).map
        (fun bo => bo.2.tp) := by
    simp only [deadline?, ownerTriples, List.find?_map, Option.map_map]
    rfl
  have hsize := (h.without (what, timer)).size_eq
  simp only [removeTimer]
  rw [hfind, h.date_filter_eq, hdeadline]
  -- both containers lose the timer, or neither has it; so their sizes still agree
  cases hbo : t.timersByOwner.find? fun bo => (Pending.ofOwner bo).key = (what, timer) with
  | none =>
    have hkeep : t.timersByOwner =
        (t.without (what, timer)).timersByOwner :=
      (List.filter_eq_self.mpr fun bo hmem => by
        simpa using List.find?_eq_none.mp hbo bo hmem).symm
    simp only
    rw [if_pos (hkeep ▸ hsize)]
    exact congrArg (fun l => Except.ok ((⟨_, l⟩ : Timers φ), now)) hkeep
  | some bo =>
    have hmem := List.mem_of_find?_eq_some hbo
    have hkey : (Pending.ofOwner bo).key = (what, timer) := by simpa using List.find?_some hbo
    have hkeep : t.timersByOwner.erase bo =
        (t.without (what, timer)).timersByOwner := by
      -- no timer is pending twice, so erasing one entry is filtering by its key
      rw [h.nodup_owner.erase_eq_filter]
      refine List.filter_congr fun bo' hmem' => ?_
      have hiff : bo' = bo ↔ (Pending.ofOwner bo').key = (what, timer) := by
        refine ⟨fun heq => heq ▸ hkey, fun hkey' => Pending.ofOwner_injective ?_⟩
        exact List.inj_on_of_nodup_map h.unique (List.mem_map_of_mem hmem')
          (List.mem_map_of_mem hmem) (hkey'.trans hkey.symm)
      simp [← hiff, bne, beq_eq_decide]
    simp only
    rw [if_pos (hkeep ▸ hsize), hkeep]
    rfl

/-! ## Insertion -/

/-- The containers after `setTimer` has put a timer into them, with a copy of its event. -/
def insert (t : Timers φ) (p : Pending) (func : φ) : Timers φ where
  timersByOwner := t.timersByOwner ++ [(p.owner, ⟨p.deadline, p.event⟩)]
  timesByDate := t.timesByDate.emplace p.deadline ⟨p.owner, p.event, func⟩

/-- No pending timer has the deadline `when`. -/
def Free (t : Timers φ) (when : TimePointNs) : Prop := ∀ p ∈ t.dateTriples, p.deadline ≠ when

instance (t : Timers φ) (when : TimePointNs) : Decidable (t.Free when) :=
  inferInstanceAs (Decidable (∀ p ∈ t.dateTriples, p.deadline ≠ when))

theorem free_iff {when : TimePointNs} : t.Free when ↔ ∀ e ∈ t.timesByDate, e.1 ≠ when := by
  simp only [Free, dateTriples, List.forall_mem_map]
  rfl

theorem dateTriples_insert {p : Pending} {func : φ} (hfree : t.Free p.deadline) :
    (t.insert p func).dateTriples.Perm (p :: t.dateTriples) :=
  (SortedMap.emplace_perm (free_iff.mp hfree)).map Pending.ofDate

theorem ownerTriples_insert (p : Pending) (func : φ) :
    (t.insert p func).ownerTriples = t.ownerTriples ++ [p] := by
  simp [ownerTriples, insert, Pending.ofOwner]

/-- A timer that is not pending, with a deadline of its own, can be put into both containers. -/
theorem Coupled.insert (h : Coupled t) {p : Pending} {func : φ} (hfree : t.Free p.deadline)
    (hnew : ∀ q ∈ t.dateTriples, q.key ≠ p.key) : Coupled (t.insert p func) := by
  -- both containers gain exactly `p`
  have hperm : (t.insert p func).ownerTriples.Perm (p :: t.ownerTriples) := by
    rw [ownerTriples_insert]
    exact List.perm_append_singleton ..
  refine ⟨(dateTriples_insert hfree).trans ((h.same.cons p).trans hperm.symm), ?_⟩
  rw [(hperm.map Pending.key).nodup_iff, List.map_cons, List.nodup_cons]
  refine ⟨fun hmem => ?_, h.unique⟩
  obtain ⟨q, hq, hkey⟩ := List.mem_map.mp hmem
  exact hnew q (h.mem_owner_iff.mp hq) hkey

/-- At a deadline that is taken the map keeps its entry, so the sizes differ. -/
theorem Coupled.size_insert_ne (h : Coupled t) {p : Pending} {func : φ}
    (hfree : ¬ t.Free p.deadline) :
    (t.insert p func).timesByDate.size ≠ (t.insert p func).timersByOwner.length := by
  simp only [free_iff, not_forall, not_not] at hfree
  obtain ⟨e, he, htp⟩ := hfree
  have hsame := SortedMap.emplace_of_mem (v := (⟨p.owner, p.event, func⟩ : TimerRunnableId φ))
    (show (p.deadline, e.2) ∈ t.timesByDate from htp ▸ he)
  simp only [Timers.insert, hsame, h.size_eq, List.length_append, List.length_singleton]
  omega

/-- Move the timer with the key of `p` to the deadline of `p`. -/
def put (t : Timers φ) (p : Pending) (func : φ) : Timers φ := (t.without p.key).insert p func

theorem Coupled.put (h : Coupled t) {p : Pending} {func : φ}
    (hfree : (t.without p.key).Free p.deadline) : Coupled (t.put p func) :=
  (h.without p.key).insert hfree fun _ hq => (mem_dateTriples_without.mp hq).2

theorem mem_dateTriples_put {p q : Pending} {func : φ} (hfree : (t.without p.key).Free p.deadline) :
    q ∈ (t.put p func).dateTriples ↔ q = p ∨ q ∈ t.dateTriples ∧ q.key ≠ p.key := by
  rw [put, (dateTriples_insert hfree).mem_iff, List.mem_cons, mem_dateTriples_without]

/-! ## The First Entry -/

/-- The timer of the first entry. -/
def first? (t : Timers φ) : Option Pending := t.timesByDate.begin?.map .ofDate

/-- The timer of the first entry is the one whose deadline is below every other one. -/
theorem first?_eq_some_iff {p : Pending} :
    t.first? = some p ↔
      p ∈ t.dateTriples ∧ ∀ q ∈ t.dateTriples, q ≠ p → p.deadline < q.deadline := by
  simp only [first?, Option.map_eq_some_iff, SortedMap.begin?_eq_some_iff, dateTriples,
    List.mem_map]
  constructor
  · rintro ⟨e, ⟨hmem, hleast⟩, rfl⟩
    refine ⟨⟨e, hmem, rfl⟩, ?_⟩
    rintro _ ⟨e', he', rfl⟩ hne
    exact hleast e' he' fun h => hne (h ▸ rfl)
  · rintro ⟨⟨e, hmem, rfl⟩, hleast⟩
    refine ⟨e, ⟨hmem, fun e' he' hne => ?_⟩, rfl⟩
    exact hleast _ ⟨e', he', rfl⟩ fun h => hne (eq_of_ofDate_eq he' hmem h)

theorem first?_eq_none_iff : t.first? = none ↔ t.dateTriples = [] := by
  simp [first?, dateTriples, SortedMap.begin?_eq_none_iff]

theorem getStartEvent_eq (t : Timers φ) : t.getStartEvent = t.first?.map Pending.key := by
  simp only [getStartEvent, first?, Option.map_map]
  rfl

/-- A first entry that keeps owner and event, and was pending before, keeps its deadline. -/
theorem Coupled.first?_eq_of_mem (h : Coupled t) {t' : Timers φ}
    (hstart : t.getStartEvent = t'.getStartEvent)
    (hmem : ∀ p, t'.first? = some p → p ∈ t.dateTriples) : t'.first? = t.first? := by
  rw [getStartEvent_eq, getStartEvent_eq] at hstart
  cases hfirst : t.first? with
  | none => simpa [hfirst, eq_comm] using hstart
  | some p =>
    cases hfirst' : t'.first? with
    | none => simp [hfirst, hfirst'] at hstart
    | some p' =>
      have hkey : p.key = p'.key := by simpa [hfirst, hfirst'] using hstart
      have hp := (first?_eq_some_iff.mp hfirst).1
      rw [h.eq_of_key_eq hp (hmem p' hfirst') hkey]

/-- A first entry that keeps owner and event, and was there before, is the same entry. -/
theorem Coupled.begin?_eq_of_mem (h : Coupled t) {t' : Timers φ}
    (hstart : t'.getStartEvent = t.getStartEvent)
    (hmem : ∀ e, t'.timesByDate.begin? = some e → e ∈ t.timesByDate) :
    t'.timesByDate.begin? = t.timesByDate.begin? := by
  simp only [getStartEvent] at hstart
  cases hbegin : t.timesByDate.begin? with
  | none => simpa [hbegin] using hstart
  | some e =>
    cases hbegin' : t'.timesByDate.begin? with
    | none => simp [hbegin, hbegin'] at hstart
    | some e' =>
      have hkey : (Pending.ofDate e').key = (Pending.ofDate e).key := by
        simpa [hbegin, hbegin', Pending.key, Pending.ofDate] using hstart
      have he := (SortedMap.begin?_eq_some_iff.mp hbegin).1
      have he' := hmem e' hbegin'
      have hsame := h.eq_of_key_eq (List.mem_map_of_mem he') (List.mem_map_of_mem he) hkey
      rw [eq_of_ofDate_eq he' he hsame]

/-- The copy of the event of the first entry. -/
def startEvent (t : Timers φ) : Option (TimerEvent φ) :=
  t.timesByDate.begin?.map fun e => e.2.eventObj

/-- `getStartEvent` is what the copy is known by. -/
theorem map_key_startEvent (t : Timers φ) :
    t.startEvent.map TimerEvent.key = t.getStartEvent := by
  simp only [startEvent, getStartEvent, Option.map_map]
  rfl

theorem startEvent_eq_none_iff : t.startEvent = none ↔ t.first? = none := by
  simp [startEvent, first?]

/-- `setTrigger` passes on the copy of the first entry. -/
theorem setTrigger_what (t : Timers φ) (now : TimePointNs) :
    (t.setTrigger now).what = t.startEvent := by
  unfold setTrigger startEvent
  cases t.timesByDate.begin? <;> rfl

/-- `setTrigger` asks for the deadline of the first entry, or disarms. -/
theorem setTrigger_when (t : Timers φ) (now : TimePointNs) :
    (t.setTrigger now).when =
      match t.first? with
      | some p => max 1 (p.deadline - now)
      | none => 0 := by
  unfold setTrigger first?
  cases t.timesByDate.begin? <;> rfl

theorem setTrigger_when_eq_zero_iff (t : Timers φ) (now : TimePointNs) :
    (t.setTrigger now).when = 0 ↔ t.startEvent = none := by
  rw [setTrigger_when, startEvent_eq_none_iff]
  cases t.first? with
  | none => simp
  | some p =>
    have hpos : (0 : ℤ) < max 1 (p.deadline - now) := lt_max_of_lt_left one_pos
    simpa using hpos.ne'

/-! ## The Copies of the Events -/

/-- The copies of the events of all pending timers, by their deadlines -/
def eventObjs (t : Timers φ) : List (TimerEvent φ) :=
  t.timesByDate.entries.map fun e => e.2.eventObj

/-- There is one copy for each pending timer. -/
theorem map_key_eventObjs (t : Timers φ) :
    t.eventObjs.map TimerEvent.key = t.dateTriples.map Pending.key := by
  simp only [eventObjs, dateTriples, List.map_map]
  rfl

theorem mem_eventObjs_of_startEvent {event : TimerEvent φ} (h : t.startEvent = some event) :
    event ∈ t.eventObjs := by
  obtain ⟨e, hbegin, rfl⟩ := Option.map_eq_some_iff.mp h
  exact List.mem_map_of_mem (SortedMap.begin?_eq_some_iff.mp hbegin).1

/-- Two copies of the event of one timer are one copy. -/
theorem Coupled.eventObj_eq_of_key_eq (h : Coupled t) {x y : TimerEvent φ} (hx : x ∈ t.eventObjs)
    (hy : y ∈ t.eventObjs) (hkey : x.key = y.key) : x = y := by
  have hnodup : (t.eventObjs.map TimerEvent.key).Nodup := by
    rw [map_key_eventObjs, (h.same.map Pending.key).nodup_iff]
    exact h.unique
  exact List.inj_on_of_nodup_map hnodup hx hy hkey

theorem mem_eventObjs_keep {p : Pending → Prop} [DecidablePred p]
    {q : RunnablePtr × EventPtr → Prop} (hpq : ∀ x, p x ↔ q x.key) {event : TimerEvent φ} :
    event ∈ (t.keep p).eventObjs ↔ event ∈ t.eventObjs ∧ q event.key := by
  simp only [eventObjs, keep, SortedMap.entries_filter, List.mem_map, List.mem_filter,
    decide_eq_true_eq, hpq]
  constructor
  · rintro ⟨e, ⟨he, hq⟩, rfl⟩
    exact ⟨⟨e, he, rfl⟩, hq⟩
  · rintro ⟨⟨e, he, rfl⟩, hq⟩
    exact ⟨e, ⟨he, hq⟩, rfl⟩

theorem mem_eventObjs_without {k : RunnablePtr × EventPtr} {event : TimerEvent φ} :
    event ∈ (t.without k).eventObjs ↔ event ∈ t.eventObjs ∧ event.key ≠ k :=
  mem_eventObjs_keep (q := fun k' => k' ≠ k) fun _ => Iff.rfl

/-- The timer that is put has the copy made now. -/
theorem mem_eventObjs_put {p : Pending} {func : φ} (hfree : (t.without p.key).Free p.deadline)
    {event : TimerEvent φ} :
    event ∈ (t.put p func).eventObjs ↔
      event = ⟨p.owner, p.event, func⟩ ∨ event ∈ t.eventObjs ∧ event.key ≠ p.key := by
  have hperm := (SortedMap.emplace_perm (v := (⟨p.owner, p.event, func⟩ : TimerRunnableId φ))
    (free_iff.mp hfree)).map fun e => e.2.eventObj
  rw [← mem_eventObjs_without]
  exact hperm.mem_iff.trans List.mem_cons

/-! ## The Operations -/

theorem Coupled.cancelAll_filter_eq (h : Coupled t) (what : RunnablePtr) :
    (t.timersByOwner.filter fun bo => bo.1 = what).foldl (fun m bo => m.erase bo.2.tp)
        t.timesByDate =
      (t.keep fun p => p.owner ≠ what).timesByDate := by
  -- the loop erases by deadline, not by owner
  have hfold : ∀ (bos : List (RunnablePtr × TimerDateId))
      (m : SortedMap TimePointNs (TimerRunnableId φ)),
      bos.foldl (fun m bo => m.erase bo.2.tp) m = m.filter fun e => ∀ bo ∈ bos, e.1 ≠ bo.2.tp := by
    intro bos
    induction bos with
    | nil => exact fun m => (SortedMap.ext (List.filter_eq_self.mpr fun e _ => by simp)).symm
    | cons bo bos ih =>
      intro m
      rw [List.foldl_cons, ih]
      exact (SortedMap.filter_filter _ _ m).trans (SortedMap.filter_congr fun e _ => by simp)
  rw [hfold]
  refine SortedMap.filter_congr fun e he => ?_
  have hdate : Pending.ofDate e ∈ t.dateTriples := List.mem_map_of_mem he
  simp only [List.mem_filter, decide_eq_true_eq]
  constructor
  · intro hall hep
    obtain ⟨bo, hbo, heq⟩ := List.mem_map.mp (h.mem_owner_iff.mpr hdate)
    exact hall bo ⟨hbo, (congrArg Pending.owner heq).trans hep⟩ (congrArg Pending.deadline heq).symm
  · rintro hep bo ⟨hbo, rfl⟩ htp
    -- a deadline of the owner belongs to no other owner, as deadlines are distinct
    have hbo' := h.mem_owner_iff.mp (List.mem_map_of_mem (f := Pending.ofOwner) hbo)
    exact hep (congrArg Pending.owner (eq_of_deadline_eq hdate hbo' htp))

/-- **Specification of the operations**: what each of them does to the containers, when it calls
`armTimer`, and what it returns. -/
inductive Effect (t : Timers φ) : TimersCall φ → Outcome φ → Prop where
  /-- The owner of the timer is gone: nothing happens. -/
  | setDead (timer : EventPtr) (func : φ) (timeout : NanoSecs) (r : Readings) :
      Effect t (.setTimer none timer func timeout r) ⟨t, none, 0⟩
  /-- The timer is moved to its new deadline, at which no other timer is pending. -/
  | set (owner : RunnablePtr) (timer : EventPtr) (func : φ) (timeout : NanoSecs) (r : Readings)
      (hfree : (t.without (owner, timer)).Free (r.now + timeout)) :
      Effect t (.setTimer (some owner) timer func timeout r)
        ⟨t.put ⟨owner, timer, r.now + timeout⟩ func,
          retrigger t (t.put ⟨owner, timer, r.now + timeout⟩ func) r.trigger,
          (t.deadline? (owner, timer)).getD r.removed - r.counted⟩
  | cancelDead (timer : EventPtr) (r : Readings) :
      Effect t (.cancelTimer none timer r) ⟨t, none, 0⟩
  /-- The timer is removed. -/
  | cancel (owner : RunnablePtr) (timer : EventPtr) (r : Readings) :
      Effect t (.cancelTimer (some owner) timer r)
        ⟨t.without (owner, timer), retrigger t (t.without (owner, timer)) r.trigger,
          (t.deadline? (owner, timer)).getD r.removed - r.counted⟩
  /-- The timers of the owner are removed. -/
  | cancelAll (what : RunnablePtr) (r : Readings) :
      Effect t (.cancelAllTimers what r)
        ⟨t.keep fun p => p.owner ≠ what, retrigger t (t.keep fun p => p.owner ≠ what) r.trigger, 0⟩
  /-- The first entry is removed. -/
  | expired (r : Readings) (e : TimePointNs × TimerRunnableId φ)
      (hfirst : t.timesByDate.begin? = some e) :
      Effect t (.handleTimerExpired r)
        ⟨t.without (Pending.ofDate e).key,
          some ((t.without (Pending.ofDate e).key).setTrigger r.trigger), 0⟩

theorem Coupled.setTimer_eq (h : Coupled t) (owner : RunnablePtr) (timer : EventPtr) (func : φ)
    (timeout : NanoSecs) (r : Readings) :
    t.setTimer (some owner) timer func timeout r =
      if (t.without (owner, timer)).Free (r.now + timeout) then
        .ok ⟨t.put ⟨owner, timer, r.now + timeout⟩ func,
          retrigger t (t.put ⟨owner, timer, r.now + timeout⟩ func) r.trigger,
          (t.deadline? (owner, timer)).getD r.removed - r.counted⟩
      else .error .setTimerMismatch := by
  simp only [setTimer, h.removeTimer_eq, ok_bind]
  -- a free deadline keeps the sizes equal, a taken one does not
  by_cases hfree : (t.without (owner, timer)).Free (r.now + timeout)
  · rw [if_pos hfree]
    exact if_pos (h.put (p := ⟨owner, timer, r.now + timeout⟩) hfree).size_eq
  · rw [if_neg hfree]
    exact if_neg ((h.without (owner, timer)).size_insert_ne
      (p := ⟨owner, timer, r.now + timeout⟩) hfree)

theorem Coupled.cancelTimer_eq (h : Coupled t) (owner : RunnablePtr) (timer : EventPtr)
    (r : Readings) :
    t.cancelTimer (some owner) timer r =
      .ok ⟨t.without (owner, timer), retrigger t (t.without (owner, timer)) r.trigger,
        (t.deadline? (owner, timer)).getD r.removed - r.counted⟩ := by
  simp only [cancelTimer, h.removeTimer_eq, ok_bind]

theorem Coupled.cancelAllTimers_eq (h : Coupled t) (what : RunnablePtr) (r : Readings) :
    t.cancelAllTimers what r =
      .ok ⟨t.keep fun p => p.owner ≠ what,
        retrigger t (t.keep fun p => p.owner ≠ what) r.trigger, 0⟩ := by
  have hsize := (h.keep (p := fun p => p.owner ≠ what)).size_eq
  simp only [cancelAllTimers, h.cancelAll_filter_eq]
  exact if_pos hsize

theorem Coupled.handleTimerExpired_eq (h : Coupled t) (r : Readings)
    {e : TimePointNs × TimerRunnableId φ} (hfirst : t.timesByDate.begin? = some e) :
    t.handleTimerExpired r =
      .ok ⟨t.without (Pending.ofDate e).key,
        some ((t.without (Pending.ofDate e).key).setTrigger r.trigger), 0⟩ := by
  simp only [handleTimerExpired, hfirst, h.removeTimer_eq, ok_bind]
  rfl

/-- A call of coupled timers that goes through has its specified effect. -/
theorem Coupled.effect_of_apply (h : Coupled t) {call : TimersCall φ} {outcome : Outcome φ}
    (happly : t.apply call = .ok outcome) : Effect t call outcome := by
  cases call with
  | setTimer owner timer func timeout r =>
    cases owner with
    | none =>
      cases happly
      exact .setDead timer func timeout r
    | some owner =>
      rw [apply, h.setTimer_eq] at happly
      split at happly
      · rename_i hfree
        cases happly
        exact .set owner timer func timeout r hfree
      · cases happly
  | cancelTimer owner timer r =>
    cases owner with
    | none =>
      cases happly
      exact .cancelDead timer r
    | some owner =>
      rw [apply, h.cancelTimer_eq] at happly
      cases happly
      exact .cancel owner timer r
  | cancelAllTimers what r =>
    rw [apply, h.cancelAllTimers_eq] at happly
    cases happly
    exact .cancelAll what r
  | handleTimerExpired r =>
    cases hfirst : t.timesByDate.begin? with
    -- without an entry the assertion of `handleTimerExpired` fails
    | none => simp [apply, handleTimerExpired, hfirst] at happly
    | some e =>
      rw [apply, h.handleTimerExpired_eq r hfirst] at happly
      cases happly
      exact .expired r e hfirst

/-- An operation that does not call `armTimer` keeps owner and event of the first entry; one that
does passes on what `setTrigger` computes. -/
theorem Effect.request {call : TimersCall φ} {outcome : Outcome φ} (h : Effect t call outcome) :
    (outcome.request = none ∧ outcome.timers.getStartEvent = t.getStartEvent) ∨
      outcome.request = some (outcome.timers.setTrigger call.readings.trigger) := by
  have hretrigger : ∀ (t' : Timers φ) (now : TimePointNs),
      (retrigger t t' now = none ∧ t'.getStartEvent = t.getStartEvent) ∨
        retrigger t t' now = some (t'.setTrigger now) := by
    intro t' now
    unfold retrigger
    split
    · exact Or.inr rfl
    -- the start events compare equal, so nothing is armed
    · rename_i heq
      exact Or.inl ⟨rfl, (not_not.mp heq).symm⟩
  cases h with
  | setDead | cancelDead => exact Or.inl ⟨rfl, rfl⟩
  | set | cancel | cancelAll => exact hretrigger _ _
  | expired => exact Or.inr rfl

/-- An operation after which the first entry has the same owner and event leaves the entry alone, or
sets this timer again so that it stays the first: then the copy is the one made now. -/
theorem Effect.startEvent {call : TimersCall φ} {outcome : Outcome φ} (hcoupled : Coupled t)
    (h : Effect t call outcome) (hstart : outcome.timers.getStartEvent = t.getStartEvent) :
    outcome.timers.startEvent = t.startEvent ∨
      ∃ owner timer func timeout r, call = .setTimer (some owner) timer func timeout r ∧
        t.getStartEvent = some (owner, timer) ∧
        outcome.timers.startEvent = some ⟨owner, timer, func⟩ ∧
        ∀ p ∈ (t.without (owner, timer)).dateTriples, r.now + timeout < p.deadline := by
  have hsame (hmem : ∀ e, outcome.timers.timesByDate.begin? = some e → e ∈ t.timesByDate) :
      outcome.timers.startEvent = t.startEvent := by
    rw [Timers.startEvent, hcoupled.begin?_eq_of_mem hstart hmem, Timers.startEvent]
  have hkeep {p : Pending → Prop} [DecidablePred p] {e : TimePointNs × TimerRunnableId φ}
      (he : e ∈ (t.keep p).timesByDate) : e ∈ t.timesByDate := (List.mem_filter.mp he).1
  cases h with
  | setDead | cancelDead => exact .inl rfl
  | set owner timer func timeout r hfree =>
    cases hbegin : (t.put ⟨owner, timer, r.now + timeout⟩ func).timesByDate.begin? with
    | none => exact .inl (hsame fun e he => by rw [hbegin] at he; cases he)
    | some e =>
      obtain ⟨hmem, hleast⟩ := SortedMap.begin?_eq_some_iff.mp hbegin
      have hperm := SortedMap.emplace_perm (v := (⟨owner, timer, func⟩ : TimerRunnableId φ))
        (free_iff.mp hfree)
      rcases List.mem_cons.mp (hperm.mem_iff.mp hmem) with rfl | hold
      -- the timer that was set is the first one, before and after
      · refine .inr ⟨owner, timer, func, timeout, r, rfl, ?_, ?_, fun p hp => ?_⟩
        · rw [← hstart, getStartEvent, hbegin]
          rfl
        · rw [Timers.startEvent, hbegin]
          rfl
        · obtain ⟨e', he', rfl⟩ := List.mem_map.mp hp
          exact hleast e' (hperm.mem_iff.mpr (List.mem_cons_of_mem _ he'))
            fun heq => free_iff.mp hfree e' he' (congrArg Prod.fst heq)
      · refine .inl (hsame fun e' he' => ?_)
        cases hbegin.symm.trans he'
        exact hkeep hold
  | cancel | expired | cancelAll =>
    exact .inl (hsame fun e he => hkeep (SortedMap.begin?_eq_some_iff.mp he).1)

/-- Only `setTimer` adds a timer, and it adds its own. -/
theorem Effect.mem_dateTriples {call : TimersCall φ} {outcome : Outcome φ}
    (h : Effect t call outcome) {p : Pending} (hp : p ∈ outcome.timers.dateTriples) :
    p ∈ t.dateTriples ∨
      ∃ func timeout r, call = .setTimer (some p.owner) p.event func timeout r := by
  cases h with
  | setDead | cancelDead => exact Or.inl hp
  | set owner timer func timeout r hfree =>
    rcases (mem_dateTriples_put hfree).mp hp with rfl | ⟨hmem, -⟩
    · exact Or.inr ⟨func, timeout, r, rfl⟩
    · exact Or.inl hmem
  | cancel | expired => exact Or.inl (mem_dateTriples_without.mp hp).1
  | cancelAll => exact Or.inl (mem_dateTriples_keep.mp hp).1

/-- Every effect leaves coupled timers. -/
theorem Coupled.effect (h : Coupled t) {call : TimersCall φ} {outcome : Outcome φ}
    (heffect : Effect t call outcome) : Coupled outcome.timers := by
  cases heffect with
  | setDead | cancelDead => exact h
  | set owner timer func timeout r hfree => exact h.put hfree
  | cancel | expired => exact h.without _
  | cancelAll what r => exact h.keep (p := fun p => p.owner ≠ what)

/-! ## Runs -/

/-- A `setTimer` asks for a deadline that no other pending timer has. -/
def DistinctDeadline (t : Timers φ) : TimersCall φ → Prop
  | .setTimer (some owner) timer _ timeout r =>
    (t.without (owner, timer)).Free (r.now + timeout)
  | _ => True

instance (t : Timers φ) (call : TimersCall φ) : Decidable (t.DistinctDeadline call) :=
  match call with
  | .setTimer (some owner) timer _ timeout r =>
    inferInstanceAs (Decidable ((t.without (owner, timer)).Free (r.now + timeout)))
  | .setTimer none _ _ _ _ | .cancelTimer _ _ _ | .cancelAllTimers _ _ | .handleTimerExpired _ =>
    inferInstanceAs (Decidable True)

/-- `handleTimerExpired` is called only while a timer is pending. -/
def ExpiryPending (t : Timers φ) : TimersCall φ → Prop
  | .handleTimerExpired _ => t.timesByDate.begin? ≠ none
  | _ => True

instance (t : Timers φ) (call : TimersCall φ) : Decidable (t.ExpiryPending call) :=
  match call with
  | .handleTimerExpired _ => inferInstanceAs (Decidable (t.timesByDate.begin? ≠ none))
  | .setTimer _ _ _ _ _ | .cancelTimer _ _ _ | .cancelAllTimers _ _ =>
    inferInstanceAs (Decidable True)

theorem step_eq_ok_iff {call : TimersCall φ} {t' : Timers φ} :
    t.step call = .ok t' ↔ ∃ outcome, t.apply call = .ok outcome ∧ outcome.timers = t' := by
  unfold step
  cases t.apply call <;> simp [Except.map]

/-- **Step**: a call that goes through keeps the containers coupled. -/
theorem Coupled.step (h : Coupled t) {call : TimersCall φ} {t' : Timers φ}
    (hstep : t.step call = .ok t') : Coupled t' := by
  obtain ⟨outcome, happly, rfl⟩ := step_eq_ok_iff.mp hstep
  exact h.effect (h.effect_of_apply happly)

/-- **Step**: a call goes through exactly when its deadline is distinct. -/
theorem Coupled.step_ok_iff (h : Coupled t) {call : TimersCall φ} (hexp : t.ExpiryPending call) :
    (∃ t', t.step call = .ok t') ↔ t.DistinctDeadline call := by
  have hok : (∃ t', t.step call = .ok t') ↔ ∃ outcome, t.apply call = .ok outcome := by
    simp [step_eq_ok_iff]
  rw [hok]
  cases call with
  | setTimer owner timer func timeout r =>
    cases owner with
    | none => simp [apply, setTimer, DistinctDeadline]
    | some owner =>
      rw [apply, h.setTimer_eq, DistinctDeadline]
      split <;> simp [*]
  | cancelTimer owner timer r =>
    cases owner with
    | none => simp [apply, cancelTimer, DistinctDeadline]
    | some owner => simp [apply, h.cancelTimer_eq, DistinctDeadline]
  | cancelAllTimers what r => simp [apply, h.cancelAllTimers_eq, DistinctDeadline]
  | handleTimerExpired r =>
    obtain ⟨e, hfirst⟩ := Option.ne_none_iff_exists'.mp hexp
    simp [apply, h.handleTimerExpired_eq r hfirst, DistinctDeadline]

theorem coupled_of_run {calls : List (TimersCall φ)} (hrun : runFrom step empty calls = .ok t) :
    Coupled t :=
  runFrom_invariant Coupled (fun h hstep => h.step hstep) coupled_empty hrun

/-- No assertion fails during the calls, and after each of them the containers record the same
timers. -/
structure Consistent (calls : List (TimersCall φ)) : Prop where
  noTrap : ∀ e, runFrom step empty calls ≠ .error e
  sameTriples : ∀ pre t, pre <+: calls → runFrom step empty pre = .ok t →
    t.dateTriples.Perm t.ownerTriples

/-- **Agreement of the containers**: the calls leave the containers in agreement and trap nowhere
exactly when every `setTimer` asks for a deadline no other pending timer has. -/
theorem consistent_iff_distinctDeadlines (calls : List (TimersCall φ))
    (hexp : AllSteps step ExpiryPending empty calls) :
    Consistent calls ↔ AllSteps step DistinctDeadline empty calls := by
  -- the runs that go through are those with distinct deadlines, and they keep the coupling
  have hiff := exists_runFrom_ok_iff (fun h hexp => Coupled.step_ok_iff h hexp)
    (fun h _ hstep => Coupled.step h hstep) coupled_empty hexp
  rw [← hiff, exists_ok_iff_forall_ne_error]
  exact ⟨fun h => h.noTrap, fun h => ⟨h, fun _ _ _ hrun => (coupled_of_run hrun).same⟩⟩

/-- Two timers of different owners, one second apart in their deadlines. -/
theorem consistent_two_timers :
    Consistent [.setTimer (some 1) 10 'a' 1000000000 ⟨0, 0, 0, 0⟩,
      .setTimer (some 2) 20 'b' 2000000000 ⟨5, 6, 7, 8⟩, .handleTimerExpired ⟨9, 9, 9, 9⟩] :=
  (consistent_iff_distinctDeadlines _ (by decide)).mpr (by decide)

/-- Two timers of different owners that get the same deadline. -/
theorem not_consistent_same_deadline :
    ¬ ∀ calls : List (TimersCall Char),
      AllSteps step ExpiryPending empty calls → Consistent calls := by
  intro h
  have htrap : runFrom step empty [.setTimer (some 1) 10 'a' 7 ⟨0, 0, 0, 0⟩,
      .setTimer (some 2) 20 'b' 5 ⟨2, 2, 2, 2⟩] = .error .setTimerMismatch := by decide
  exact (h _ (by decide)).noTrap _ htrap

end Timers

end Epoller
