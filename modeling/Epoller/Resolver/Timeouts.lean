import Epoller.Engine.OwnTimers
import Epoller.Resolver.Requests

/-!
# Every Request Times Out

The table of requests together with the timers of the engine. The event `timeout`
of a request is a member of its entry in `resQueries`; the timers know it by its
address, and a copy of it, which is bound to the number of the request, is armed and
goes to `eventQueue` when the timer expires. An entry that is dropped by the timeout
of another one leaves its timer behind, and the next entry can be made at the same
address. If that timer is the first, and stays it, the copy that is armed is the one
that was bound to the old number: the new request has no timeout.

A function of the resolver is one step, taken when it gets `timerLock`; what
`setTimerTrigger` then does are steps of the engine.

## Contents

- `TimedRequests`, `TimedStep`: the machine
- `Moves`: what the steps do
- `OnItsWay`, `Covered`: the timeout of an outstanding request
- `Rebinds`: a request whose timeout is not armed
- `expires_of_run`: no request stays for ever
-/

namespace Epoller

open Foundation Query Timers

/-! ## The Machine -/

/-- What the event of a timer calls -/
inductive TimerFunc where
  /-- `std::bind(&ResolverImpl::queryTimedout, this, queryId)` -/
  | queryTimedout (queryId : UInt16)
  /-- A function of another owner -/
  | other (func : ℕ)
deriving DecidableEq, Repr

/-- The number that an event of the resolver is bound to -/
def TimerEvent.timeout? (resolver : RunnablePtr) (event : TimerEvent TimerFunc) : Option UInt16 :=
  match event.func with
  | .queryTimedout queryId => if event.obj = resolver then some queryId else none
  | .other _ => none

/-- The requests, the timers of the engine, and the timeouts that have expired. -/
structure TimedRequests where
  requests : Requests
  /-- Where the event `timeout` of an entry of `resQueries` is; for a number without an entry it is
  out of date. -/
  node : UInt16 → EventPtr
  engine : EngineTimers TimerFunc
  /-- The events of timers on `eventQueue`, oldest first -/
  queued : List (TimerEvent TimerFunc)
  /-- The timeouts that workers have taken from it -/
  running : List UInt16

inductive TimedStep where
  /-- `resolve`; `place` is where a new entry would be made. -/
  | resolve (client : ClientPtr) (name : Bytes) (prefs : AddrPref) (timeout : NanoSecs)
      (place : EventPtr) (r : Readings)
  | requestComplete (reqNo : UInt16) (ans : Qanswer) (r : Readings)
  /-- A step of the engine that is not a call of the resolver -/
  | engine (l : EngineStep TimerFunc)
  /-- A worker takes the event of a timer from `eventQueue`. -/
  | pop
  /-- The worker runs it. -/
  | queryTimedout (queryId : UInt16) (behind : List UInt16)

/-- Why a step is refused. -/
inductive TimedHalt where
  | resolver (halt : ResolverHalt)
  | engine (halt : EngineHalt)
  /-- The step is not possible now. -/
  | disabled
deriving DecidableEq, Repr

/-- What the step is for the requests -/
def TimedStep.request? : TimedStep → Option RequestStep
  | .resolve client name prefs timeout _ _ => some (.resolve client name prefs timeout)
  | .requestComplete reqNo ans _ => some (.requestComplete reqNo ans)
  | .queryTimedout queryId behind => some (.queryTimedout queryId behind)
  | .engine _ | .pop => none

/-- A step on the way from a timer to `queryTimedout` -/
def TimedStep.IsTimeout : TimedStep → Prop
  | .engine l => EngineTimers.Drives l
  | .pop | .queryTimedout .. => True
  | .resolve .. | .requestComplete .. => False

/-- The step is a call for IPv6 addresses only. -/
def TimedStep.OnlyIpv6 : TimedStep → Prop
  | .resolve _ _ prefs _ _ _ => prefs = .Ipv6Only
  | .requestComplete .. | .engine _ | .pop | .queryTimedout .. => False

instance (l : TimedStep) : Decidable l.OnlyIpv6 :=
  match l with
  | .resolve _ _ prefs _ _ _ => inferInstanceAs (Decidable (prefs = .Ipv6Only))
  | .requestComplete .. | .engine _ | .pop | .queryTimedout .. => .isFalse id

namespace TimedRequests

def init : TimedRequests := ⟨.init, fun _ => 0, .init, [], []⟩

/-- A step of the engine; what `handleTimerExpired` has queued in it is on `eventQueue`. -/
def engineStep (s : TimedRequests) (l : EngineStep TimerFunc) : Except TimedHalt TimedRequests :=
  match s.engine.step l with
  | .ok engine =>
    .ok { s with
      engine
      queued := s.queued ++ engine.enqueued.drop s.engine.enqueued.length }
  | .error halt => .error (.engine halt)

/-- A call that the resolver makes while it holds its lock: the event of a request is bound to its
number. -/
def resolverCall (resolver : RunnablePtr) (r : Readings) (s : TimedRequests) :
    ResolverCall → Except TimedHalt TimedRequests
  | .setTimer reqNo timeout =>
    s.engineStep (.setTimer (some resolver) (s.node reqNo) (.queryTimedout reqNo) timeout r)
  | .cancelTimer reqNo => s.engineStep (.cancelTimer (some resolver) (s.node reqNo) r)
  | .resolved .. | .notResolved _ | .create .. | .disconnect _ => .ok s

/-- An entry of `resQueries` is at this address. -/
def Taken (s : TimedRequests) (event : EventPtr) : Prop :=
  ∃ k ∈ s.requests.impl.resQueries.keys, s.node k = event

instance (s : TimedRequests) (event : EventPtr) : Decidable (s.Taken event) :=
  inferInstanceAs (Decidable (∃ k ∈ s.requests.impl.resQueries.keys, s.node k = event))

/-- Where the event of the next request is: `operator[]` makes an entry only if there is none. -/
def address (s : TimedRequests) (place : EventPtr) : EventPtr :=
  if s.requests.impl.request ∈ s.requests.impl.resQueries then s.node s.requests.impl.request
  else place

def step (resolver : RunnablePtr) (s : TimedRequests) : TimedStep → Except TimedHalt TimedRequests
  | .resolve client name prefs timeout place r =>
    if s.Taken place then .error .disabled
    else
      let (impl, calls) := s.requests.impl.resolve s.requests.lookups client name prefs timeout
      let requests := { s.requests.record impl calls with called := s.requests.called ++ [client] }
      let node := Function.update s.node s.requests.impl.request (s.address place)
      calls.foldlM (resolverCall resolver r) { s with requests, node }
  | .requestComplete reqNo ans r =>
    match s.requests.impl.requestComplete reqNo ans with
    | .ok (impl, calls) =>
      calls.foldlM (resolverCall resolver r) { s with requests := s.requests.record impl calls }
    | .error halt => .error (.resolver halt)
  | .engine l => if l.IsForeign resolver then s.engineStep l else .error .disabled
  | .pop =>
    match s.queued with
    | event :: rest =>
      .ok { s with queued := rest, running := (event.timeout? resolver).toList ++ s.running }
    | [] => .error .disabled
  | .queryTimedout queryId behind =>
    if queryId ∈ s.running then
      match s.requests.impl.queryTimedout queryId behind with
      -- none of the calls it makes is for the timers
      | .ok (impl, calls) => .ok { s with
          requests := s.requests.record impl calls
          running := s.running.erase queryId }
      | .error halt => .error (.resolver halt)
    else .error .disabled

end TimedRequests

/-! ## Entries -/

namespace Requests

variable {s s' : Requests} {l : RequestStep} {k : UInt16} {query : ResolverQuery}

/-- An entry is new, or it was there, perhaps with more clients. -/
theorem entry_of_step (hstep : s.step l = .ok s')
    (hquery : s'.impl.resQueries.lookup k = some query) :
    (∃ client name prefs timeout, l = .resolve client name prefs timeout ∧ k = s.impl.request ∧
      query = (s.impl.newQuery s.lookups client name prefs).1) ∨
      ∃ clients, s.impl.resQueries.lookup k = some { query with clients } := by
  cases l with
  | resolve client name prefs timeout =>
    cases hname : s.impl.byName.lookup name with
    | some names =>
      simp only [step, ResolverImpl.resolve_cached hname] at hstep
      cases hstep
      exact .inr ⟨query.clients, hquery⟩
    | none =>
      simp only [step, ResolverImpl.resolve_uncached hname] at hstep
      cases hstep
      rcases UnorderedMap.lookup_insert_eq_some_iff.mp hquery with ⟨rfl, rfl⟩ | ⟨-, hold⟩
      · exact .inl ⟨client, name, prefs, timeout, rfl, rfl, rfl⟩
      · exact .inr ⟨query.clients, hold⟩
  | requestComplete reqNo ans =>
    obtain ⟨⟨impl, calls⟩, hcomplete, hs'⟩ := bind_eq_ok_iff.mp hstep
    cases hs'
    cases ResolverImpl.completes_of_ok hcomplete with
    | ignored => exact .inr ⟨query.clients, hquery⟩
    | more hfound =>
      rcases UnorderedMap.lookup_insert_eq_some_iff.mp hquery with ⟨rfl, rfl⟩ | ⟨-, hold⟩
      · exact .inr ⟨_, hfound⟩
      · exact .inr ⟨query.clients, hold⟩
    | last => exact .inr ⟨query.clients, (UnorderedMap.lookup_erase_eq_some_iff.mp hquery).2⟩
  | requestError reqNo =>
    cases hstep
    exact .inr ⟨query.clients, hquery⟩
  | queryTimedout queryId behind =>
    obtain ⟨⟨impl, calls⟩, htimeout, hs'⟩ := bind_eq_ok_iff.mp hstep
    cases hs'
    by_cases hfound : queryId ∈ s.impl.resQueries
    · obtain ⟨resolvers, owner, hdrops, -⟩ := ResolverImpl.drops_of_queryTimedout hfound htimeout
      exact .inr ⟨query.clients, (hdrops.kept k query hquery).1⟩
    · obtain ⟨-, rfl, -⟩ := ResolverImpl.queryTimedout_late hfound htimeout
      exact .inr ⟨query.clients, hquery⟩

/-- Each entry has the number it stands under in its event. -/
def Numbered (s : Requests) : Prop :=
  ∀ k query, s.impl.resQueries.lookup k = some query → query.timeout = k

theorem numbered_step (h : Numbered s) (hstep : s.step l = .ok s') : Numbered s' := by
  intro k query hquery
  rcases entry_of_step hstep hquery with ⟨client, name, prefs, timeout, -, rfl, rfl⟩ |
    ⟨clients, hold⟩
  · cases prefs <;> rfl
  · exact h k { query with clients } hold

end Requests

namespace TimedRequests

variable {resolver : RunnablePtr} {s s' : TimedRequests} {l : TimedStep} {ls : List TimedStep}
  {r : Readings} {number : UInt16}

/-! ## What the Steps Do -/

/-- The number has an entry. -/
def Outstanding (s : TimedRequests) (k : UInt16) : Prop := k ∈ s.requests.impl.resQueries

instance (s : TimedRequests) (k : UInt16) : Decidable (s.Outstanding k) :=
  inferInstanceAs (Decidable (k ∈ s.requests.impl.resQueries))

theorem engineStep_eq_ok_iff {m : EngineStep TimerFunc} : s.engineStep m = .ok s' ↔
    ∃ engine, s.engine.step m = .ok engine ∧ s' = { s with
      engine
      queued := s.queued ++ engine.enqueued.drop s.engine.enqueued.length } := by
  unfold engineStep
  cases s.engine.step m <;> simp [eq_comm]

/-- **Specification of the steps**: which entries there are, which step the engine takes, and what
becomes of the timeouts. -/
inductive Moves (resolver : RunnablePtr) (s : TimedRequests) :
    TimedStep → TimedRequests → Prop where
  /-- A call that is answered from the cache, and an answer that is too many or not the last -/
  | quiet {l : TimedStep} {s' : TimedRequests} (hl : ¬ l.IsTimeout)
      (hentries : ∀ k, s'.Outstanding k ↔ s.Outstanding k)
      (hnode : ∀ k, s.Outstanding k → s'.node k = s.node k) (hengine : s'.engine = s.engine)
      (hqueued : s'.queued = s.queued) (hrunning : s'.running = s.running) : Moves resolver s l s'
  /-- A new request; if there is an entry for its number, this one is overwritten. -/
  | start {client : ClientPtr} {name : Bytes} {prefs : AddrPref} {timeout : NanoSecs}
      {place : EventPtr} {r : Readings} {s' : TimedRequests}
      (hname : name ∉ s.requests.impl.byName) (hplace : ¬ s.Taken place)
      (hentries : ∀ k, s'.Outstanding k ↔ k = s.requests.impl.request ∨ s.Outstanding k)
      (hnode : s'.node = Function.update s.node s.requests.impl.request (s.address place))
      (hengine : s.engine.step (.setTimer (some resolver) (s.address place)
        (.queryTimedout s.requests.impl.request) timeout r) = .ok s'.engine)
      (hqueued : s'.queued = s.queued) (hrunning : s'.running = s.running) :
      Moves resolver s (.resolve client name prefs timeout place r) s'
  /-- The last answer -/
  | finish {reqNo : UInt16} {ans : Qanswer} {r : Readings} {s' : TimedRequests}
      (hfound : s.Outstanding reqNo)
      (hentries : ∀ k, s'.Outstanding k ↔ k ≠ reqNo ∧ s.Outstanding k)
      (hnode : s'.node = s.node)
      (hengine : s.engine.step (.cancelTimer (some resolver) (s.node reqNo) r) = .ok s'.engine)
      (hqueued : s'.queued = s.queued) (hrunning : s'.running = s.running) :
      Moves resolver s (.requestComplete reqNo ans r) s'
  | engine {m : EngineStep TimerFunc} {engine : EngineTimers TimerFunc}
      (hforeign : m.IsForeign resolver) (hengine : s.engine.step m = .ok engine) :
      Moves resolver s (.engine m) { s with
        engine
        queued := s.queued ++ engine.enqueued.drop s.engine.enqueued.length }
  | pop {event : TimerEvent TimerFunc} {rest : List (TimerEvent TimerFunc)}
      (hqueued : s.queued = event :: rest) :
      Moves resolver s .pop
        { s with queued := rest, running := (event.timeout? resolver).toList ++ s.running }
  | queryTimedout {queryId : UInt16} {behind : List UInt16} {requests : Requests}
      (hrunning : queryId ∈ s.running)
      (hentries : ∀ k, k ∈ requests.impl.resQueries → k ≠ queryId ∧ s.Outstanding k)
      (halone : behind = [] → ∀ k, k ≠ queryId → s.Outstanding k → k ∈ requests.impl.resQueries) :
      Moves resolver s (.queryTimedout queryId behind)
        { s with requests, running := s.running.erase queryId }

/-- The calls that make the lookups of a request are not for the timers. -/
theorem foldlM_newQuery (impl : ResolverImpl) (fresh : LookupPtr) (client : ClientPtr)
    (name : Bytes) (prefs : AddrPref) (call : ResolverCall) :
    ((impl.newQuery fresh client name prefs).2 ++ [call]).foldlM (resolverCall resolver r) s =
      resolverCall resolver r s call := by
  cases prefs <;>
    simp [ResolverImpl.newQuery, resolverCall, ok_bind]

theorem newQuery_timeout (impl : ResolverImpl) (fresh : LookupPtr) (client : ClientPtr)
    (name : Bytes) (prefs : AddrPref) :
    (impl.newQuery fresh client name prefs).1.timeout = impl.request := by
  cases prefs <;> rfl

/-- A call for a timer is a step of the engine that queues nothing. -/
theorem engineStep_call {m : EngineStep TimerFunc} {call : TimersCall TimerFunc}
    (hcall : EngineTimers.call? m = some call) (hstep : s.engineStep m = .ok s') :
    ∃ engine, s.engine.step m = .ok engine ∧ s' = { s with engine } := by
  obtain ⟨engine, hengine, rfl⟩ := engineStep_eq_ok_iff.mp hstep
  refine ⟨engine, hengine, ?_⟩
  rw [EngineTimers.enqueued_of_call hcall hengine, List.drop_length, List.append_nil]

/-- A callback is not for the timers. -/
theorem resolverCall_answer (client : ClientPtr) (found : Option IpAddr) :
    resolverCall resolver r s (ResolverImpl.answer client found) = .ok s := by
  cases found <;> rfl

/-- An answer, when it is the last, cancels the timer of its request. -/
theorem moves_requestComplete (hnumbered : s.requests.Numbered) {reqNo : UInt16} {ans : Qanswer}
    (hstep : s.step resolver (.requestComplete reqNo ans r) = .ok s') :
    Moves resolver s (.requestComplete reqNo ans r) s' := by
  simp only [step] at hstep
  split at hstep
  · rename_i impl calls hcomplete
    cases ResolverImpl.completes_of_ok hcomplete with
    | ignored =>
      cases hstep
      exact .quiet id (fun _ => Iff.rfl) (fun _ _ => rfl) rfl rfl rfl
    | more hquery =>
      cases hstep
      refine .quiet id (fun k => ?_) (fun _ _ => rfl) rfl rfl rfl
      exact (AList.mem_insert _).trans (or_iff_right_of_imp fun hk =>
        hk ▸ UnorderedMap.mem_iff_lookup.mpr ⟨_, hquery⟩)
    | last hquery =>
      rw [hnumbered _ _ hquery] at hstep
      rw [List.foldlM_cons] at hstep
      obtain ⟨t, ht, hs'⟩ := bind_eq_ok_iff.mp hstep
      obtain ⟨engine, hengine, rfl⟩ := engineStep_call rfl ht
      rw [List.foldlM_cons, resolverCall_answer, ok_bind] at hs'
      cases hs'
      exact .finish (UnorderedMap.mem_iff_lookup.mpr ⟨_, hquery⟩) (fun k => AList.mem_erase) rfl
        hengine rfl rfl
  · cases hstep

/-- A call that does not find its name in the cache makes a request and sets its timer. -/
theorem moves_resolve {client : ClientPtr} {name : Bytes} {prefs : AddrPref} {timeout : NanoSecs}
    {place : EventPtr}
    (hstep : s.step resolver (.resolve client name prefs timeout place r) = .ok s') :
    Moves resolver s (.resolve client name prefs timeout place r) s' := by
  simp only [step] at hstep
  split at hstep
  · cases hstep
  · rename_i hplace
    cases hname : s.requests.impl.byName.lookup name with
    | some names =>
      rw [ResolverImpl.resolve_cached hname] at hstep
      simp only [List.foldlM_cons, resolverCall_answer, ok_bind, List.foldlM_nil] at hstep
      cases hstep
      refine .quiet id (fun _ => Iff.rfl) (fun k hk => ?_) rfl rfl rfl
      -- only the address for a number without an entry may have changed
      simp only [Function.update_apply]
      split
      · rename_i heq
        rw [heq] at hk ⊢
        exact if_pos hk
      · rfl
    | none =>
      rw [ResolverImpl.resolve_uncached hname] at hstep
      simp only [foldlM_newQuery, newQuery_timeout] at hstep
      obtain ⟨engine, hengine, rfl⟩ := engineStep_call rfl hstep
      simp only [Function.update_self] at hengine
      exact .start (AList.lookup_eq_none.mp hname) hplace (fun k => AList.mem_insert _) rfl hengine
        rfl rfl

/-- The entries that a timeout leaves alone -/
theorem moves_queryTimedout {queryId : UInt16} {behind : List UInt16}
    (hstep : s.step resolver (.queryTimedout queryId behind) = .ok s') :
    Moves resolver s (.queryTimedout queryId behind) s' := by
  simp only [step] at hstep
  split at hstep
  · rename_i hrunning
    split at hstep
    · rename_i impl calls htimeout
      cases hstep
      refine .queryTimedout hrunning (fun k hk => ?_) fun hbehind k hne hk => ?_
      · by_cases hfound : queryId ∈ s.requests.impl.resQueries
        · obtain ⟨resolvers, owner, hdrops, -⟩ :=
            ResolverImpl.drops_of_queryTimedout hfound htimeout
          obtain ⟨query, hquery⟩ := UnorderedMap.mem_iff_lookup.mp hk
          obtain ⟨hlookup, hnot⟩ := hdrops.kept k query hquery
          exact ⟨fun heq => hnot (heq ▸ List.mem_cons_self ..),
            UnorderedMap.mem_iff_lookup.mpr ⟨query, hlookup⟩⟩
        · obtain ⟨-, rfl, -⟩ := ResolverImpl.queryTimedout_late hfound htimeout
          exact ⟨fun heq => hfound (heq ▸ hk), hk⟩
      · subst hbehind
        by_cases hfound : queryId ∈ s.requests.impl.resQueries
        · rw [ResolverImpl.queryTimedout, if_pos hfound] at htimeout
          obtain ⟨⟨t, client, resolver⟩, hround, hloop⟩ := bind_eq_ok_iff.mp htimeout
          obtain ⟨query, -, -, -, rfl⟩ := ResolverImpl.timeoutRound_eq_ok_iff.mp hround
          cases hloop
          exact AList.mem_erase.mpr ⟨hne, hk⟩
        · obtain ⟨-, rfl, -⟩ := ResolverImpl.queryTimedout_late hfound htimeout
          exact hk
    · cases hstep
  · cases hstep

theorem moves_of_step (hnumbered : s.requests.Numbered) (hstep : s.step resolver l = .ok s') :
    Moves resolver s l s' := by
  cases l with
  | resolve client name prefs timeout place r => exact moves_resolve hstep
  | requestComplete reqNo ans r => exact moves_requestComplete hnumbered hstep
  | engine m =>
    simp only [step] at hstep
    split at hstep
    · rename_i hforeign
      obtain ⟨engine, hengine, rfl⟩ := engineStep_eq_ok_iff.mp hstep
      exact .engine hforeign hengine
    · cases hstep
  | pop =>
    simp only [step] at hstep
    split at hstep
    · rename_i event rest hqueued
      cases hstep
      exact .pop hqueued
    · cases hstep
  | queryTimedout queryId behind => exact moves_queryTimedout hstep

/-! ## The Requests Alone -/

theorem engineStep_requests {m : EngineStep TimerFunc} (h : s.engineStep m = .ok s') :
    s'.requests = s.requests := by
  obtain ⟨engine, -, rfl⟩ := engineStep_eq_ok_iff.mp h
  rfl

theorem foldlM_requests {calls : List ResolverCall}
    (h : calls.foldlM (resolverCall resolver r) s = .ok s') : s'.requests = s.requests := by
  induction calls generalizing s with
  | nil =>
    cases h
    rfl
  | cons call calls ih =>
    obtain ⟨t, ht, hrest⟩ := bind_eq_ok_iff.mp h
    rw [ih hrest]
    cases call with
    | setTimer | cancelTimer => exact engineStep_requests ht
    | resolved | notResolved | create | disconnect =>
      cases ht
      rfl

/-- **Projection**: the timers decide when a request times out, and nothing else. -/
theorem requests_of_step (hstep : s.step resolver l = .ok s') :
    (∃ m, l.request? = some m ∧ s.requests.step m = .ok s'.requests) ∨
      (l.request? = none ∧ s'.requests = s.requests) := by
  cases l with
  | resolve client name prefs timeout place r =>
    simp only [step] at hstep
    split at hstep
    · cases hstep
    · left
      rw [foldlM_requests hstep]
      exact ⟨_, rfl, rfl⟩
  | requestComplete reqNo ans r =>
    simp only [step] at hstep
    split at hstep
    · rename_i hcomplete
      left
      rw [foldlM_requests hstep]
      refine ⟨_, rfl, ?_⟩
      simp only [Requests.step, hcomplete]
      rfl
    · cases hstep
  | engine m =>
    simp only [step] at hstep
    split at hstep
    · exact .inr ⟨rfl, engineStep_requests hstep⟩
    · cases hstep
  | pop =>
    simp only [step] at hstep
    split at hstep <;> cases hstep
    exact .inr ⟨rfl, rfl⟩
  | queryTimedout queryId behind =>
    simp only [step] at hstep
    split at hstep
    · split at hstep
      · rename_i htimeout
        cases hstep
        refine .inl ⟨_, rfl, ?_⟩
        simp only [Requests.step, htimeout]
        rfl
      · cases hstep
    · cases hstep

theorem numbered_of_step (h : s.requests.Numbered) (hstep : s.step resolver l = .ok s') :
    s'.requests.Numbered := by
  rcases requests_of_step hstep with ⟨m, -, hm⟩ | ⟨-, hsame⟩
  · exact Requests.numbered_step h hm
  · rwa [hsame]

/-! ## Events -/

/-- The engine goes on, an event is bound to the number of its entry, and no two entries have one
event. -/
structure Distinct (s : TimedRequests) : Prop where
  ticking : EngineTimers.Ticking s.engine
  numbered : s.requests.Numbered
  apart : ∀ k k', s.Outstanding k → s.Outstanding k' → s.node k = s.node k' → k = k'

theorem distinct_init : Distinct init :=
  ⟨⟨EngineTimers.inStep_init, EngineTimers.served_init⟩, fun k query h => (by cases h),
    fun k k' h => (by cases h)⟩

/-- The event of a new request is not that of another one. -/
theorem Distinct.node_ne_address (h : Distinct s) {place : EventPtr} (hplace : ¬ s.Taken place)
    {k : UInt16} (hk : s.Outstanding k) (hne : k ≠ s.requests.impl.request) :
    s.node k ≠ s.address place := by
  unfold address
  split
  · rename_i hfound
    exact fun heq => hne (h.apart _ _ hk hfound heq)
  · exact fun heq => hplace ⟨k, AList.mem_keys.mpr hk, heq⟩

/-- Every step of the machine is at most one step of the engine. -/
theorem Moves.ticking (h : Moves resolver s l s') (hticking : EngineTimers.Ticking s.engine) :
    EngineTimers.Ticking s'.engine := by
  cases h with
  | quiet hl hentries hnode hengine => rwa [hengine]
  | start hname hplace hentries hnode hengine => exact EngineTimers.ticking_step hticking hengine
  | finish hfound hentries hnode hengine => exact EngineTimers.ticking_step hticking hengine
  | engine hforeign hengine => exact EngineTimers.ticking_step hticking hengine
  | pop | queryTimedout => exact hticking

theorem distinct_step (h : Distinct s) (hstep : s.step resolver l = .ok s') : Distinct s' := by
  have hmoves := moves_of_step h.numbered hstep
  refine ⟨hmoves.ticking h.ticking, numbered_of_step h.numbered hstep, ?_⟩
  intro k k' hk hk'
  cases hmoves with
  | quiet hl hentries hnode =>
    rw [hentries] at hk hk'
    rw [hnode k hk, hnode k' hk']
    exact h.apart k k' hk hk'
  | start hname hplace hentries hnode =>
    rw [hentries] at hk hk'
    have hother : ∀ n, s.Outstanding n → n ≠ s.requests.impl.request → s.node n ≠ s.address _ :=
      fun n hn hne => h.node_ne_address hplace hn hne
    by_cases hnew : k = s.requests.impl.request <;> by_cases hnew' : k' = s.requests.impl.request
    · exact fun _ => hnew.trans hnew'.symm
    · rw [hnode, hnew, Function.update_self, Function.update_of_ne hnew']
      exact fun heq => absurd heq.symm (hother k' (hk'.resolve_left hnew') hnew')
    · rw [hnode, hnew', Function.update_self, Function.update_of_ne hnew]
      exact fun heq => absurd heq (hother k (hk.resolve_left hnew) hnew)
    · rw [hnode, Function.update_of_ne hnew, Function.update_of_ne hnew']
      exact h.apart k k' (hk.resolve_left hnew) (hk'.resolve_left hnew')
  | finish _ hentries hnode =>
    rw [hentries] at hk hk'
    rw [hnode]
    exact h.apart k k' hk.2 hk'.2
  | engine | pop => exact h.apart k k' hk hk'
  | queryTimedout _ hentries => exact h.apart k k' (hentries k hk).2 (hentries k' hk').2

/-! ## Timeouts -/

/-- The timeouts on `eventQueue`, oldest first -/
def timeouts (resolver : RunnablePtr) (s : TimedRequests) : List UInt16 :=
  s.queued.filterMap (TimerEvent.timeout? resolver)

/-- The copy that was made when the timer of the request was set -/
def timeoutEvent (resolver : RunnablePtr) (s : TimedRequests) (k : UInt16) :
    TimerEvent TimerFunc :=
  ⟨resolver, s.node k, .queryTimedout k⟩

/-- The timeout of a request is on its way: its timer pends, and the event of the timer is the copy
that is bound to its number, or this event is queued or with a worker. -/
def OnItsWay (resolver : RunnablePtr) (s : TimedRequests) (k : UInt16) : Prop :=
  s.timeoutEvent resolver k ∈ s.engine.timers.eventObjs ∨ k ∈ s.timeouts resolver ∨ k ∈ s.running

instance (resolver : RunnablePtr) (s : TimedRequests) (k : UInt16) :
    Decidable (OnItsWay resolver s k) :=
  inferInstanceAs (Decidable (_ ∈ _ ∨ _ ∈ _ ∨ _ ∈ _))

/-- The timeout of every outstanding request is on its way. -/
def Covered (resolver : RunnablePtr) (s : TimedRequests) : Prop :=
  ∀ k, s.Outstanding k → OnItsWay resolver s k

/-- The event of the new request is at the address of one that is pending as the first timer,
another copy of which is armed, and stays the first. -/
def Rebinds (resolver : RunnablePtr) (s : TimedRequests) : TimedStep → Prop
  | .resolve _ name _ timeout place r => name ∉ s.requests.impl.byName ∧
    s.engine.Reassigns (.setTimer (some resolver) (s.address place)
      (.queryTimedout s.requests.impl.request) timeout r)
  | .requestComplete .. | .engine _ | .pop | .queryTimedout .. => False

instance (resolver : RunnablePtr) (s : TimedRequests) (l : TimedStep) :
    Decidable (Rebinds resolver s l) :=
  match l with
  | .resolve _ name _ timeout place r => inferInstanceAs (Decidable (name ∉ _ ∧
      s.engine.Reassigns (.setTimer (some resolver) (s.address place)
        (.queryTimedout s.requests.impl.request) timeout r)))
  | .requestComplete .. | .engine _ | .pop | .queryTimedout .. => .isFalse id

/-- **Step**: the copies of the resolver stay current. -/
theorem Moves.currentFor (h : Moves resolver s l s') (hinStep : EngineTimers.InStep s.engine)
    (hcurrent : EngineTimers.CurrentFor resolver s.engine) (hrebinds : ¬ Rebinds resolver s l) :
    EngineTimers.CurrentFor resolver s'.engine := by
  cases h with
  | quiet hl hentries hnode hengine => rwa [hengine]
  | start hname hplace hentries hnode hengine =>
    refine EngineTimers.currentFor_step hinStep hcurrent ?_ hengine
    exact fun _ _ _ _ _ hreassigns => hrebinds ⟨hname, hreassigns⟩
  | finish hfound hentries hnode hengine =>
    exact EngineTimers.currentFor_step hinStep hcurrent (fun _ _ _ _ heq => by cases heq) hengine
  | engine hforeign hengine =>
    exact EngineTimers.currentFor_foreign hinStep hcurrent hforeign hengine
  | pop | queryTimedout => exact hcurrent

theorem timeout?_eq_some_iff {event : TimerEvent TimerFunc} {k : UInt16} :
    event.timeout? resolver = some k ↔ event.obj = resolver ∧ event.func = .queryTimedout k := by
  unfold TimerEvent.timeout?
  cases event.func <;> simp

/-- **Steps of the engine**: the copies of the resolver and the timeouts stay, or a timer of the
resolver expires. -/
theorem engine_timeouts (h : EngineTimers.InStep s.engine) {m : EngineStep TimerFunc}
    {engine : EngineTimers TimerFunc} (hforeign : m.IsForeign resolver)
    (hengine : s.engine.step m = .ok engine) (hs' : s' = { s with
      engine
      queued := s.queued ++ engine.enqueued.drop s.engine.enqueued.length }) :
    (s'.timeouts resolver = s.timeouts resolver ∧ ∀ x, x.obj = resolver →
      (x ∈ s'.engine.timers.eventObjs ↔ x ∈ s.engine.timers.eventObjs)) ∨
    ∃ event, event.obj = resolver ∧
      s'.timeouts resolver = s.timeouts resolver ++ (event.timeout? resolver).toList ∧
      (EngineTimers.CurrentFor resolver s.engine → event ∈ s.engine.timers.eventObjs) ∧
      ∀ x, x ∈ s'.engine.timers.eventObjs ↔
        x ∈ s.engine.timers.eventObjs ∧ x.key ≠ event.key := by
  subst hs'
  rcases EngineTimers.foreign_step h hforeign hengine with ⟨new, henqueued, hothers, hcopies⟩ |
    ⟨event, hobj, henqueued, hcurrent, hcopies⟩
  · refine .inl ⟨?_, hcopies⟩
    have hnone : new.filterMap (TimerEvent.timeout? resolver) = [] := by
      refine List.filterMap_eq_nil_iff.mpr fun x hx => Option.eq_none_iff_forall_ne_some.mpr ?_
      exact fun k hk => hothers x hx (timeout?_eq_some_iff.mp hk).1
    rw [timeouts, henqueued, List.drop_left, List.filterMap_append, hnone, List.append_nil,
      timeouts]
  · refine .inr ⟨event, hobj, ?_, hcurrent, hcopies⟩
    rw [timeouts, henqueued, List.drop_left, List.filterMap_append, timeouts]
    cases hevent : event.timeout? resolver <;> simp [hevent]

/-- **Step** -/
theorem covered_step (hdistinct : Distinct s)
    (hcurrent : EngineTimers.CurrentFor resolver s.engine) (h : Covered resolver s)
    (hstep : s.step resolver l = .ok s') : Covered resolver s' := by
  intro k hk
  have hinStep := hdistinct.ticking.1
  cases moves_of_step hdistinct.numbered hstep with
  | quiet hl hentries hnode hengine hqueued hrunning =>
    rw [hentries] at hk
    rw [OnItsWay, timeoutEvent, hnode k hk, hengine, timeouts, hqueued, hrunning]
    exact h k hk
  | start hname hplace hentries hnode hengine hqueued hrunning =>
    by_cases hnew : k = s.requests.impl.request
    · left
      rw [timeoutEvent, hnode, hnew, Function.update_self]
      exact (EngineTimers.mem_eventObjs_setTimer hinStep hengine).mpr (.inl rfl)
    -- an older request keeps its node, which the new one does not share
    · have hold : s.Outstanding k := ((hentries k).mp hk).resolve_left hnew
      have hother := hdistinct.node_ne_address hplace hold hnew
      rw [OnItsWay, timeoutEvent, hnode, timeouts, hqueued, hrunning, Function.update_of_ne hnew]
      refine (h k hold).imp_left fun hmem => ?_
      refine (EngineTimers.mem_eventObjs_setTimer hinStep hengine).mpr (.inr ⟨hmem, ?_⟩)
      exact fun hkey => hother (congrArg Prod.snd hkey)
  | finish hfound hentries hnode hengine hqueued hrunning =>
    obtain ⟨hne, hold⟩ := (hentries k).mp hk
    have hother : s.node k ≠ s.node _ := fun heq => hne (hdistinct.apart _ _ hold hfound heq)
    rw [OnItsWay, timeoutEvent, hnode, timeouts, hqueued, hrunning]
    refine (h k hold).imp_left fun hmem => ?_
    refine (EngineTimers.mem_eventObjs_cancelTimer hinStep hengine).mpr ⟨hmem, ?_⟩
    exact fun hkey => hother (congrArg Prod.snd hkey)
  | engine hforeign hengine =>
    rcases engine_timeouts hinStep hforeign hengine rfl with ⟨htimeouts, hcopies⟩ |
      ⟨event, hobj, htimeouts, hmem, hcopies⟩
    · rw [OnItsWay, htimeouts, hcopies _ rfl]
      exact h k hk
    · rcases h k hk with hcopy | hqueued | hrunning
      · by_cases hkey : (s.timeoutEvent resolver k).key = event.key
        · -- the event that is queued is the copy of this request
          obtain rfl : s.timeoutEvent resolver k = event :=
            hinStep.coupled.eventObj_eq_of_key_eq hcopy (hmem hcurrent) hkey
          have hnumber : (s.timeoutEvent resolver k).timeout? resolver = some k :=
            timeout?_eq_some_iff.mpr ⟨rfl, rfl⟩
          refine .inr (.inl ?_)
          rw [htimeouts, hnumber]
          exact List.mem_append_right _ (List.mem_singleton_self k)
        · exact .inl ((hcopies _).mpr ⟨hcopy, hkey⟩)
      · refine .inr (.inl ?_)
        rw [htimeouts]
        exact List.mem_append_left _ hqueued
      · exact .inr (.inr hrunning)
  | @pop event rest hqueued =>
    rcases h k hk with hcopy | hmem | hrunning
    · exact .inl hcopy
    · rw [timeouts, hqueued] at hmem
      obtain ⟨x, hx, hnumber⟩ := List.mem_filterMap.mp hmem
      rcases List.mem_cons.mp hx with rfl | hrest
      · refine .inr (.inr (List.mem_append_left _ ?_))
        rw [hnumber]
        exact List.mem_singleton_self k
      · exact .inr (.inl (List.mem_filterMap.mpr ⟨x, hrest, hnumber⟩))
    · exact .inr (.inr (List.mem_append_right _ hrunning))
  | queryTimedout hrunning hentries =>
    obtain ⟨hne, hold⟩ := hentries k hk
    -- the timeout that has run was not that of a request that is left
    exact (h k hold).imp_right fun hmem => hmem.imp_right (List.mem_erase_of_ne hne).mpr

/-! ## Time Passes -/

/-- What the engine, the pending timers and the timeouts under way can take at most -/
def left (s : TimedRequests) : ℕ :=
  s.engine.work + 2 * s.queued.length + s.running.length

/-- The numbers `behind` can stand behind `k` when its timeout runs. -/
def StandsBehind (s : TimedRequests) (k : UInt16) (behind : List UInt16) : Prop :=
  (k :: behind).Nodup ∧ (∀ n ∈ behind, s.Outstanding n) ∧ (¬ s.Outstanding k → behind = [])

/-- **Step**: the timeouts come to an end. -/
theorem left_step (hdistinct : Distinct s) (hl : l.IsTimeout)
    (hstep : s.step resolver l = .ok s') : s'.left < s.left := by
  cases moves_of_step hdistinct.numbered hstep with
  | quiet hquiet => exact absurd hl hquiet
  | start | finish => exact hl.elim
  | engine hforeign hengine =>
    have hless := EngineTimers.work_step hdistinct.ticking.1 hl hengine
    have hgrows := (EngineTimers.enqueued_grows hengine).length_le
    simp only [left, List.length_append, List.length_drop]
    omega
  | @pop event rest hqueued =>
    have hone : (event.timeout? resolver).toList.length ≤ 1 := by
      cases event.timeout? resolver <;> simp
    simp only [left, hqueued, List.length_cons, List.length_append]
    omega
  | queryTimedout hrunning =>
    have hpos := List.length_pos_of_mem hrunning
    simp only [left, List.length_erase_of_mem hrunning]
    omega

/-- Timeouts take no more steps than there is left to do. -/
theorem left_run (hdistinct : Distinct s) (hls : ∀ l ∈ ls, l.IsTimeout)
    (hrun : runFrom (step resolver) s ls = .ok s') : ls.length + s'.left ≤ s.left := by
  induction ls generalizing s with
  | nil =>
    cases hrun
    simp
  | cons l ls ih =>
    obtain ⟨t, hstep, hrun'⟩ := runFrom_cons_eq_ok.mp hrun
    obtain ⟨hl, hls'⟩ := List.forall_mem_cons.mp hls
    have hless := left_step hdistinct hl hstep
    have hrest := ih (distinct_step hdistinct hstep) hls' hrun'
    rw [List.length_cons]
    omega

/-! ## Timeouts Go Through -/

/-- A request has a client to tell and a lookup to disconnect. -/
def Answerable (query : ResolverQuery) : Prop := query.clients ≠ [] ∧ query.resolvers ≠ []

/-- Requests are answerable. -/
def AllAnswerable (impl : ResolverImpl) : Prop :=
  ∀ k query, impl.resQueries.lookup k = some query → Answerable query

/-- The loop of `queryTimedout` comes to its end, whatever the order of the entries. -/
theorem timeoutLoop_ok {impl : ResolverImpl} {behind : List UInt16}
    (hanswerable : AllAnswerable impl) (hnodup : behind.Nodup)
    (hbehind : ∀ n ∈ behind, n ∈ impl.resQueries) (client : ClientPtr) (calls : List ResolverCall) :
    ∃ r, ResolverImpl.timeoutLoop behind impl client calls = .ok r := by
  induction behind generalizing impl client calls with
  | nil => exact ⟨_, rfl⟩
  | cons n behind ih =>
    obtain ⟨hn, hbehind⟩ := List.forall_mem_cons.mp hbehind
    obtain ⟨hnot, hnodup⟩ := List.nodup_cons.mp hnodup
    obtain ⟨query, hquery⟩ := UnorderedMap.mem_iff_lookup.mp hn
    obtain ⟨hclients, hresolvers⟩ := hanswerable n query hquery
    have hround := ResolverImpl.timeoutRound_eq_ok_iff.mpr ⟨query, hquery,
      List.getLast?_eq_some_getLast hclients, List.getLast?_eq_some_getLast hresolvers, rfl⟩
    rw [ResolverImpl.timeoutLoop, hround, ok_bind]
    -- the other entries are still there
    refine ih (fun k other hk => hanswerable k other ?_) hnodup (fun k hk => ?_) _ _
    · exact (UnorderedMap.lookup_erase_eq_some_iff.mp hk).2
    · exact AList.mem_erase.mpr ⟨fun heq => hnot (heq ▸ hk), hbehind k hk⟩

theorem queryTimedout_ok (hanswerable : AllAnswerable s.requests.impl) {k : UInt16}
    (hrunning : k ∈ s.running) {behind : List UInt16} (hbehind : s.StandsBehind k behind) :
    ∃ t, s.step resolver (.queryTimedout k behind) = .ok t := by
  obtain ⟨hnodup, hfound, halone⟩ := hbehind
  have htimeout : ∃ r, s.requests.impl.queryTimedout k behind = .ok r := by
    by_cases hk : k ∈ s.requests.impl.resQueries
    · rw [ResolverImpl.queryTimedout, if_pos hk]
      have hall : ∀ k' ∈ k :: behind, k' ∈ s.requests.impl.resQueries :=
        List.forall_mem_cons.mpr ⟨hk, hfound⟩
      exact timeoutLoop_ok hanswerable hnodup hall 0 []
    · rw [ResolverImpl.queryTimedout, if_neg hk, if_pos (halone hk)]
      exact ⟨_, rfl⟩
  obtain ⟨⟨impl, calls⟩, hr⟩ := htimeout
  simp only [step, if_pos hrunning, hr]
  exact ⟨_, rfl⟩

/-- As long as a timeout is on its way, a step towards it is possible. -/
theorem exists_timeout (hdistinct : Distinct s) (hanswerable : AllAnswerable s.requests.impl)
    {k : UInt16} (h : OnItsWay resolver s k) :
    ∃ l t, l.IsTimeout ∧ s.step resolver l = .ok t := by
  rcases h with hcopy | hqueued | hrunning
  · obtain ⟨m, engine, hm, hengine⟩ := EngineTimers.exists_drives hdistinct.ticking
      (EngineTimers.isPending_iff.mpr ⟨_, hcopy, rfl⟩)
    have hforeign : m.IsForeign resolver := by
      cases m with
      | setTimer | cancelTimer | add | eraseFromHash | cancelAllTimers | tick => exact hm.elim
      | setTimerTrigger | handleTimerExpired | epollWait | kernelExpire => trivial
    have hstep : ∃ t, s.step resolver (.engine m) = .ok t := by
      simp only [step, if_pos hforeign]
      exact ⟨_, engineStep_eq_ok_iff.mpr ⟨engine, hengine, rfl⟩⟩
    obtain ⟨t, ht⟩ := hstep
    exact ⟨.engine m, t, hm, ht⟩
  · obtain ⟨event, hmem, -⟩ := List.mem_filterMap.mp hqueued
    obtain ⟨first, rest, hcons⟩ := List.exists_cons_of_ne_nil (List.ne_nil_of_mem hmem)
    have hstep : ∃ t, s.step resolver .pop = .ok t := by
      simp only [step, hcons]
      exact ⟨_, rfl⟩
    obtain ⟨t, ht⟩ := hstep
    exact ⟨.pop, t, trivial, ht⟩
  · have hbehind : s.StandsBehind k [] := ⟨List.nodup_singleton k, by simp, fun _ => rfl⟩
    obtain ⟨t, hstep⟩ := queryTimedout_ok hanswerable hrunning hbehind
    exact ⟨.queryTimedout k [], t, trivial, hstep⟩

/-- What holds of the requests when nobody asks for IPv6 addresses only. -/
structure Kept (s : TimedRequests) : Prop where
  distinct : Distinct s
  wellFormed : s.requests.AllWellFormed
  prefs : ∀ k query, s.requests.impl.resQueries.lookup k = some query → query.prefs ≠ .Ipv6Only

theorem kept_init : Kept init :=
  ⟨distinct_init, fun k query h => (by cases h), fun k query h => (by cases h)⟩

theorem Kept.answerable (h : Kept s) : AllAnswerable s.requests.impl := by
  intro k query hquery
  have hform := h.wellFormed k query hquery
  obtain ⟨client, n, hclients⟩ := hform.owned
  refine ⟨?_, fun hnil => h.prefs k query hquery (hform.resolvers_nil.mp hnil)⟩
  rw [hclients]
  exact List.cons_ne_nil _ _

theorem kept_step (h : Kept s) (hl : ¬ l.OnlyIpv6) (hstep : s.step resolver l = .ok s') :
    Kept s' := by
  refine ⟨distinct_step h.distinct hstep, ?_, ?_⟩
  · rcases requests_of_step hstep with ⟨m, -, hm⟩ | ⟨-, hsame⟩
    · exact Requests.allWellFormed_step h.wellFormed hm
    · rw [hsame]
      exact h.wellFormed
  · intro k query hquery
    rcases requests_of_step hstep with ⟨m, hlabel, hm⟩ | ⟨-, hsame⟩
    · rcases Requests.entry_of_step hm hquery with ⟨client, name, prefs, timeout, rfl, -, rfl⟩ |
        ⟨clients, hold⟩
      · -- the preference is that of the call
        have hprefs : prefs ≠ .Ipv6Only := by
          cases l with
          | resolve => cases hlabel; exact hl
          | requestComplete | queryTimedout | engine | pop => cases hlabel
        cases prefs with
        | AnyAddr | Ipv4Only => exact hprefs
        | Ipv6Only => exact absurd rfl hprefs
      · exact h.prefs k { query with clients } hold
    · rw [hsame] at hquery
      exact h.prefs k query hquery

/-! ## Runs -/

theorem distinct_of_run (hrun : runFrom (step resolver) init ls = .ok s) : Distinct s :=
  runFrom_invariant Distinct distinct_step distinct_init hrun

/-- The invariant of a run in which the timeout of every request is armed -/
structure Timely (resolver : RunnablePtr) (s : TimedRequests) : Prop where
  distinct : Distinct s
  current : EngineTimers.CurrentFor resolver s.engine
  covered : Covered resolver s

theorem timely_init : Timely resolver init :=
  ⟨distinct_init, EngineTimers.currentFor_init resolver, fun k hk => (by cases hk)⟩

theorem timely_step (h : Timely resolver s) (hl : ¬ Rebinds resolver s l)
    (hstep : s.step resolver l = .ok s') : Timely resolver s' where
  distinct := distinct_step h.distinct hstep
  current := (moves_of_step h.distinct.numbered hstep).currentFor h.distinct.ticking.1 h.current hl
  covered := covered_step h.distinct h.current h.covered hstep

/-- Where no timer is left and nothing is under way, no such step is possible. -/
theorem step_ne_ok_of_isTimeout (hqueued : s.queued = []) (hrunning : s.running = [])
    (hfree : s.engine.arming = none) (hnotified : s.engine.notified = false)
    (hfd : s.engine.timerFd.readable = false ∧ s.engine.timerFd.expiry = none)
    (hl : l.IsTimeout) (t : TimedRequests) : s.step resolver l ≠ .ok t := by
  cases l with
  | resolve | requestComplete => exact hl.elim
  | pop => simp [step, hqueued]
  | queryTimedout => simp [step, hrunning]
  | engine m =>
    have hnone : ∀ engine, s.engine.step m ≠ .ok engine := by
      cases m with
      | setTimer | cancelTimer | add | eraseFromHash | cancelAllTimers | tick => exact hl.elim
      | setTimerTrigger => simp [EngineTimers.step, hfree]
      | handleTimerExpired =>
        simp [EngineTimers.step, EngineTimers.handleTimerExpired, hnotified]
      | epollWait => simp [EngineTimers.step, hfd.1]
      | kernelExpire => simp [EngineTimers.step, hfd.2]
    intro hstep
    simp only [step] at hstep
    split at hstep
    · obtain ⟨engine, hengine, -⟩ := engineStep_eq_ok_iff.mp hstep
      exact hnone engine hengine
    · cases hstep

/-- A step on the way of a timeout makes no request. -/
theorem not_rebinds_of_isTimeout (hl : l.IsTimeout) : ¬ Rebinds resolver s l := by
  cases l with
  | resolve => exact hl.elim
  | requestComplete | engine | pop | queryTimedout => exact id

/-- **Every request times out**: in a run in which no request is made at the address of an event
that is armed for another number, the timeout of each outstanding request is on its way. If nobody
asks for IPv6 addresses only, every timeout that a worker runs comes to its end, whatever the order
of the entries; and when time passes without a call or an answer, the timeouts come to an end, in
such a run not before no request is outstanding. -/
theorem expires_of_run (hrun : runFrom (step resolver) init ls = .ok s) :
    (AllSteps (step resolver) (fun s l => ¬ Rebinds resolver s l) init ls → Covered resolver s) ∧
      ((∀ l ∈ ls, ¬ l.OnlyIpv6) → ∀ ms s', (∀ l ∈ ms, l.IsTimeout) →
        runFrom (step resolver) s ms = .ok s' →
        ms.length + s'.left ≤ s.left ∧
        (∀ k ∈ s'.running, ∀ behind, s'.StandsBehind k behind →
          ∃ t, s'.step resolver (.queryTimedout k behind) = .ok t) ∧
        (AllSteps (step resolver) (fun s l => ¬ Rebinds resolver s l) init ls →
          (∀ l t, l.IsTimeout → s'.step resolver l ≠ .ok t) → ∀ k, ¬ s'.Outstanding k)) := by
  have htimely (hrebinds : AllSteps (step resolver) (fun s l => ¬ Rebinds resolver s l) init ls) :
      Timely resolver s :=
    hrebinds.invariant (Timely resolver) timely_step timely_init hrun
  refine ⟨fun hrebinds => (htimely hrebinds).covered, fun hprefs ms s' hms hrun' => ?_⟩
  have hall : ∀ l ∈ ls ++ ms, ¬ l.OnlyIpv6 := by
    intro l hl
    rcases List.mem_append.mp hl with hl | hl
    · exact hprefs l hl
    · have htimeout := hms l hl
      cases l with
      | resolve => exact htimeout.elim
      | requestComplete | engine | pop | queryTimedout => exact id
  have hrun'' : runFrom (step resolver) init (ls ++ ms) = .ok s' := by
    rw [runFrom_append_ok hrun, hrun']
  have hkept : Kept s' := AllSteps.invariant Kept kept_step kept_init
    (AllSteps.of_forall_mem (P := fun l => ¬ TimedStep.OnlyIpv6 l) hall) hrun''
  refine ⟨left_run (distinct_of_run hrun) hms hrun', fun k hk behind hbehind =>
    queryTimedout_ok hkept.answerable hk hbehind, fun hrebinds hstuck k hk => ?_⟩
  have hcovered : Timely resolver s' :=
    AllSteps.invariant (Timely resolver)
      (fun h hl hstep => timely_step h (not_rebinds_of_isTimeout hl) hstep) (htimely hrebinds)
      (AllSteps.of_forall_mem (P := TimedStep.IsTimeout) hms) hrun'
  obtain ⟨l, t, hl, ht⟩ := exists_timeout hkept.distinct hkept.answerable (hcovered.covered k hk)
  exact hstuck l t hl ht

/-- The timer of the first of two calls has expired, and that of the second is armed. -/
def firstExpired : List TimedStep :=
  [.resolve 1 [0x61] .AnyAddr 10 5 ⟨0, 0, 0, 0⟩, .engine .setTimerTrigger,
    .engine .setTimerTrigger, .engine .setTimerTrigger,
    .resolve 2 [0x62] .Ipv4Only 10 6 ⟨5, 5, 5, 5⟩, .engine .kernelExpire, .engine .epollWait,
    .engine (.handleTimerExpired ⟨10, 10, 10, 10⟩), .engine .setTimerTrigger,
    .engine .setTimerTrigger, .engine .setTimerTrigger, .pop]

/-- Its timeout runs; then the timer of the second call expires, and its timeout runs. -/
def secondExpired : List TimedStep :=
  [.queryTimedout 0 [], .engine .kernelExpire, .engine .epollWait,
    .engine (.handleTimerExpired ⟨15, 15, 15, 15⟩), .engine .setTimerTrigger, .pop,
    .queryTimedout 1 []]

/-- The timeout of the first call comes to its end also if it takes the second along; if it does
not, the timeout of the second comes to its end, too, and then no request is left. -/
theorem expires_two_requests : ∃ s, runFrom (step 9) init firstExpired = .ok s ∧ OnItsWay 9 s 1 ∧
    (∃ t, s.step 9 (.queryTimedout 0 [1]) = .ok t) ∧
    ∃ s', runFrom (step 9) s secondExpired = .ok s' ∧ 7 + s'.left ≤ s.left ∧
      ∀ k, ¬ s'.Outstanding k := by
  obtain ⟨s, hrun, hrunning, hfirst, hsecond⟩ : ∃ s, runFrom (step 9) init firstExpired = .ok s ∧
      0 ∈ s.running ∧ s.Outstanding 0 ∧ s.Outstanding 1 := by
    decide +kernel
  obtain ⟨s', hrun', hqueued, hrunning', hfree, hnotified, hfd⟩ : ∃ s',
      runFrom (step 9) init (firstExpired ++ secondExpired) = .ok s' ∧ s'.queued = [] ∧
      s'.running = [] ∧ s'.engine.arming = none ∧ s'.engine.notified = false ∧
      s'.engine.timerFd.readable = false ∧ s'.engine.timerFd.expiry = none := by
    decide +kernel
  rw [runFrom_append_ok hrun] at hrun'
  obtain ⟨hcovered, hafter⟩ := expires_of_run hrun
  have hprefs : ∀ l ∈ firstExpired, ¬ l.OnlyIpv6 := by decide
  have hrebinds : AllSteps (step 9) (fun s l => ¬ Rebinds 9 s l) init firstExpired := by
    decide +kernel
  have htimeouts : ∀ l ∈ secondExpired, l.IsTimeout := by
    simp [secondExpired, TimedStep.IsTimeout, EngineTimers.Drives]
  refine ⟨s, hrun, hcovered hrebinds 1 hsecond, ?_, s', hrun', ?_⟩
  · refine (hafter hprefs [] s (by simp) rfl).2.1 0 hrunning [1] ⟨by decide, ?_, ?_⟩
    · exact List.forall_mem_singleton.mpr hsecond
    · exact fun hgone => absurd hfirst hgone
  · obtain ⟨hleft, -, hdone⟩ := hafter hprefs _ s' htimeouts hrun'
    exact ⟨hleft, hdone hrebinds fun l t hl =>
      step_ne_ok_of_isTimeout hqueued hrunning' hfree hnotified hfd hl t⟩

/-- The entry of the third call is made where that of the second was, whose timer is armed: the
number that is queued when it expires is the second one, and the third call has no timeout. -/
theorem not_covered_place_reused :
    ¬ ∀ ls s, runFrom (step 9) init ls = .ok s → Covered 9 s := by
  intro h
  obtain ⟨s, hrun, hfound, hnever⟩ : ∃ s, runFrom (step 9) init (firstExpired ++
      [.queryTimedout 0 [1], .resolve 3 [0x63] .Ipv4Only 10 6 ⟨12, 12, 12, 12⟩,
        .engine .kernelExpire, .engine .epollWait,
        .engine (.handleTimerExpired ⟨15, 15, 15, 15⟩)]) = .ok s ∧
      s.Outstanding 2 ∧ ¬ OnItsWay 9 s 2 := by
    decide +kernel
  exact hnever (h _ s hrun 2 hfound)

end TimedRequests

end Epoller
