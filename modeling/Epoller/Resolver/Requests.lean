import Epoller.Resolver
import Epoller.Foundation.Runs

/-!
# Every Call Is Answered Once

Calls of `resolve` from any clients, interleaved with answers, errors and
timeouts for any request numbers. A call is owed one callback until it is
answered: at once if the name is cached, otherwise when its request leaves
`resQueries`. The loop of `queryTimedout` does not stop at the request that has
timed out.

## Contents

- `Requests`, `RequestStep`: the machine
- `OwnedBy`, `WellFormed`: a request belongs to one client
- `Balanced`, `LeavesWithCallback`: the calls that are still owed a callback
- `exactlyOnce_iff_timesOutAlone`: when every call is answered once
-/

namespace Epoller

open Foundation Query

/-! ## The Machine -/

/-- The client a call tells about its request. -/
def ResolverCall.callback? : ResolverCall → Option ClientPtr
  | resolved client _ | notResolved client => some client
  | create .. | disconnect _ | setTimer .. | cancelTimer _ => none

/-- The call makes a lookup. -/
def ResolverCall.isCreate : ResolverCall → Bool
  | create .. => true
  | resolved .. | notResolved _ | disconnect _ | setTimer .. | cancelTimer _ => false

/-- The resolver with what its clients have seen. -/
structure Requests where
  impl : ResolverImpl
  /-- The number of lookups that were made -/
  lookups : ℕ
  /-- The clients that were passed to `resolve`, one for each call -/
  called : List ClientPtr
  /-- The clients that were told `resolved` or `notResolved`, one for each callback -/
  callbacks : List ClientPtr
deriving DecidableEq

inductive RequestStep where
  | resolve (client : ClientPtr) (name : Bytes) (prefs : AddrPref) (timeout : NanoSecs)
  | requestComplete (reqNo : UInt16) (ans : Qanswer)
  | requestError (reqNo : UInt16)
  | queryTimedout (queryId : UInt16) (behind : List UInt16)

namespace Requests

def init : Requests := ⟨.init, 0, [], []⟩

/-- The resolver after a function of it has made the calls. -/
def record (s : Requests) (impl : ResolverImpl) (calls : List ResolverCall) : Requests :=
  { s with
    impl
    lookups := s.lookups + calls.countP ResolverCall.isCreate
    callbacks := s.callbacks ++ calls.filterMap ResolverCall.callback? }

def step (s : Requests) : RequestStep → Except ResolverHalt Requests
  | .resolve client name prefs timeout =>
    let (impl, calls) := s.impl.resolve s.lookups client name prefs timeout
    .ok { s.record impl calls with called := s.called ++ [client] }
  | .requestComplete reqNo ans => do
    let (impl, calls) ← s.impl.requestComplete reqNo ans
    .ok (s.record impl calls)
  | .requestError reqNo =>
    let (impl, calls) := s.impl.requestError reqNo
    .ok (s.record impl calls)
  | .queryTimedout queryId behind => do
    let (impl, calls) ← s.impl.queryTimedout queryId behind
    .ok (s.record impl calls)

/-! ## Requests and Their Clients -/

/-- The client is listed once for each answer to come, at least one. -/
def OwnedBy (query : ResolverQuery) (client : ClientPtr) : Prop :=
  ∃ n, query.clients = List.replicate (n + 1) client

/-- The requests that `resolve` makes, and what is left of them after some answers. -/
structure WellFormed (query : ResolverQuery) : Prop where
  owned : ∃ client, OwnedBy query client
  resolvers_nil : query.resolvers = [] ↔ query.prefs = .Ipv6Only

/-- The number of requests whose client is `client`. -/
def waiting (s : Requests) (client : ClientPtr) : ℕ :=
  s.impl.resQueries.tally fun query => query.clients.getLast? = some client

/-- Each call of `resolve` was answered once, or its request is outstanding and it was not
answered. -/
def Balanced (s : Requests) : Prop :=
  ∀ client, s.callbacks.count client + s.waiting client = s.called.count client

/-- A request that is outstanding before the step and not after it leaves alone, and the one
callback of the step is for its client. -/
def LeavesWithCallback (s s' : Requests) : Prop :=
  ∀ reqNo query, s.impl.resQueries.lookup reqNo = some query → reqNo ∉ s'.impl.resQueries →
    (∃ client, query.clients.getLast? = some client ∧ s'.callbacks = s.callbacks ++ [client]) ∧
      ∀ other ≠ reqNo, s'.impl.resQueries.lookup other = s.impl.resQueries.lookup other

/-- What every step should do. -/
def ExactlyOnce (s : Requests) (l : RequestStep) : Prop :=
  ∃ s', s.step l = .ok s' ∧ Balanced s' ∧ LeavesWithCallback s s'

/-- The step is possible, and the number of a new request is free. -/
def Possible (s : Requests) (l : RequestStep) : Prop :=
  s.step l ≠ .error .disabled ∧
    match l with
    | .resolve _ name _ _ => name ∉ s.impl.byName → s.impl.request ∉ s.impl.resQueries
    | .requestComplete .. | .requestError _ | .queryTimedout .. => True

/-- A request that times out has an entry in `resolvers`, and stands last in the order of
iteration. -/
def TimesOutAlone (s : Requests) : RequestStep → Prop
  | .queryTimedout queryId behind =>
    ∀ query, s.impl.resQueries.lookup queryId = some query →
      query.prefs ≠ .Ipv6Only ∧ behind = []
  | .resolve .. | .requestComplete .. | .requestError _ => True

instance (s : Requests) (l : RequestStep) : Decidable (Possible s l) :=
  match l with
  | .resolve _ name _ _ => inferInstanceAs (Decidable (_ ∧ (name ∉ s.impl.byName →
      s.impl.request ∉ s.impl.resQueries)))
  | .requestComplete .. | .requestError _ | .queryTimedout .. =>
    inferInstanceAs (Decidable (_ ∧ True))

instance (s : Requests) (l : RequestStep) : Decidable (TimesOutAlone s l) :=
  match l with
  | .queryTimedout queryId behind =>
    inferInstanceAs (Decidable (∀ query, s.impl.resQueries.lookup queryId = some query →
      query.prefs ≠ .Ipv6Only ∧ behind = []))
  | .resolve .. | .requestComplete .. | .requestError _ => inferInstanceAs (Decidable True)

variable {s s' : Requests} {l : RequestStep} {ls : List RequestStep} {query : ResolverQuery}
  {client owner : ClientPtr} {impl : ResolverImpl} {reqNo queryId : UInt16}

/-! ## One Request -/

theorem OwnedBy.getLast? (h : OwnedBy query client) : query.clients.getLast? = some client := by
  obtain ⟨n, hclients⟩ := h
  rw [hclients, List.getLast?_replicate]
  rfl

/-- After an answer that is not the last the request still belongs to its client. -/
theorem OwnedBy.dropLast (h : OwnedBy query client) (hrest : query.clients.dropLast ≠ []) :
    OwnedBy { query with clients := query.clients.dropLast } client := by
  obtain ⟨n, hclients⟩ := h
  rw [hclients, List.dropLast_replicate, Nat.add_sub_cancel] at hrest
  cases n with
  | zero => exact absurd rfl hrest
  | succ n => exact ⟨n, by rw [hclients, List.dropLast_replicate]; rfl⟩

theorem WellFormed.dropLast (h : WellFormed query) (hrest : query.clients.dropLast ≠ []) :
    WellFormed { query with clients := query.clients.dropLast } := by
  obtain ⟨client, howned⟩ := h.owned
  exact ⟨⟨client, howned.dropLast hrest⟩, h.resolvers_nil⟩

theorem newQuery_ownedBy (impl : ResolverImpl) (fresh : LookupPtr) (client : ClientPtr)
    (name : Bytes) (prefs : AddrPref) :
    OwnedBy (impl.newQuery fresh client name prefs).1 client := by
  cases prefs with
  | AnyAddr => exact ⟨1, rfl⟩
  | Ipv4Only | Ipv6Only => exact ⟨0, rfl⟩

theorem newQuery_wellFormed (impl : ResolverImpl) (fresh : LookupPtr) (client : ClientPtr)
    (name : Bytes) (prefs : AddrPref) : WellFormed (impl.newQuery fresh client name prefs).1 := by
  refine ⟨⟨client, newQuery_ownedBy ..⟩, ?_⟩
  cases prefs <;> simp [ResolverImpl.newQuery]

/-- Making a request answers nobody. -/
theorem newQuery_callbacks (impl : ResolverImpl) (fresh : LookupPtr) (client : ClientPtr)
    (name : Bytes) (prefs : AddrPref) :
    (impl.newQuery fresh client name prefs).2.filterMap ResolverCall.callback? = [] := by
  cases prefs <;> rfl

@[simp] theorem answer_callback? (client : ClientPtr) (found : Option IpAddr) :
    (ResolverImpl.answer client found).callback? = some client := by
  cases found <;> rfl

/-! ## Answers and Timeouts -/

/-- `requestComplete` finds a client. -/
theorem requestComplete_ok (ans : Qanswer)
    (h : ∀ query, impl.resQueries.lookup reqNo = some query → ∃ client, OwnedBy query client) :
    ∃ r, impl.requestComplete reqNo ans = .ok r := by
  cases hquery : impl.resQueries.lookup reqNo with
  | none => exact ⟨(impl, []), by simp only [ResolverImpl.requestComplete, hquery]⟩
  | some query =>
    obtain ⟨client, howned⟩ := h query hquery
    simp only [ResolverImpl.requestComplete, hquery, howned.getLast?]
    split
    · split <;> exact ⟨_, rfl⟩
    · exact ⟨_, rfl⟩

/-- A request that times out alone leaves with a callback to its client. -/
theorem queryTimedout_alone (hquery : impl.resQueries.lookup queryId = some query)
    (hform : WellFormed query) (howned : OwnedBy query client) (hprefs : query.prefs ≠ .Ipv6Only) :
    ∃ resolver, impl.queryTimedout queryId [] =
      .ok ({ impl with resQueries := impl.resQueries.erase queryId },
        [.disconnect resolver, .notResolved client]) := by
  have hnil : query.resolvers ≠ [] := fun h => hprefs (hform.resolvers_nil.mp h)
  refine ⟨query.resolvers.getLast hnil, ?_⟩
  have hround := ResolverImpl.timeoutRound_eq_ok_iff.mpr
    ⟨query, hquery, howned.getLast?, List.getLast?_eq_some_getLast hnil, rfl⟩
  rw [ResolverImpl.queryTimedout, if_pos (UnorderedMap.mem_iff_lookup.mpr ⟨query, hquery⟩),
    hround]
  rfl

/-! ## Steps -/

/-- All outstanding requests are well formed. -/
def AllWellFormed (s : Requests) : Prop :=
  ∀ reqNo query, s.impl.resQueries.lookup reqNo = some query → WellFormed query

/-- **Step**: requests stay well formed, whatever the step does. -/
theorem allWellFormed_step (h : AllWellFormed s) (hstep : s.step l = .ok s') :
    AllWellFormed s' := by
  cases l with
  | resolve client name prefs timeout =>
    cases hname : s.impl.byName.lookup name with
    | some names =>
      simp only [step, ResolverImpl.resolve_cached hname] at hstep
      cases hstep
      exact h
    | none =>
      simp only [step, ResolverImpl.resolve_uncached hname] at hstep
      cases hstep
      intro reqNo query hquery
      rcases UnorderedMap.lookup_insert_eq_some_iff.mp hquery with ⟨-, rfl⟩ | ⟨-, hquery⟩
      · exact newQuery_wellFormed ..
      · exact h reqNo query hquery
  | requestComplete reqNo ans =>
    obtain ⟨⟨impl, calls⟩, hcomplete, hs'⟩ := bind_eq_ok_iff.mp hstep
    cases hs'
    intro k query hquery
    cases ResolverImpl.completes_of_ok hcomplete with
    | ignored => exact h k query hquery
    | more hfound hclient hrest =>
      rcases UnorderedMap.lookup_insert_eq_some_iff.mp hquery with ⟨-, rfl⟩ | ⟨-, hquery⟩
      · exact (h reqNo _ hfound).dropLast hrest
      · exact h k query hquery
    | last => exact h k query (UnorderedMap.lookup_erase_eq_some_iff.mp hquery).2
  | requestError reqNo =>
    cases hstep
    exact h
  | queryTimedout queryId behind =>
    obtain ⟨⟨impl, calls⟩, htimeout, hs'⟩ := bind_eq_ok_iff.mp hstep
    cases hs'
    intro k query hquery
    by_cases hfound : queryId ∈ s.impl.resQueries
    · obtain ⟨resolvers, owner, hdrops, -⟩ := ResolverImpl.drops_of_queryTimedout hfound htimeout
      exact h k query (hdrops.kept k query hquery).1
    · obtain ⟨-, rfl, -⟩ := ResolverImpl.queryTimedout_late hfound htimeout
      exact h k query hquery

/-- A step that drops no request and answers nobody. -/
theorem leaves_of_kept (h : ∀ k, k ∈ s.impl.resQueries → k ∈ s'.impl.resQueries) :
    LeavesWithCallback s s' := fun k query hquery hgone =>
  absurd (h k (UnorderedMap.mem_iff_lookup.mpr ⟨query, hquery⟩)) hgone

/-- A step that drops one request and answers its client. -/
theorem leaves_of_erase (hquery : s.impl.resQueries.lookup reqNo = some query)
    (howned : OwnedBy query client)
    (herase : s'.impl.resQueries = s.impl.resQueries.erase reqNo)
    (hcallbacks : s'.callbacks = s.callbacks ++ [client]) : LeavesWithCallback s s' := by
  intro k other hother hgone
  -- only the erased request can have left
  have hk : k = reqNo := by
    by_contra hne
    rw [herase, AList.mem_erase] at hgone
    exact hgone ⟨hne, UnorderedMap.mem_iff_lookup.mpr ⟨other, hother⟩⟩
  subst hk
  rw [hquery] at hother
  cases hother
  exact ⟨⟨client, howned.getLast?, hcallbacks⟩, fun k hne => by
    rw [herase, AList.lookup_erase_ne hne]⟩

/-- Answering the client of a request that is dropped keeps the balance. -/
theorem balanced_of_erase (h : Balanced s) (hquery : s.impl.resQueries.lookup reqNo = some query)
    (howned : OwnedBy query owner)
    (herase : s'.impl.resQueries = s.impl.resQueries.erase reqNo)
    (hcallbacks : s'.callbacks = s.callbacks ++ [owner]) (hcalled : s'.called = s.called) :
    Balanced s' := by
  intro client
  have hbefore := h client
  rw [waiting, UnorderedMap.tally_erase hquery, howned.getLast?] at hbefore
  rw [waiting, herase, hcallbacks, hcalled, ← hbefore, List.count_append, List.count_singleton]
  by_cases howner : owner = client
  · simp only [howner, beq_self_eq_true, if_true]
    omega
  · have hne : ¬ some owner = some client := fun h => howner (Option.some.inj h)
    simp only [beq_iff_eq, howner, hne, if_false]
    omega

/-- **Step**: if a timeout concerns one request only, the step answers one call for each request
that leaves, and keeps the balance. -/
theorem exactlyOnce_of_timesOutAlone (h : AllWellFormed s) (hbalanced : Balanced s)
    (hpossible : Possible s l) (halone : TimesOutAlone s l) : ExactlyOnce s l := by
  cases l with
  | resolve client name prefs timeout =>
    cases hname : s.impl.byName.lookup name with
    | some names =>
      simp only [ExactlyOnce, step, ResolverImpl.resolve_cached hname]
      -- the call is answered at once
      refine ⟨_, rfl, fun c => ?_, leaves_of_kept fun k hk => hk⟩
      have hbefore := hbalanced c
      simp only [record, waiting, List.filterMap_cons, answer_callback?, List.filterMap_nil,
        List.count_append] at hbefore ⊢
      omega
    | none =>
      simp only [ExactlyOnce, step, ResolverImpl.resolve_uncached hname]
      have hfree := hpossible.2 (AList.lookup_eq_none.mp hname)
      have howned := newQuery_ownedBy s.impl s.lookups client name prefs
      refine ⟨_, rfl, fun c => ?_, leaves_of_kept fun k hk => AList.mem_insert _ |>.mpr (.inr hk)⟩
      -- the call waits with its request
      have hbefore := hbalanced c
      have hwaits : (some client = some c) ↔ client = c := Option.some_inj
      simp only [record, waiting, List.filterMap_append, newQuery_callbacks, List.filterMap_cons,
        ResolverCall.callback?, List.filterMap_nil, List.append_nil, List.count_append,
        UnorderedMap.tally_insert_of_notMem hfree, howned.getLast?, hwaits, List.count_singleton,
        beq_iff_eq] at hbefore ⊢
      omega
  | requestComplete reqNo ans =>
    obtain ⟨⟨impl, calls⟩, hcomplete⟩ := requestComplete_ok ans fun query hquery =>
      (h reqNo query hquery).owned
    refine ⟨s.record impl calls, by simp only [step, hcomplete]; rfl, ?_⟩
    cases ResolverImpl.completes_of_ok hcomplete with
    | ignored => exact ⟨by simpa [record, Balanced] using hbalanced, leaves_of_kept fun k hk => hk⟩
    | more hquery hclient hrest =>
      obtain ⟨client, howned⟩ := (h reqNo _ hquery).owned
      refine ⟨fun c => ?_, leaves_of_kept fun k hk => AList.mem_insert _ |>.mpr (.inr hk)⟩
      -- the request still belongs to the same client
      have hsame := UnorderedMap.tally_insert_of_iff (p := fun query : ResolverQuery =>
        query.clients.getLast? = some c) hquery
        (iff_of_eq (congrArg (· = some c)
          ((howned.dropLast hrest).getLast?.trans howned.getLast?.symm)))
      simp only [record, waiting, List.filterMap_nil, List.append_nil, hsame]
      exact hbalanced c
    | @last query client hquery hclient hrest =>
      obtain ⟨owner, howned⟩ := (h reqNo query hquery).owned
      rw [howned.getLast?] at hclient
      cases hclient
      have hcallbacks : ∀ impl timeout found, (s.record impl [.cancelTimer timeout,
          ResolverImpl.answer client found]).callbacks = s.callbacks ++ [client] := by
        intro impl timeout found
        cases found <;> rfl
      exact ⟨balanced_of_erase hbalanced hquery howned rfl (hcallbacks ..) rfl,
        leaves_of_erase hquery howned rfl (hcallbacks ..)⟩
  | requestError reqNo =>
    exact ⟨_, rfl, by simpa [record, Balanced, waiting, ResolverImpl.requestError] using hbalanced,
      leaves_of_kept fun k hk => hk⟩
  | queryTimedout queryId behind =>
    cases hquery : s.impl.resQueries.lookup queryId with
    | none =>
      have hgone : queryId ∉ s.impl.resQueries := AList.lookup_eq_none.mp hquery
      have hdefined := hpossible.1
      simp only [ExactlyOnce, step, ResolverImpl.queryTimedout, if_neg hgone] at hdefined ⊢
      split at hdefined
      · rename_i hbehind
        rw [if_pos hbehind]
        exact ⟨_, rfl, by simpa [record, Balanced, waiting] using hbalanced,
          leaves_of_kept fun k hk => hk⟩
      · exact absurd rfl hdefined
    | some query =>
      obtain ⟨hprefs, rfl⟩ := halone query hquery
      have hform := h queryId query hquery
      obtain ⟨client, howned⟩ := hform.owned
      obtain ⟨resolver, htimeout⟩ := queryTimedout_alone hquery hform howned hprefs
      simp only [ExactlyOnce, step, htimeout]
      exact ⟨_, rfl, balanced_of_erase hbalanced hquery howned rfl rfl rfl,
        leaves_of_erase hquery howned rfl rfl⟩

/-- **Step**: a timeout that takes another request along, or finds no entry in `resolvers`, does
not answer every call once. -/
theorem timesOutAlone_of_exactlyOnce (h : AllWellFormed s) (honce : ExactlyOnce s l) :
    TimesOutAlone s l := by
  cases l with
  | resolve | requestComplete | requestError => trivial
  | queryTimedout queryId behind =>
    intro query hquery
    have hfound : queryId ∈ s.impl.resQueries := UnorderedMap.mem_iff_lookup.mpr ⟨query, hquery⟩
    obtain ⟨s', hstep, -, hleaves⟩ := honce
    obtain ⟨⟨impl, calls⟩, htimeout, hs'⟩ := bind_eq_ok_iff.mp hstep
    cases hs'
    obtain ⟨resolvers, owner, hdrops, -⟩ := ResolverImpl.drops_of_queryTimedout hfound htimeout
    constructor
    · -- `back()` of `resolvers` was taken
      intro hprefs
      obtain ⟨other, resolver, hother, hresolver, -⟩ :=
        hdrops.found queryId (List.mem_cons_self ..)
      rw [hquery] at hother
      cases hother
      rw [(h queryId query hquery).resolvers_nil.mpr hprefs] at hresolver
      cases hresolver
    · -- a request behind this one left in the same step
      rw [List.eq_nil_iff_forall_not_mem]
      intro k hk
      have hne : k ≠ queryId := fun heq => (List.nodup_cons.mp hdrops.nodup).1 (heq ▸ hk)
      have hkept := (hleaves queryId query hquery (hdrops.gone (List.mem_cons_self ..))).2 k hne
      obtain ⟨other, resolver, hother, -⟩ := hdrops.found k (List.mem_cons_of_mem _ hk)
      exact hdrops.gone (List.mem_cons_of_mem _ hk)
        (UnorderedMap.mem_iff_lookup.mpr ⟨other, hkept.trans hother⟩)

/-! ## Runs -/

/-- **Every call is answered once**, and a request leaves only with the callback for its client, in
exactly those runs in which every request that times out has an entry in `resolvers` and stands
last in the order of iteration. -/
theorem exactlyOnce_iff_timesOutAlone (hpossible : AllSteps step Possible init ls) :
    AllSteps step ExactlyOnce init ls ↔ AllSteps step TimesOutAlone init ls := by
  have hinit : AllWellFormed init := fun reqNo query hquery => (by cases hquery)
  constructor
  · exact AllSteps.imp_of_invariant AllWellFormed timesOutAlone_of_exactlyOnce
      (fun h _ => allWellFormed_step h) hinit
  · intro halone
    refine AllSteps.imp_of_invariant (fun s => AllWellFormed s ∧ Balanced s)
      (fun h hl => exactlyOnce_of_timesOutAlone h.1 h.2 hl.1 hl.2)
      (fun h hl hstep => ⟨allWellFormed_step h.1 hstep, ?_⟩) ⟨hinit, fun client => rfl⟩
      (hpossible.and halone)
    obtain ⟨s', hs', hbalanced, -⟩ := exactlyOnce_of_timesOutAlone h.1 h.2 hl.1 hl.2
    rw [hstep] at hs'
    cases hs'
    exact hbalanced

/-- Two calls of one client for both families: the first is answered after its two lookups, the
second by its timeout. -/
def answeredOnceRun : List RequestStep :=
  [.resolve 1 [0x61] .AnyAddr 2, .resolve 1 [0x62] .AnyAddr 2,
    .requestComplete 0 ⟨true, 0, [0x61], [⟨IpAddr.ip4Prefix⟩], none, 0⟩,
    .requestError 1, .requestComplete 0 ⟨false, 0, [0x61], [], none, 0⟩,
    .queryTimedout 1 []]

theorem exactlyOnce_answeredOnceRun : AllSteps step ExactlyOnce init answeredOnceRun :=
  (exactlyOnce_iff_timesOutAlone (by decide +kernel)).mpr (by decide +kernel)

/-- The second of two requests times out and takes the first along: only client 2, of the first, is
told. -/
theorem not_exactlyOnce_two_requests :
    ¬ ∀ ls, AllSteps step Possible init ls → AllSteps step ExactlyOnce init ls := by
  intro h
  obtain ⟨s, hrun⟩ : ∃ s, runFrom step init [.resolve 2 [0x61] .Ipv4Only 2,
      .resolve 1 [0x62] .Ipv4Only 2, .queryTimedout 1 [0]] = .ok s := ⟨_, rfl⟩
  have hbalanced : Balanced s := by
    refine AllSteps.invariant Balanced (fun _ honce hstep => ?_) (fun client => rfl)
      (h _ (by decide +kernel)) hrun
    obtain ⟨s', hs', hbalanced, -⟩ := honce
    rw [hstep] at hs'
    cases hs'
    exact hbalanced
  -- client 1 has called once, has no request left and was not called back
  have hlost := hbalanced 1
  cases hrun
  exact absurd hlost (by decide)

end Requests

end Epoller
