import Epoller.Resolver
import Epoller.Foundation.Runs

/-!
# The Resolver and Its Lookups

The resolver with the UDP socket of each lookup: a worker that has found the
socket in `eventHash` is inside its handlers until it leaves, also when the socket
is removed meanwhile. `UdpResolver::received` removes the socket, decodes the
datagram and then waits for the lock of the resolver, so it takes two steps. What
`Query::decode` returns is a parameter of the machine.

- `UdpResolver`, `LookupStage`: a lookup, and a worker inside its socket
- `ResolverSystem`, `LookupStep`: the states and the labels
- `ResolverSystem.step`: the machine
- `ResolverSystem.Moves`, `moves_of_step`: everything a step can do
-/

namespace Epoller

open Foundation Query

/-! ## States -/

/-- The reader of datagrams; it is told the readings of the clock. -/
abbrev Decoder := (ℕ → TimePointNs) → Bytes → Except OutOfBounds Qanswer

/-- `UdpResolver`: the members that never change, and the number of the call it was made for -/
structure UdpResolver where
  requestNo : UInt16
  name : Bytes
  qType : Qtype
  call : ℕ
deriving DecidableEq, Repr

/-- Where a worker inside the socket of a lookup is. -/
inductive LookupStage where
  /-- `Engine::run` has found the socket in `eventHash`. -/
  | entered
  /-- `received` has removed the socket and decoded the datagram. -/
  | answered (ans : Qanswer)
  /-- `received` has returned. -/
  | returned
deriving DecidableEq, Repr

/-- A call of `resolve`: who asked for what. -/
structure Question where
  client : ClientPtr
  name : Bytes
  prefs : AddrPref
deriving DecidableEq, Repr

/-- A callback: the call it answers, the client it goes to, and the address of `resolved`. -/
structure Report where
  question : Option Question
  /-- The index in `asked`; a call that finds its name has none. -/
  call : Option ℕ
  client : ClientPtr
  found : Option IpAddr
deriving DecidableEq, Repr

/-- A datagram that reached `received`, and what was read from it. -/
structure Delivery where
  lookup : LookupPtr
  datagram : Bytes
  ans : Qanswer
deriving DecidableEq, Repr

/-- The resolver, its lookups, and a record of what has happened. -/
structure ResolverSystem where
  impl : ResolverImpl
  /-- The lookups, in the order they were made -/
  lookups : List UdpResolver
  /-- The lookups whose socket is in `Engine::eventHash` -/
  eventHash : Finset LookupPtr
  workers : List (LookupPtr × LookupStage)
  /-- The calls that did not find their name, in order -/
  asked : List Question
  /-- The last call that was given a request number -/
  owner : UnorderedMap UInt16 ℕ
  /-- The lookups whose answer has reached `requestComplete` -/
  completed : Finset LookupPtr
  /-- The calls whose request was dropped by `queryTimedout` -/
  timedOut : List ℕ
  delivered : List Delivery
  reports : List Report

/-- A step of a client, a worker or the timer. -/
inductive LookupStep where
  | resolve (client : ClientPtr) (name : Bytes) (prefs : AddrPref) (timeout : NanoSecs)
  /-- `Engine::run` looks for the socket of the lookup. -/
  | enter (lookup : LookupPtr)
  /-- `received` up to the lock of the resolver; `clock` are the readings during `decode`. -/
  | received (lookup : LookupPtr) (datagram : Bytes) (clock : ℕ → TimePointNs)
  /-- The rest of `received` -/
  | requestComplete (lookup : LookupPtr) (ans : Qanswer)
  | notSent (lookup : LookupPtr)
  /-- The worker is done with the socket. -/
  | leave (lookup : LookupPtr) (stage : LookupStage)
  | queryTimedout (queryId : UInt16) (behind : List UInt16)

namespace ResolverSystem

def init : ResolverSystem := ⟨.init, [], ∅, [], [], ∅, ∅, [], [], []⟩

/-! ## Parts of the Steps -/

/-- `UdpSocket::disconnect`, that is `Engine::remove` of a socket that exists -/
def remove (s : ResolverSystem) (lookup : LookupPtr) : Except ResolverHalt ResolverSystem :=
  if lookup ∈ s.eventHash then .ok { s with eventHash := s.eventHash.erase lookup }
  else .error .notFoundForRemoval

/-- The socket of the lookup exists: the engine or a worker holds it. -/
def alive (s : ResolverSystem) (lookup : LookupPtr) : Bool :=
  decide (lookup ∈ s.eventHash) || s.workers.any fun w => w.1 == lookup

/-- What the calls of the resolver do to the sockets; the new lookups are made for `call`. -/
def perform (s : ResolverSystem) (call : ℕ) : List ResolverCall →
    Except ResolverHalt ResolverSystem
  | [] => .ok s
  | .create requestNo name qType :: calls =>
    let s : ResolverSystem := { s with
      lookups := s.lookups ++ [⟨requestNo, name, qType, call⟩]
      eventHash := insert s.lookups.length s.eventHash }
    s.perform call calls
  | .disconnect lookup :: calls =>
    if s.alive lookup = true then do
      let s ← s.remove lookup
      s.perform call calls
    else s.perform call calls
  | .resolved .. :: calls | .notResolved _ :: calls | .setTimer .. :: calls
  | .cancelTimer _ :: calls => s.perform call calls

/-- The callbacks among the calls, as answers to `question`, which is the call of index `call`. -/
def reported (question : Option Question) (call : Option ℕ) : List ResolverCall → List Report
  | [] => []
  | .resolved client addr :: calls =>
    ⟨question, call, client, some addr⟩ :: reported question call calls
  | .notResolved client :: calls => ⟨question, call, client, none⟩ :: reported question call calls
  | .create .. :: calls | .disconnect _ :: calls | .setTimer .. :: calls
  | .cancelTimer _ :: calls => reported question call calls

/-- The call that the request of this number was stored for. -/
def questionOf (s : ResolverSystem) (reqNo : UInt16) : Option Question :=
  (s.owner.lookup reqNo).bind fun call => s.asked[call]?

/-- The callbacks among the calls made for the request of this number. -/
def reportedFor (s : ResolverSystem) (reqNo : UInt16) (calls : List ResolverCall) : List Report :=
  reported (s.questionOf reqNo) (s.owner.lookup reqNo) calls

/-- A worker goes from one stage to the next, or leaves. -/
def advance (s : ResolverSystem) (lookup : LookupPtr) (stage : LookupStage)
    (next : Option LookupStage) : ResolverSystem :=
  { s with
    workers := (next.map fun stage => (lookup, stage)).toList ++ s.workers.erase (lookup, stage) }

/-! ## Steps -/

/-- The step of a worker that is at `stage` inside the socket of a lookup. -/
def workerStep (s : ResolverSystem) (lookup : LookupPtr) (stage : LookupStage)
    (body : UdpResolver → Except ResolverHalt ResolverSystem) :
    Except ResolverHalt ResolverSystem :=
  if (lookup, stage) ∈ s.workers then
    match s.lookups[lookup]? with
    | some resolver => body resolver
    | none => .error .disabled
  else .error .disabled

/-- `decode` is what the resolver calls as `Query::decode`. -/
def step (decode : Decoder) (s : ResolverSystem) :
    LookupStep → Except ResolverHalt ResolverSystem
  | .resolve client name prefs timeout => do
    let question : Question := ⟨client, name, prefs⟩
    let (impl, calls) := s.impl.resolve s.lookups.length client name prefs timeout
    let t ← s.perform s.asked.length calls
    let t := { t with impl, reports := t.reports ++ reported (some question) none calls }
    if name ∈ s.impl.byName then .ok t
    else
      .ok { t with
        asked := t.asked ++ [question]
        owner := t.owner.insert s.impl.request t.asked.length }
  | .enter lookup =>
    if lookup ∈ s.eventHash then .ok { s with workers := (lookup, .entered) :: s.workers }
    else .error .disabled
  | .received lookup datagram clock =>
    s.workerStep lookup .entered fun _ => do
      let s ← s.remove lookup
      match decode clock datagram with
      | .ok ans =>
        .ok { s.advance lookup .entered (some (.answered ans)) with
          delivered := s.delivered ++ [⟨lookup, datagram, ans⟩] }
      | .error _ => .error .outOfBounds
  | .requestComplete lookup ans =>
    s.workerStep lookup (.answered ans) fun resolver => do
      let (impl, calls) ← s.impl.requestComplete resolver.requestNo ans
      .ok { s.advance lookup (.answered ans) (some .returned) with
        impl
        completed := insert lookup s.completed
        reports := s.reports ++ s.reportedFor resolver.requestNo calls }
  | .notSent lookup =>
    -- the worker goes on: `handleRead` may follow in the same run
    s.workerStep lookup .entered fun resolver => do
      let s ← s.remove lookup
      .ok { s with impl := (s.impl.requestError resolver.requestNo).1 }
  | .leave lookup stage =>
    match stage with
    | .answered _ => .error .disabled
    | .entered | .returned => s.workerStep lookup stage fun _ => .ok (s.advance lookup stage none)
  | .queryTimedout queryId behind => do
    let (impl, calls) ← s.impl.queryTimedout queryId behind
    let t ← s.perform s.asked.length calls
    let dropped := if queryId ∈ s.impl.resQueries then queryId :: behind else []
    .ok { t with
      impl
      timedOut := t.timedOut ++ dropped.filterMap s.owner.lookup
      reports := t.reports ++ s.reportedFor (behind.getLastD queryId) calls }

/-! ## What a Step Does -/

/-- The lookups that a call makes if its name is not in the cache. -/
def newLookups (call : ℕ) (requestNo : UInt16) (name : Bytes) (prefs : AddrPref) :
    List UdpResolver :=
  (if prefs ≠ .Ipv4Only then [⟨requestNo, name, Qtype.Aaaa, call⟩] else []) ++
    (if prefs ≠ .Ipv6Only then [⟨requestNo, name, Qtype.A, call⟩] else [])

variable {decode : Decoder} {s s' : ResolverSystem}

/-- **Specification of `step`**: everything a step can do. -/
inductive Moves (decode : Decoder) (s : ResolverSystem) : LookupStep → ResolverSystem → Prop where
  | cached {client : ClientPtr} {name : Bytes} {prefs : AddrPref} {timeout : NanoSecs}
      {names : ResolverImpl.Names} (hname : s.impl.byName.lookup name = some names) :
      Moves decode s (.resolve client name prefs timeout) { s with
        impl := { s.impl with byName := s.impl.byName.insert name (names.get prefs).1 }
        reports := s.reports ++ [⟨some ⟨client, name, prefs⟩, none, client, (names.get prefs).2⟩] }
  | uncached {client : ClientPtr} {name : Bytes} {prefs : AddrPref} {timeout : NanoSecs}
      (hname : s.impl.byName.lookup name = none) :
      Moves decode s (.resolve client name prefs timeout) { s with
        impl := { s.impl with
          resQueries := s.impl.resQueries.insert s.impl.request
            (s.impl.newQuery s.lookups.length client name prefs).1
          request := s.impl.request + 1 }
        lookups := s.lookups ++ newLookups s.asked.length s.impl.request name prefs
        eventHash := s.eventHash ∪ Finset.Ico s.lookups.length (s.lookups ++
          newLookups s.asked.length s.impl.request name prefs).length
        asked := s.asked ++ [⟨client, name, prefs⟩]
        owner := s.owner.insert s.impl.request s.asked.length }
  | enter {lookup : LookupPtr} (hfound : lookup ∈ s.eventHash) :
      Moves decode s (.enter lookup) { s with workers := (lookup, .entered) :: s.workers }
  | received {lookup : LookupPtr} {datagram : Bytes} {clock : ℕ → TimePointNs} {ans : Qanswer}
      (hmem : (lookup, .entered) ∈ s.workers) (hfound : lookup ∈ s.eventHash)
      (hans : decode clock datagram = .ok ans) :
      Moves decode s (.received lookup datagram clock)
        { s.advance lookup .entered (some (.answered ans)) with
          eventHash := s.eventHash.erase lookup
          delivered := s.delivered ++ [⟨lookup, datagram, ans⟩] }
  /-- No request has the number of the lookup. -/
  | ignored {lookup : LookupPtr} {ans : Qanswer} {resolver : UdpResolver}
      (hmem : (lookup, .answered ans) ∈ s.workers) (hresolver : s.lookups[lookup]? = some resolver)
      (hgone : s.impl.resQueries.lookup resolver.requestNo = none) :
      Moves decode s (.requestComplete lookup ans)
        { s.advance lookup (.answered ans) (some .returned) with
          completed := insert lookup s.completed }
  /-- The request waits for more answers. -/
  | more {lookup : LookupPtr} {ans : Qanswer} {resolver : UdpResolver} {query : ResolverQuery}
      (hmem : (lookup, .answered ans) ∈ s.workers) (hresolver : s.lookups[lookup]? = some resolver)
      (hquery : s.impl.resQueries.lookup resolver.requestNo = some query)
      (hrest : query.clients.dropLast ≠ []) :
      Moves decode s (.requestComplete lookup ans)
        { s.advance lookup (.answered ans) (some .returned) with
          impl := { s.impl with
            resQueries := s.impl.resQueries.insert resolver.requestNo
              { query with clients := query.clients.dropLast }
            byName := s.impl.stored ans }
          completed := insert lookup s.completed }
  /-- The last answer to a request -/
  | last {lookup : LookupPtr} {ans : Qanswer} {resolver : UdpResolver} {query : ResolverQuery}
      {client : ClientPtr} (hmem : (lookup, .answered ans) ∈ s.workers)
      (hresolver : s.lookups[lookup]? = some resolver)
      (hquery : s.impl.resQueries.lookup resolver.requestNo = some query)
      (hclient : query.clients.getLast? = some client) (hrest : query.clients.dropLast = []) :
      Moves decode s (.requestComplete lookup ans)
        { s.advance lookup (.answered ans) (some .returned) with
          impl := { s.impl with
            resQueries := s.impl.resQueries.erase resolver.requestNo
            byName := (s.impl.outcome ans query.prefs).1 }
          completed := insert lookup s.completed
          reports := s.reports ++ [⟨s.questionOf resolver.requestNo,
            s.owner.lookup resolver.requestNo, client, (s.impl.outcome ans query.prefs).2⟩] }
  | notSent {lookup : LookupPtr} (hmem : (lookup, .entered) ∈ s.workers)
      (hfound : lookup ∈ s.eventHash) :
      Moves decode s (.notSent lookup) { s with eventHash := s.eventHash.erase lookup }
  | leave {lookup : LookupPtr} {stage : LookupStage} (hmem : (lookup, stage) ∈ s.workers)
      (hstage : ∀ ans, stage ≠ .answered ans) :
      Moves decode s (.leave lookup stage) (s.advance lookup stage none)
  /-- The request that times out has left already. -/
  | late {queryId : UInt16} (hgone : queryId ∉ s.impl.resQueries) :
      Moves decode s (.queryTimedout queryId []) s
  | queryTimedout {queryId : UInt16} {behind : List UInt16} {impl : ResolverImpl}
      {resolvers : List LookupPtr} {hash : Finset LookupPtr} {client : ClientPtr}
      (hdrops : s.impl.Drops (queryId :: behind) impl resolvers) (hsub : hash ⊆ s.eventHash)
      (hremoved : ∀ lookup ∈ resolvers, lookup ∉ hash) :
      Moves decode s (.queryTimedout queryId behind) { s with
        impl
        eventHash := hash
        timedOut := s.timedOut ++ (queryId :: behind).filterMap s.owner.lookup
        reports := s.reports ++ [⟨s.questionOf (behind.getLastD queryId),
          s.owner.lookup (behind.getLastD queryId), client, none⟩] }

theorem workerStep_eq_ok_iff {lookup : LookupPtr} {stage : LookupStage}
    {body : UdpResolver → Except ResolverHalt ResolverSystem} :
    s.workerStep lookup stage body = .ok s' ↔ (lookup, stage) ∈ s.workers ∧
      ∃ resolver, s.lookups[lookup]? = some resolver ∧ body resolver = .ok s' := by
  unfold workerStep
  split
  · split <;> simp [*]
  · simp [*]

/-- The workers after one of them has moved. -/
theorem mem_advance {lookup i : LookupPtr} {stage stage' : LookupStage}
    {next : Option LookupStage} (h : (i, stage') ∈ (s.advance lookup stage next).workers) :
    (i = lookup ∧ next = some stage') ∨ (i, stage') ∈ s.workers := by
  rcases List.mem_append.mp h with h | h
  · cases next with
    | none => cases h
    | some stage =>
      cases List.mem_singleton.mp h
      exact .inl ⟨rfl, rfl⟩
  · exact .inr (List.mem_of_mem_erase h)

theorem remove_eq_ok_iff {lookup : LookupPtr} :
    s.remove lookup = .ok s' ↔ lookup ∈ s.eventHash ∧
      s' = { s with eventHash := s.eventHash.erase lookup } := by
  unfold remove
  split
  · simp [*, eq_comm]
  · simp [*]

@[simp] theorem reported_answer (question : Option Question) (call : Option ℕ)
    (client : ClientPtr) (found : Option IpAddr) :
    reported question call [ResolverImpl.answer client found] =
      [⟨question, call, client, found⟩] := by
  cases found <;> rfl

theorem perform_answer (s : ResolverSystem) (call : ℕ) (client : ClientPtr)
    (found : Option IpAddr) : s.perform call [ResolverImpl.answer client found] = .ok s := by
  cases found <;> rfl

/-- What `resolve` does to the sockets. -/
theorem perform_newQuery (s : ResolverSystem) (client : ClientPtr) (name : Bytes)
    (prefs : AddrPref) (timeout : NanoSecs) :
    s.perform s.asked.length ((s.impl.newQuery s.lookups.length client name prefs).2 ++
        [.setTimer (s.impl.newQuery s.lookups.length client name prefs).1.timeout timeout]) =
      .ok { s with
        lookups := s.lookups ++ newLookups s.asked.length s.impl.request name prefs
        eventHash := s.eventHash ∪ Finset.Ico s.lookups.length (s.lookups ++
          newLookups s.asked.length s.impl.request name prefs).length } := by
  cases prefs <;>
    simp only [ResolverImpl.newQuery, newLookups, perform, List.nil_append, List.append_nil,
      List.cons_append, ne_eq, reduceCtorEq, not_true_eq_false,
      not_false_eq_true, if_true, if_false, List.append_assoc, List.length_append,
      List.length_cons, List.length_nil, Except.ok.injEq]
  all_goals
    congr 1
    ext i
    simp only [Finset.mem_insert, Finset.mem_union, Finset.mem_Ico]
    grind

/-- What `queryTimedout` does to the sockets: those it locks are removed. -/
theorem perform_disconnects {call : ℕ} {resolvers : List LookupPtr} {owner : ClientPtr}
    (h : s.perform call (resolvers.map ResolverCall.disconnect ++ [.notResolved owner]) = .ok s') :
    ∃ hash, s' = { s with eventHash := hash } ∧ hash ⊆ s.eventHash ∧
      ∀ lookup ∈ resolvers, lookup ∉ hash := by
  induction resolvers generalizing s with
  | nil =>
    cases h
    exact ⟨_, rfl, subset_rfl, fun lookup hmem => (by cases hmem)⟩
  | cons resolver rest ih =>
    simp only [List.map_cons, List.cons_append, perform] at h
    split at h
    · obtain ⟨t, hremove, hrest⟩ := bind_eq_ok_iff.mp h
      obtain ⟨-, rfl⟩ := remove_eq_ok_iff.mp hremove
      obtain ⟨hash, hs', hsub, hremoved⟩ := ih hrest
      refine ⟨hash, hs', hsub.trans (Finset.erase_subset _ _), fun lookup hmem => ?_⟩
      rcases List.mem_cons.mp hmem with rfl | hmem
      · exact fun hin => Finset.notMem_erase _ _ (hsub hin)
      · exact hremoved lookup hmem
    · rename_i hdead
      obtain ⟨hash, hs', hsub, hremoved⟩ := ih h
      refine ⟨hash, hs', hsub, fun lookup hmem => ?_⟩
      rcases List.mem_cons.mp hmem with rfl | hmem
      -- a socket that does not exist is not registered
      · intro hin
        simp [alive, hsub hin] at hdead
      · exact hremoved lookup hmem

/-- The one callback of `queryTimedout`. -/
theorem reported_disconnects (question : Option Question) (call : Option ℕ)
    (resolvers : List LookupPtr) (owner : ClientPtr) :
    reported question call (resolvers.map ResolverCall.disconnect ++ [.notResolved owner]) =
      [⟨question, call, owner, none⟩] := by
  induction resolvers with
  | nil => rfl
  | cons resolver rest ih => exact ih

/-- A call that does not find its name. -/
theorem step_uncached {client : ClientPtr} {name : Bytes} {prefs : AddrPref} {timeout : NanoSecs}
    (hname : s.impl.byName.lookup name = none) :
    s.step decode (.resolve client name prefs timeout) = .ok { s with
      impl := { s.impl with
        resQueries := s.impl.resQueries.insert s.impl.request
          (s.impl.newQuery s.lookups.length client name prefs).1
        request := s.impl.request + 1 }
      lookups := s.lookups ++ newLookups s.asked.length s.impl.request name prefs
      eventHash := s.eventHash ∪ Finset.Ico s.lookups.length (s.lookups ++
        newLookups s.asked.length s.impl.request name prefs).length
      asked := s.asked ++ [⟨client, name, prefs⟩]
      owner := s.owner.insert s.impl.request s.asked.length } := by
  have hmem : name ∉ s.impl.byName := AList.lookup_eq_none.mp hname
  have hnone : reported (some ⟨client, name, prefs⟩) none
      ((s.impl.newQuery s.lookups.length client name prefs).2 ++
        [.setTimer (s.impl.newQuery s.lookups.length client name prefs).1.timeout timeout]) =
      [] := by
    cases prefs <;> rfl
  simp only [step, ResolverImpl.resolve_uncached hname, perform_newQuery, ok_bind, hmem, if_false,
    hnone, List.append_nil]

theorem moves_of_step {l : LookupStep} (hstep : s.step decode l = .ok s') :
    Moves decode s l s' := by
  cases l with
  | resolve client name prefs timeout =>
    cases hname : s.impl.byName.lookup name with
    | some names =>
      have hmem : name ∈ s.impl.byName := UnorderedMap.mem_iff_lookup.mpr ⟨names, hname⟩
      simp only [step, ResolverImpl.resolve_cached hname, perform_answer, ok_bind, hmem, if_true,
        reported_answer] at hstep
      cases hstep
      exact .cached hname
    | none =>
      rw [step_uncached hname] at hstep
      cases hstep
      exact .uncached hname
  | enter lookup =>
    simp only [step] at hstep
    split at hstep <;> cases hstep
    rename_i hfound
    exact .enter hfound
  | received lookup datagram clock =>
    obtain ⟨hmem, resolver, -, hbody⟩ := workerStep_eq_ok_iff.mp hstep
    obtain ⟨t, hremove, hbody⟩ := bind_eq_ok_iff.mp hbody
    obtain ⟨hfound, rfl⟩ := remove_eq_ok_iff.mp hremove
    split at hbody <;> cases hbody
    rename_i ans hans
    exact .received hmem hfound hans
  | requestComplete lookup ans =>
    obtain ⟨hmem, resolver, hresolver, hbody⟩ := workerStep_eq_ok_iff.mp hstep
    obtain ⟨⟨impl, calls⟩, hcomplete, hs'⟩ := bind_eq_ok_iff.mp hbody
    cases ResolverImpl.completes_of_ok hcomplete with
    | ignored hgone =>
      simp only [reportedFor, reported, List.append_nil] at hs'
      cases hs'
      exact .ignored hmem hresolver hgone
    | more hquery hclient hrest =>
      simp only [reportedFor, reported, List.append_nil] at hs'
      cases hs'
      exact .more hmem hresolver hquery hrest
    | last hquery hclient hrest =>
      simp only [reportedFor, reported, reported_answer] at hs'
      cases hs'
      exact .last hmem hresolver hquery hclient hrest
  | notSent lookup =>
    obtain ⟨hmem, resolver, -, hbody⟩ := workerStep_eq_ok_iff.mp hstep
    obtain ⟨t, hremove, hbody⟩ := bind_eq_ok_iff.mp hbody
    obtain ⟨hfound, rfl⟩ := remove_eq_ok_iff.mp hremove
    cases hbody
    exact .notSent hmem hfound
  | leave lookup stage =>
    cases stage with
    | answered ans => cases hstep
    | entered | returned =>
      obtain ⟨hmem, resolver, -, hbody⟩ := workerStep_eq_ok_iff.mp hstep
      cases hbody
      exact .leave hmem fun ans hans => by cases hans
  | queryTimedout queryId behind =>
    obtain ⟨⟨impl, calls⟩, htimeout, hbody⟩ := bind_eq_ok_iff.mp hstep
    obtain ⟨t, hperform, hs'⟩ := bind_eq_ok_iff.mp hbody
    cases hs'
    by_cases hfound : queryId ∈ s.impl.resQueries
    · obtain ⟨resolvers, owner, hdrops, rfl⟩ :=
        ResolverImpl.drops_of_queryTimedout hfound htimeout
      obtain ⟨hash, rfl, hsub, hremoved⟩ := perform_disconnects hperform
      rw [if_pos hfound, reportedFor, reported_disconnects]
      exact .queryTimedout hdrops hsub hremoved
    · obtain ⟨rfl, rfl, rfl⟩ := ResolverImpl.queryTimedout_late hfound htimeout
      cases hperform
      simp only [hfound, if_false, List.filterMap_nil, List.append_nil, reportedFor, reported]
      exact .late hfound

end ResolverSystem

end Epoller
