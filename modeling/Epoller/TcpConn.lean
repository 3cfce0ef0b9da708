import Epoller.Addresses
import Epoller.Resolver.Requests

/-!
# Connecting by Name

`TcpConnection::create` and the `TcpConn` that it makes for a host that is not an
address. The object holds itself until the resolver has called it back; the
resolver may do so at once, within `create`, or later, in another thread. Other
clients use the resolver as well.

## Contents

- `TcpConn`, `Connecting`, `ConnectStep`: the objects and the machine
- `strongCount`, `release`: when a `TcpConn` is destroyed
- `Connects`, `connects_step`: what the objects owe and what is owed to them
- `oneOutcome_of_run`: a stream or `disconnected`, once, and no object is left behind
-/

namespace Epoller

open Foundation

/-! ## The Machine -/

/-- `TcpConn`, and what its client has seen of it -/
structure TcpConn where
  /-- `client` is set. -/
  client : Bool
  port : UInt16
  /-- `self` is set. -/
  self : Bool
  /-- `create` still has its local `ref`. -/
  creator : Bool
  /-- The destinations of the streams that were made for the client -/
  streams : List InetDest
  /-- Calls of `client->disconnected()` -/
  disconnectedCalls : ℕ
  destroyed : Bool
deriving DecidableEq

/-- The resolver and the objects that wait for it. -/
structure Connecting where
  requests : Requests
  conns : UnorderedMap ClientPtr TcpConn
  /-- The callbacks that functions of the resolver are about to make, behind `lock` -/
  pending : List (ClientPtr × Option IpAddr)
  /-- The clients of the functions that have made their callback and have not returned -/
  returning : List ClientPtr
  /-- The streams that `create` has made itself -/
  direct : List InetDest
deriving DecidableEq

inductive ConnectStep where
  /-- `TcpConnection::create`, without its return; `ptr` is what `make_shared` would return,
  `dest` and `addr` stand where `destFromString` has its variables. -/
  | create (ptr : ClientPtr) (host : Bytes) (port : UInt16) (dest : InetDest)
      (addr : Vector UInt8 16)
  /-- `create` returns. -/
  | created (ptr : ClientPtr)
  /-- A function of the resolver, called by anyone else -/
  | resolver (l : RequestStep)
  /-- A function of the resolver makes its callback. -/
  | callback (ptr : ClientPtr) (found : Option IpAddr)
  /-- It returns. -/
  | returns (ptr : ClientPtr)

/-- Whom a call tells about its request, and what. -/
def ResolverCall.told? : ResolverCall → Option (ClientPtr × Option IpAddr)
  | resolved client addr => some (client, some addr)
  | notResolved client => some (client, none)
  | create .. | disconnect _ | setTimer .. | cancelTimer _ => none

/-- The function that a step calls: the resolver behind it, and the calls that it makes. -/
def RequestStep.run (s : Requests) :
    RequestStep → Except ResolverHalt (ResolverImpl × List ResolverCall)
  | .resolve client name prefs timeout => .ok (s.impl.resolve s.lookups client name prefs timeout)
  | .requestComplete reqNo ans => s.impl.requestComplete reqNo ans
  | .requestError reqNo => .ok (s.impl.requestError reqNo)
  | .queryTimedout queryId behind => s.impl.queryTimedout queryId behind

/-- The client that a step passes to `resolve` -/
def RequestStep.client? : RequestStep → Option ClientPtr
  | .resolve client .. => some client
  | .requestComplete .. | .requestError _ | .queryTimedout .. => none

namespace TcpConn

/-- `TcpConn(client, port)` with `self`, in `create` -/
def init (port : UInt16) : TcpConn where
  client := true
  port
  self := true
  creator := true
  streams := []
  disconnectedCalls := 0
  destroyed := false

/-- `doConnect` -/
def doConnect (conn : TcpConn) (dest : InetDest) : TcpConn :=
  let conn :=
    if conn.client = true then { conn with streams := conn.streams ++ [dest], client := false }
    else conn
  { conn with self := false }

/-- `resolved` -/
def resolved (conn : TcpConn) (addr : IpAddr) : TcpConn :=
  conn.doConnect ⟨addr, true, conn.port, 0⟩

/-- `notResolved` -/
def notResolved (conn : TcpConn) : TcpConn := { conn with self := false }

def calledBack (conn : TcpConn) : Option IpAddr → TcpConn
  | some addr => conn.resolved addr
  | none => conn.notResolved

/-- `~TcpConn`; `cancel` does nothing. -/
def destroy (conn : TcpConn) : TcpConn :=
  { conn with
    destroyed := true
    disconnectedCalls :=
      if conn.client = true then conn.disconnectedCalls + 1 else conn.disconnectedCalls
    client := false }

end TcpConn

namespace Connecting

def init : Connecting := ⟨.init, ∅, [], [], []⟩

/-- The references that `resQueries` holds to a client -/
def listed (s : Requests) (ptr : ClientPtr) : ℕ :=
  (s.impl.resQueries.entries.map fun e => e.2.clients.count ptr).sum

/-- The strong count of a `TcpConn` -/
def strongCount (s : Connecting) (ptr : ClientPtr) (conn : TcpConn) : ℕ :=
  conn.self.toNat + conn.creator.toNat + listed s.requests ptr +
    (s.pending.map Prod.fst).count ptr + s.returning.count ptr

/-- The object as it is now, or destroyed if nothing refers to it any more. -/
def release (s : Connecting) (ptr : ClientPtr) (conn : TcpConn) : Connecting :=
  if s.strongCount ptr conn = 0 then { s with conns := s.conns.insert ptr conn.destroy }
  else { s with conns := s.conns.insert ptr conn }

/-- A client is called back; what is no `TcpConn` does what it wants. -/
def tell (s : Connecting) (told : ClientPtr × Option IpAddr) : Connecting :=
  match s.conns.lookup told.1 with
  | some conn => { s with conns := s.conns.insert told.1 (conn.calledBack told.2) }
  | none => s

/-- `resolve` with the defaults for a new `TcpConn`: a callback for a name in the cache is made
before it returns. -/
def resolve (s : Connecting) (ptr : ClientPtr) (host : Bytes) : Connecting :=
  let (impl, calls) := s.requests.impl.resolve s.requests.lookups ptr host .AnyAddr 2000000000
  let requests := { s.requests.record impl calls with called := s.requests.called ++ [ptr] }
  (calls.filterMap ResolverCall.told?).foldl tell { s with requests }

def step (s : Connecting) : ConnectStep → Except ResolverHalt Connecting
  | .create ptr host port dest addr =>
    let inetDest := Socket.destFromString dest addr host port
    if inetDest.valid = true then .ok { s with direct := s.direct ++ [inetDest] }
    else if ptr ∉ s.conns ∧ ptr ∉ s.requests.called then
      .ok ({ s with conns := s.conns.insert ptr (.init port) }.resolve ptr host)
    else .error .disabled
  | .created ptr =>
    match s.conns.lookup ptr with
    | some conn =>
      if conn.creator = true then .ok (s.release ptr { conn with creator := false })
      else .error .disabled
    | none => .error .disabled
  | .resolver l =>
    if ∀ ptr, l.client? = some ptr → ptr ∉ s.conns then do
      let (impl, calls) ← l.run s.requests
      let requests := { s.requests.record impl calls with
        called := s.requests.called ++ l.client?.toList }
      .ok { s with
        requests
        pending := s.pending ++
          (calls.filterMap ResolverCall.told?).filter fun told => told.1 ∈ s.conns }
    else .error .disabled
  | .callback ptr found =>
    if (ptr, found) ∈ s.pending then
      .ok ({ s with
        pending := s.pending.erase (ptr, found)
        returning := s.returning ++ [ptr] }.tell (ptr, found))
    else .error .disabled
  | .returns ptr =>
    match s.conns.lookup ptr with
    | some conn =>
      if ptr ∈ s.returning then
        .ok ({ s with returning := s.returning.erase ptr }.release ptr conn)
      else .error .disabled
    | none => .error .disabled

/-- The callbacks that the resolver owes to a client -/
def owed (s : Connecting) (ptr : ClientPtr) : ℕ :=
  s.requests.waiting ptr + (s.pending.map Prod.fst).count ptr

/-- The resolver answers every call once: a timeout takes one request along, and the number of a
new request is free. -/
def Answers (s : Connecting) : ConnectStep → Prop
  | .create ptr host .. => s.requests.Possible (.resolve ptr host .AnyAddr 2000000000)
  | .resolver l => s.requests.Possible l ∧ s.requests.TimesOutAlone l
  | .created _ | .callback .. | .returns _ => True

instance (s : Connecting) (l : ConnectStep) : Decidable (Answers s l) :=
  match l with
  | .create ptr host _ _ _ =>
    inferInstanceAs (Decidable (s.requests.Possible (.resolve ptr host .AnyAddr 2000000000)))
  | .resolver _ => inferInstanceAs (Decidable (_ ∧ _))
  | .created _ | .callback .. | .returns _ => inferInstanceAs (Decidable True)

variable {s s' : Connecting} {l : ConnectStep} {ls : List ConnectStep} {ptr other : ClientPtr}
  {conn : TcpConn} {found : Option IpAddr} {requests : Requests}

/-! ## Calls of the Resolver -/

/-- Whoever is told something is called back. -/
theorem told?_map_fst (calls : List ResolverCall) :
    (calls.filterMap ResolverCall.told?).map Prod.fst =
      calls.filterMap ResolverCall.callback? := by
  rw [List.map_filterMap]
  refine List.filterMap_congr fun call _ => ?_
  cases call <;> rfl

@[simp] theorem told?_answer (ptr : ClientPtr) (found : Option IpAddr) :
    (ResolverImpl.answer ptr found).told? = some (ptr, found) := by
  cases found <;> rfl

/-- The function that a step calls does what the step does. -/
theorem requests_step_of_run {l : RequestStep} {impl : ResolverImpl} {calls : List ResolverCall}
    (hrun : l.run requests = .ok (impl, calls)) :
    requests.step l = .ok { requests.record impl calls with
      called := requests.called ++ l.client?.toList } := by
  cases l with
  | resolve client name prefs timeout =>
    simp only [RequestStep.run, Except.ok.injEq] at hrun
    simp only [Requests.step, hrun, RequestStep.client?, Option.toList_some]
  | requestComplete reqNo ans =>
    simp only [RequestStep.run] at hrun
    simp only [Requests.step, hrun, RequestStep.client?, Option.toList_none, List.append_nil]
    rfl
  | requestError reqNo =>
    simp only [RequestStep.run, Except.ok.injEq] at hrun
    simp only [Requests.step, hrun, RequestStep.client?, Option.toList_none, List.append_nil]
    rfl
  | queryTimedout queryId behind =>
    simp only [RequestStep.run] at hrun
    simp only [Requests.step, hrun, RequestStep.client?, Option.toList_none, List.append_nil]
    rfl

/-- A client is listed in `resQueries` exactly as long as a request of its waits. -/
theorem listed_eq_zero_iff (ptr : ClientPtr) (h : requests.AllWellFormed) :
    listed requests ptr = 0 ↔ requests.waiting ptr = 0 := by
  rw [listed, List.sum_eq_zero_iff, Requests.waiting, UnorderedMap.tally, List.countP_eq_zero]
  simp only [List.mem_map, forall_exists_index, and_imp, forall_apply_eq_imp_iff₂,
    decide_eq_true_eq]
  refine forall₂_congr fun e he => ?_
  obtain ⟨client, howned⟩ := (h e.1 e.2 (AList.mem_lookup_iff.mpr he)).owned
  rw [howned.getLast?]
  obtain ⟨n, hclients⟩ := howned
  rw [hclients, List.count_replicate, Option.some.injEq]
  by_cases hptr : client = ptr <;> simp [hptr]

/-! ## The Objects -/

/-- What holds of one `TcpConn`. -/
structure Held (s : Connecting) (ptr : ClientPtr) (conn : TcpConn) : Prop where
  called : s.requests.called.count ptr = 1
  /-- It holds itself for the callback. -/
  self : conn.self.toNat = s.owed ptr
  waits : conn.self = true → conn.client = true ∧ conn.streams = []
  outcome : conn.streams.length + conn.disconnectedCalls + conn.client.toNat = 1
  destroyed : conn.destroyed = true ↔
    conn.creator = false ∧ s.owed ptr = 0 ∧ ptr ∉ s.returning
  released : conn.destroyed = true → conn.client = false
  dests : ∀ dest ∈ conn.streams, dest.valid = true ∧ dest.port = conn.port

/-- The invariant of the machine. -/
structure Connects (s : Connecting) : Prop where
  wellFormed : s.requests.AllWellFormed
  balanced : s.requests.Balanced
  pending : ∀ told ∈ s.pending, told.1 ∈ s.conns
  returning : ∀ ptr ∈ s.returning, ptr ∈ s.conns
  held : ∀ ptr conn, s.conns.lookup ptr = some conn → Held s ptr conn

/-- A step that leaves an object alone, and what it waits for. -/
theorem Held.frame (h : Held s ptr conn)
    (hcalled : s'.requests.called.count ptr = s.requests.called.count ptr)
    (howed : s'.owed ptr = s.owed ptr) (hreturning : ptr ∈ s'.returning ↔ ptr ∈ s.returning) :
    Held s' ptr conn where
  called := hcalled.trans h.called
  self := h.self.trans howed.symm
  waits := h.waits
  outcome := h.outcome
  destroyed := by rw [howed, hreturning]; exact h.destroyed
  released := h.released
  dests := h.dests

/-- Calls and callbacks of others leave an object alone. -/
theorem Held.of_balanced (h : Held s ptr conn) (hbefore : s.requests.Balanced)
    (hbehind : s'.requests.Balanced)
    (hcalled : s'.requests.called.count ptr = s.requests.called.count ptr)
    (hcallbacks : s'.requests.callbacks.count ptr + (s.pending.map Prod.fst).count ptr =
      s.requests.callbacks.count ptr + (s'.pending.map Prod.fst).count ptr)
    (hreturning : ptr ∈ s'.returning ↔ ptr ∈ s.returning) : Held s' ptr conn := by
  refine h.frame hcalled ?_ hreturning
  have h1 := hbefore ptr
  have h2 := hbehind ptr
  rw [hcalled] at h2
  unfold owed
  omega

/-- An object that is not called back yet has neither made a stream nor been destroyed. -/
theorem Held.fresh (h : Held s ptr conn) (hself : conn.self = true) :
    conn.client = true ∧ conn.streams = [] ∧ conn.disconnectedCalls = 0 ∧
      conn.destroyed = false := by
  obtain ⟨hclient, hstreams⟩ := h.waits hself
  have houtcome := h.outcome
  rw [hclient, hstreams] at houtcome
  refine ⟨hclient, hstreams, by simpa using houtcome, ?_⟩
  cases hdestroyed : conn.destroyed with
  | false => rfl
  | true => rw [h.released hdestroyed] at hclient; cases hclient

@[simp] theorem calledBack_port (conn : TcpConn) (found : Option IpAddr) :
    (conn.calledBack found).port = conn.port := by
  cases found with
  | none => rfl
  | some addr => simp only [TcpConn.calledBack, TcpConn.resolved, TcpConn.doConnect]; split <;> rfl

/-! ## Destruction -/

/-- An object that holds itself for its callback is referred to as long as `create` has not
returned, the callback is owed, or the function that has made it has not returned. -/
theorem strongCount_eq_zero_iff (hwell : s.requests.AllWellFormed)
    (hself : conn.self.toNat = s.owed ptr) :
    s.strongCount ptr conn = 0 ↔
      conn.creator = false ∧ s.owed ptr = 0 ∧ ptr ∉ s.returning := by
  have hlisted := listed_eq_zero_iff ptr hwell
  rw [← List.count_eq_zero, ← Bool.toNat_eq_zero, strongCount, hself, owed]
  constructor
  · intro h
    refine ⟨by omega, by omega, by omega⟩
  · rintro ⟨hcreator, howed, hreturning⟩
    have hzero := hlisted.mpr (by omega)
    omega

@[simp] theorem release_requests (s : Connecting) (ptr : ClientPtr) (conn : TcpConn) :
    (s.release ptr conn).requests = s.requests := by
  unfold release
  split <;> rfl

@[simp] theorem release_pending (s : Connecting) (ptr : ClientPtr) (conn : TcpConn) :
    (s.release ptr conn).pending = s.pending := by
  unfold release
  split <;> rfl

@[simp] theorem release_returning (s : Connecting) (ptr : ClientPtr) (conn : TcpConn) :
    (s.release ptr conn).returning = s.returning := by
  unfold release
  split <;> rfl

@[simp] theorem release_owed (s : Connecting) (ptr other : ClientPtr) (conn : TcpConn) :
    (s.release ptr conn).owed other = s.owed other := by
  simp only [owed, release_requests, release_pending]

theorem lookup_release_ne (conn : TcpConn) (hne : other ≠ ptr) :
    (s.release ptr conn).conns.lookup other = s.conns.lookup other := by
  unfold release
  split <;> exact AList.lookup_insert_ne hne

theorem mem_release (s : Connecting) (conn : TcpConn) (h : other ∈ s.conns) :
    other ∈ (s.release ptr conn).conns := by
  unfold release
  split <;> exact (AList.mem_insert _).mpr (.inr h)

/-- **Release**: an object that is not destroyed yet is destroyed exactly when nothing refers to it
any more, and then its client has a stream or is told. -/
theorem held_release (hwell : s.requests.AllWellFormed)
    (hcalled : s.requests.called.count ptr = 1) (hself : conn.self.toNat = s.owed ptr)
    (hwaits : conn.self = true → conn.client = true ∧ conn.streams = [])
    (houtcome : conn.streams.length + conn.disconnectedCalls + conn.client.toNat = 1)
    (hdestroyed : conn.destroyed = false)
    (hdests : ∀ dest ∈ conn.streams, dest.valid = true ∧ dest.port = conn.port)
    {conn' : TcpConn} (hlookup : (s.release ptr conn).conns.lookup ptr = some conn') :
    Held (s.release ptr conn) ptr conn' := by
  have hcount := strongCount_eq_zero_iff hwell hself
  by_cases hzero : s.strongCount ptr conn = 0
  · have hfree := hcount.mp hzero
    have hnotSelf : conn.self = false := by rw [← Bool.toNat_eq_zero, hself, hfree.2.1]
    have hconn' : conn' = conn.destroy := by
      rw [release, if_pos hzero, AList.lookup_insert] at hlookup
      exact (Option.some.inj hlookup).symm
    subst hconn'
    refine ⟨by simpa using hcalled, by simpa [TcpConn.destroy] using hself,
      fun h => absurd (hnotSelf.symm.trans h) (by decide), ?_,
      by simpa [TcpConn.destroy] using hfree, fun _ => rfl, hdests⟩
    simp only [TcpConn.destroy]
    split
    · rename_i hclient
      rw [hclient] at houtcome
      simpa [add_assoc] using houtcome
    · rename_i hclient
      rw [Bool.not_eq_true] at hclient
      rw [hclient] at houtcome
      exact houtcome
  · have hconn' : conn' = conn := by
      rw [release, if_neg hzero, AList.lookup_insert] at hlookup
      exact (Option.some.inj hlookup).symm
    subst hconn'
    refine ⟨by simpa using hcalled, by simpa using hself, hwaits, houtcome, ?_,
      fun h => absurd (hdestroyed.symm.trans h) (by decide), hdests⟩
    simp only [hdestroyed, release_owed, release_returning, Bool.false_eq_true, false_iff]
    exact fun h => hzero (hcount.mpr h)

/-! ## Callbacks -/

/-- **Callback**: the object lets go of itself, and of its client if it makes a stream for it. -/
theorem held_calledBack (hcalled : s.requests.called.count ptr = 1) (howed : s.owed ptr = 0)
    (hkept : conn.creator = true ∨ ptr ∈ s.returning) (hclient : conn.client = true)
    (hstreams : conn.streams = []) (hcalls : conn.disconnectedCalls = 0)
    (hdestroyed : conn.destroyed = false) (found : Option IpAddr) :
    Held s ptr (conn.calledBack found) := by
  have hdead : False ↔ conn.creator = false ∧ s.owed ptr = 0 ∧ ptr ∉ s.returning := by
    refine ⟨False.elim, fun ⟨hcreator, _, hreturning⟩ => ?_⟩
    rcases hkept with h | h
    · exact absurd (hcreator.symm.trans h) (by decide)
    · exact hreturning h
  cases found with
  | none =>
    exact ⟨hcalled, howed.symm, fun h => (by cases h),
      by simp [TcpConn.calledBack, TcpConn.notResolved, hclient, hstreams, hcalls],
      by simpa [TcpConn.calledBack, TcpConn.notResolved, hdestroyed] using hdead,
      fun h => absurd (hdestroyed.symm.trans h) (by decide),
      fun dest hdest => by simp [TcpConn.calledBack, TcpConn.notResolved, hstreams] at hdest⟩
  | some addr =>
    simp only [TcpConn.calledBack, TcpConn.resolved, TcpConn.doConnect, if_pos hclient]
    exact ⟨hcalled, howed.symm, fun h => (by cases h), by simp [hstreams, hcalls],
      by simpa [hdestroyed] using hdead, fun _ => rfl, fun dest hdest => by simp_all⟩

theorem tell_of_lookup (hlookup : s.conns.lookup ptr = some conn) (found : Option IpAddr) :
    s.tell (ptr, found) = { s with conns := s.conns.insert ptr (conn.calledBack found) } := by
  simp only [tell, hlookup]

/-! ## Steps -/

/-- What a client is owed and what it was told make up what it has asked for. -/
theorem Connects.waiting (h : Connects s) (ptr : ClientPtr) :
    s.requests.callbacks.count ptr + s.requests.waiting ptr = s.requests.called.count ptr :=
  h.balanced ptr

/-- What is no object is not owed a callback as one. -/
theorem Connects.count_pending (h : Connects s) (hnew : ptr ∉ s.conns) :
    (s.pending.map Prod.fst).count ptr = 0 := by
  rw [List.count_eq_zero]
  rintro hmem
  obtain ⟨told, htold, rfl⟩ := List.mem_map.mp hmem
  exact hnew (h.pending told htold)

/-- A new object, for which the resolver has been called. -/
theorem connects_insert (h : Connects s) (hnew : ptr ∉ s.conns)
    (hwell : requests.AllWellFormed) (hbalanced : requests.Balanced)
    (hcalled : requests.called = s.requests.called ++ [ptr])
    (hcallbacks : ∀ other ≠ ptr,
      requests.callbacks.count other = s.requests.callbacks.count other)
    (hheld : Held { s with conns := s.conns.insert ptr conn, requests } ptr conn) :
    Connects { s with conns := s.conns.insert ptr conn, requests } where
  wellFormed := hwell
  balanced := hbalanced
  pending told htold := (AList.mem_insert _).mpr (.inr (h.pending told htold))
  returning c hc := (AList.mem_insert _).mpr (.inr (h.returning c hc))
  held other conn' hlookup := by
    rcases UnorderedMap.lookup_insert_eq_some_iff.mp hlookup with ⟨rfl, rfl⟩ | ⟨hne, hlookup⟩
    · exact hheld
    · refine (h.held other conn' hlookup).of_balanced h.balanced hbalanced ?_ ?_ Iff.rfl
      · rw [hcalled, List.count_append, List.count_singleton, if_neg (by simpa using hne.symm)]
        rfl
      · rw [hcallbacks other hne]

/-- **`create`** for a name. -/
theorem connects_resolve {host : Bytes} {port : UInt16} (h : Connects s) (hnew : ptr ∉ s.conns)
    (hfirst : ptr ∉ s.requests.called)
    (hpossible : s.requests.Possible (.resolve ptr host .AnyAddr 2000000000)) :
    Connects ({ s with conns := s.conns.insert ptr (.init port) }.resolve ptr host) := by
  obtain ⟨requests, hstep, hbalanced, -⟩ :=
    Requests.exactlyOnce_of_timesOutAlone h.wellFormed h.balanced hpossible trivial
  have hwell := Requests.allWellFormed_step h.wellFormed hstep
  have hzero := h.waiting ptr
  rw [List.count_eq_zero.mpr hfirst] at hzero
  have hpending := h.count_pending hnew
  have hreturning : ptr ∉ s.returning := fun hmem => hnew (h.returning ptr hmem)
  have hone := hbalanced ptr
  cases hname : s.requests.impl.byName.lookup host with
  | some names =>
    -- the callback is made at once
    simp only [Requests.step, ResolverImpl.resolve_cached hname, Except.ok.injEq] at hstep
    simp only [resolve, ResolverImpl.resolve_cached hname, List.filterMap_cons, told?_answer,
      List.filterMap_nil, List.foldl_cons, List.foldl_nil]
    rw [tell_of_lookup (AList.lookup_insert s.conns)]
    simp only [hstep, AList.insert_insert]
    have hcallbacks : requests.callbacks = s.requests.callbacks ++ [ptr] := by
      rw [← hstep]
      simp [Requests.record]
    have hcalled : requests.called = s.requests.called ++ [ptr] := by rw [← hstep]
    have hcount : requests.called.count ptr = 1 := by
      rw [hcalled, List.count_append, List.count_singleton_self, List.count_eq_zero.mpr hfirst]
    rw [hcount, hcallbacks, List.count_append, List.count_singleton_self] at hone
    refine connects_insert h hnew hwell hbalanced hcalled (fun other hne => ?_)
      (held_calledBack hcount ?_ (.inl rfl) rfl rfl rfl rfl _)
    · rw [hcallbacks, List.count_append, List.count_singleton, if_neg (by simpa using hne.symm)]
      rfl
    · simp only [owed, hpending]
      omega
  | none =>
    -- the object waits with its request
    simp only [Requests.step, ResolverImpl.resolve_uncached hname, Except.ok.injEq] at hstep
    have htold : ∀ impl delay, ((s.requests.impl.newQuery s.requests.lookups ptr host .AnyAddr).2 ++
        [ResolverCall.setTimer impl delay]).filterMap ResolverCall.told? = [] := fun _ _ => rfl
    simp only [resolve, ResolverImpl.resolve_uncached hname, htold, List.foldl_nil, hstep]
    have hcallbacks : requests.callbacks = s.requests.callbacks := by
      rw [← hstep]
      simp [Requests.record, Requests.newQuery_callbacks, ResolverCall.callback?]
    have hcalled : requests.called = s.requests.called ++ [ptr] := by rw [← hstep]
    have hcount : requests.called.count ptr = 1 := by
      rw [hcalled, List.count_append, List.count_singleton_self, List.count_eq_zero.mpr hfirst]
    rw [hcount, hcallbacks] at hone
    refine connects_insert h hnew hwell hbalanced hcalled (fun other _ => by rw [hcallbacks]) ?_
    refine ⟨hcount, ?_, fun _ => ⟨rfl, rfl⟩, rfl, ?_, fun h => (by cases h),
      fun dest hdest => by cases hdest⟩
    · simp only [owed, hpending]
      change 1 = _
      omega
    · simp [TcpConn.init]

/-- A reference to an object that is not destroyed goes. -/
theorem connects_release (h : Connects s) (hlookup : s.conns.lookup ptr = some conn)
    (hdestroyed : conn.destroyed = false) (creator : Bool) {returning : List ClientPtr}
    (hreturning : ∀ c ∈ returning, c ∈ s.returning)
    (hothers : ∀ c ≠ ptr, c ∈ s.returning → c ∈ returning) :
    Connects ({ s with returning }.release ptr { conn with creator }) := by
  have hheld := h.held ptr conn hlookup
  refine ⟨by simpa using h.wellFormed, by simpa using h.balanced, fun told htold =>
    mem_release _ _ (h.pending told (by simpa using htold)), fun c hc =>
    mem_release _ _ (h.returning c (hreturning c (by simpa using hc))),
    fun other conn' hlookup' => ?_⟩
  by_cases hne : other = ptr
  · subst hne
    have hrelease := @held_release { s with returning } other { conn with creator } h.wellFormed
    exact hrelease hheld.called hheld.self hheld.waits hheld.outcome hdestroyed hheld.dests hlookup'
  · rw [lookup_release_ne _ hne] at hlookup'
    refine (h.held other conn' hlookup').frame (by simp) (by simp [owed]) ?_
    rw [release_returning]
    exact ⟨hreturning other, hothers other hne⟩

/-- The callback that was owed is made. -/
theorem connects_callback (h : Connects s) (hmem : (ptr, found) ∈ s.pending) :
    Connects ({ s with
      pending := s.pending.erase (ptr, found)
      returning := s.returning ++ [ptr] }.tell (ptr, found)) := by
  obtain ⟨conn, hlookup⟩ := UnorderedMap.mem_iff_lookup.mp (h.pending (ptr, found) hmem)
  have hheld := h.held ptr conn hlookup
  have hcount : ∀ c, (s.pending.map Prod.fst).count c =
      ((s.pending.erase (ptr, found)).map Prod.fst).count c + if ptr = c then 1 else 0 := by
    intro c
    rw [((List.perm_cons_erase hmem).map Prod.fst).count_eq, List.map_cons, List.count_cons]
    simp only [beq_iff_eq]
  have howed : s.owed ptr = s.requests.waiting ptr +
      (((s.pending.erase (ptr, found)).map Prod.fst).count ptr + 1) := by
    rw [owed, hcount ptr, if_pos rfl]
  have hself : conn.self = true := by
    cases hself : conn.self with
    | true => rfl
    | false =>
      have hnone := hheld.self
      rw [hself, howed] at hnone
      exact absurd hnone (by simp only [Bool.toNat_false]; omega)
  have hlast := hheld.self
  rw [hself, howed, Bool.toNat_true] at hlast
  obtain ⟨hclient, hstreams, hcalls, hdestroyed⟩ := hheld.fresh hself
  rw [tell_of_lookup (by exact hlookup)]
  refine ⟨h.wellFormed, h.balanced, fun told htold => (AList.mem_insert _).mpr
    (.inr (h.pending told (List.mem_of_mem_erase htold))), fun c hc => ?_,
    fun other conn' hlookup' => ?_⟩
  · rcases List.mem_append.mp hc with hc | hc
    · exact (AList.mem_insert _).mpr (.inr (h.returning c hc))
    · exact (AList.mem_insert _).mpr (.inl (List.mem_singleton.mp hc))
  · rcases UnorderedMap.lookup_insert_eq_some_iff.mp hlookup' with ⟨rfl, rfl⟩ | ⟨hne, hlookup'⟩
    · refine held_calledBack (s := { s with
          conns := s.conns.insert other (conn.calledBack found)
          pending := s.pending.erase (other, found)
          returning := s.returning ++ [other] })
        hheld.called ?_ (.inr ?_) hclient hstreams hcalls hdestroyed found
      · simp only [owed]
        omega
      · exact List.mem_append_right _ (List.mem_singleton_self _)
    · refine (h.held other conn' hlookup').frame rfl ?_ ?_
      · simp only [owed, hcount other, if_neg (Ne.symm hne)]
        rfl
      · simp [hne]

/-- A function of the resolver runs for anyone else. -/
theorem connects_resolver {l : RequestStep} {impl : ResolverImpl} {calls : List ResolverCall}
    (h : Connects s) (hclient : ∀ ptr, l.client? = some ptr → ptr ∉ s.conns)
    (hpossible : s.requests.Possible l) (halone : s.requests.TimesOutAlone l)
    (hrun : l.run s.requests = .ok (impl, calls)) :
    Connects { s with
      requests := { s.requests.record impl calls with
        called := s.requests.called ++ l.client?.toList }
      pending := s.pending ++
        (calls.filterMap ResolverCall.told?).filter fun told => told.1 ∈ s.conns } := by
  have hstep := requests_step_of_run hrun
  obtain ⟨requests, hrequests, hbalanced, -⟩ :=
    Requests.exactlyOnce_of_timesOutAlone h.wellFormed h.balanced hpossible halone
  rw [hstep] at hrequests
  cases hrequests
  refine ⟨Requests.allWellFormed_step h.wellFormed hstep, hbalanced, fun told htold => ?_,
    h.returning, fun ptr conn hlookup => ?_⟩
  · rcases List.mem_append.mp htold with htold | htold
    · exact h.pending told htold
    · simpa using (List.mem_filter.mp htold).2
  · have hmem : ptr ∈ s.conns := UnorderedMap.mem_iff_lookup.mpr ⟨conn, hlookup⟩
    refine (h.held ptr conn hlookup).of_balanced h.balanced hbalanced ?_ ?_ Iff.rfl
    · -- the step does not call `resolve` for this object
      rw [List.count_append, List.count_eq_zero.mpr fun hptr =>
        hclient ptr (Option.mem_toList.mp hptr) hmem]
      rfl
    · -- each callback of the step for this object is about to be made
      have hcount : ((((calls.filterMap ResolverCall.told?).filter
          fun told => told.1 ∈ s.conns)).map Prod.fst).count ptr =
          (calls.filterMap ResolverCall.callback?).count ptr := by
        rw [← told?_map_fst, List.count_eq_countP, List.count_eq_countP, List.countP_map,
          List.countP_map, List.countP_filter]
        refine List.countP_congr fun told _ => ?_
        simp only [Function.comp_apply, Bool.and_eq_true, beq_iff_eq, decide_eq_true_eq,
          and_iff_left_iff_imp]
        rintro rfl
        exact hmem
      simp only [Requests.record, List.map_append, List.count_append, hcount]
      omega

/-- **Step**: what the objects are owed, and their one outcome, is kept. -/
theorem connects_step (h : Connects s) (hanswers : s.Answers l) (hstep : s.step l = .ok s') :
    Connects s' := by
  cases l with
  | create ptr host port dest addr =>
    simp only [step] at hstep
    split at hstep
    · cases hstep
      exact ⟨h.wellFormed, h.balanced, h.pending, h.returning, fun ptr conn hlookup =>
        (h.held ptr conn hlookup).frame rfl rfl Iff.rfl⟩
    · split at hstep
      · rename_i hnew
        cases hstep
        exact connects_resolve h hnew.1 hnew.2 hanswers
      · cases hstep
  | created ptr =>
    simp only [step] at hstep
    split at hstep
    · rename_i conn hlookup
      split at hstep
      · rename_i hcreator
        cases hstep
        refine connects_release h hlookup ?_ false (fun c hc => hc) fun c _ hc => hc
        rw [← Bool.not_eq_true, (h.held ptr conn hlookup).destroyed, hcreator]
        exact fun hdead => absurd hdead.1 (by decide)
      · cases hstep
    · cases hstep
  | resolver l =>
    simp only [step] at hstep
    split at hstep
    · rename_i hclient
      obtain ⟨⟨impl, calls⟩, hrun, hs'⟩ := bind_eq_ok_iff.mp hstep
      cases hs'
      exact connects_resolver h hclient hanswers.1 hanswers.2 hrun
    · cases hstep
  | callback ptr found =>
    simp only [step] at hstep
    split at hstep
    · rename_i hmem
      cases hstep
      exact connects_callback h hmem
    · cases hstep
  | returns ptr =>
    simp only [step] at hstep
    split at hstep
    · rename_i conn hlookup
      split at hstep
      · rename_i hreturning
        cases hstep
        refine connects_release h hlookup ?_ conn.creator (fun c hc => List.mem_of_mem_erase hc)
          fun c hne hc => (List.mem_erase_of_ne hne).mpr hc
        rw [← Bool.not_eq_true, (h.held ptr conn hlookup).destroyed]
        exact fun hdead => hdead.2.2 hreturning
      · cases hstep
    · cases hstep

theorem connects_init : Connects init :=
  ⟨fun reqNo query hquery => (by cases hquery), fun client => rfl, fun told h => (by cases h),
    fun ptr h => (by cases h), fun ptr conn h => (by cases h)⟩

/-! ## Runs -/

/-- **One outcome**: in every run in which the resolver answers every call once, each object has
made one stream for its client, to the port asked for, or has told it `disconnected` once, or still
holds it. An object holds itself exactly as long as a callback is owed to it, and it is destroyed
as soon as neither the resolver nor `create` refers to it. -/
theorem oneOutcome_of_run (hrun : runFrom step init ls = .ok s)
    (hanswers : AllSteps step Answers init ls) :
    ∀ ptr conn, s.conns.lookup ptr = some conn →
      conn.streams.length + conn.disconnectedCalls + conn.client.toNat = 1 ∧
      (∀ dest ∈ conn.streams, dest.valid = true ∧ dest.port = conn.port) ∧
      conn.self.toNat = s.owed ptr ∧
      (conn.destroyed = true ↔
        conn.creator = false ∧ s.owed ptr = 0 ∧ ptr ∉ s.returning) ∧
      (conn.destroyed = true → conn.client = false) := by
  intro ptr conn hlookup
  have hheld := (AllSteps.invariant Connects (fun h hC hstep => connects_step h hC hstep)
    connects_init hanswers hrun).held ptr conn hlookup
  exact ⟨hheld.outcome, hheld.dests, hheld.self, hheld.destroyed, hheld.released⟩

/-- Object 1 is answered before its `create` returns, object 2 waits until its request times
out. -/
def connectRun : List ConnectStep :=
  let dest : InetDest := ⟨⟨IpAddr.ip4Prefix⟩, false, 0, 0⟩
  let addr := Vector.replicate 16 0
  [.create 1 [0x61] 80 dest addr, .create 2 [0x62] 443 dest addr,
    .resolver (.requestComplete 0 ⟨true, 0, [0x61], [⟨IpAddr.ip4Prefix⟩], none, 0⟩),
    .created 2, .resolver (.requestComplete 0 ⟨false, 0, [0x61], [], none, 0⟩),
    .callback 1 (some ⟨IpAddr.ip4Prefix⟩), .returns 1, .created 1,
    .resolver (.queryTimedout 1 []), .callback 2 none, .returns 2]

theorem oneOutcome_connectRun : ∃ s first second, runFrom step init connectRun = .ok s ∧
    s.conns.lookup 1 = some first ∧ s.conns.lookup 2 = some second ∧
    first.streams = [⟨⟨IpAddr.ip4Prefix⟩, true, 80, 0⟩] ∧ first.client = false ∧
    second.destroyed = true ∧ second.streams = [] ∧ second.disconnectedCalls = 1 := by
  obtain ⟨s, first, second, hrun, hfirst, hsecond, hstreams, hdestroyed, hnone⟩ :
      ∃ s first second, runFrom step init connectRun = .ok s ∧
        s.conns.lookup 1 = some first ∧ s.conns.lookup 2 = some second ∧
        first.streams = [⟨⟨IpAddr.ip4Prefix⟩, true, 80, 0⟩] ∧
        second.destroyed = true ∧ second.streams = [] := by
    refine ⟨_, _, _, rfl, rfl, rfl, ?_, ?_, ?_⟩ <;> decide +kernel
  have hanswers : AllSteps step Answers init connectRun := by decide +kernel
  have hone := (oneOutcome_of_run hrun hanswers 1 first hfirst).1
  obtain ⟨htwo, -, -, -, hreleased⟩ := oneOutcome_of_run hrun hanswers 2 second hsecond
  rw [hstreams] at hone
  rw [hnone, hreleased hdestroyed] at htwo
  refine ⟨s, first, second, hrun, hfirst, hsecond, hstreams, ?_, hdestroyed, hnone, ?_⟩
  · rw [← Bool.toNat_eq_zero]
    simp only [List.length_singleton] at hone
    omega
  · simpa using htwo

end Connecting

end Epoller
