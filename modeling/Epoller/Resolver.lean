import Epoller.Query.Decode
import Epoller.Foundation.UnorderedMap

/-!
# The Resolver

`ResolverImpl` of `resolverimpl.cpp`. Every member function runs under `lock`;
the calls it makes are returned in the order they are made. The two unordered
maps are maps with unique keys; the order in which `queryTimedout` meets the
entries of `resQueries` is an argument.

- `AddrPref`, `Names`: the cached addresses of one name, `get` and `put`
- `ResolverQuery`, `ResolverImpl`: the members
- `resolve`, `requestComplete`, `requestError`, `queryTimedout`: the functions
-/

namespace Epoller

open Foundation Query

/-! ## Preferences -/

/-- `Resolver::AddrPref` -/
inductive AddrPref where
  | AnyAddr
  | Ipv4Only
  | Ipv6Only
deriving DecidableEq, Repr

/-- The tests in the loop of `Names::get`. -/
def AddrPref.Accepts (prefs : AddrPref) (addr : IpAddr) : Prop :=
  (prefs = .AnyAddr ∨ (addr.isIpv4Addr = true ∧ prefs = .Ipv4Only)) ∨
    (addr.isIpv4Addr = false ∧ prefs = .Ipv6Only)

instance (prefs : AddrPref) (addr : IpAddr) : Decidable (prefs.Accepts addr) :=
  inferInstanceAs (Decidable (_ ∨ _))

namespace ResolverImpl

/-! ## Cached Addresses -/

/-- `ResolverImpl::Names`; `expiry` is never used. -/
structure Names where
  lastAccessIndex : ℕ
  addrs : List IpAddr
  /-- `get` leaves the index of an address behind, and no address is ever removed. -/
  inBounds : lastAccessIndex < addrs.length ∨ lastAccessIndex = 0
deriving DecidableEq, Repr

namespace Names

/-- `Names()` -/
def empty : Names := ⟨0, [], .inr rfl⟩

/-- `++i`, back to the first address behind the last; the second component is `once`. -/
def advance (num i : ℕ) (once : Bool) : ℕ × Bool :=
  if num ≤ i + 1 then (0, true) else (i + 1, once)

/-- The loop of `get` for at most `fuel` rounds: the last `i`, and the address found. -/
def getLoop (addrs : List IpAddr) (lastAccessIndex : ℕ) (prefs : AddrPref) :
    (fuel i : ℕ) → (once : Bool) → ℕ × Option IpAddr
  | 0, i, _ => (i, none)
  | fuel + 1, i, once =>
    if once = false ∨ i ≠ lastAccessIndex then
      let (i, once) := advance addrs.length i once
      match addrs[i]? with
      | some addr =>
        if prefs.Accepts addr then (i, some addr)
        else getLoop addrs lastAccessIndex prefs fuel i once
      | none => (i, none)
    else (i, none)

variable {addrs : List IpAddr} {prefs : AddrPref} {last fuel i : ℕ} {once : Bool} {addr : IpAddr}

theorem advance_lt {num : ℕ} (i : ℕ) (once : Bool) (hnum : 0 < num) :
    (advance num i once).1 < num := by
  unfold advance
  split
  · exact hnum
  · rename_i hlt
    exact not_le.mp hlt

theorem getLoop_lt (hi : i < addrs.length) :
    (getLoop addrs last prefs fuel i once).1 < addrs.length := by
  induction fuel generalizing i once with
  | zero => exact hi
  | succ fuel ih =>
    have hadvance := advance_lt i once (Nat.zero_lt_of_lt hi)
    simp only [getLoop]
    split
    · split
      · split
        · exact hadvance
        · exact ih hadvance
      · exact hadvance
    · exact hi

/-- `get`: the address found, and the index moved to where the search stopped. -/
def get (names : Names) (prefs : AddrPref) : Names × Option IpAddr :=
  if hnum : names.addrs.length = 0 then (names, none)
  else
    let r := getLoop names.addrs names.lastAccessIndex prefs names.addrs.length
      names.lastAccessIndex false
    ({ names with
        lastAccessIndex := r.1
        inBounds := .inl (getLoop_lt (names.inBounds.elim id fun h => by omega)) }, r.2)

/-- `put` -/
def put (names : Names) (ans : Qanswer) : Names :=
  { names with
    addrs := names.addrs ++ ans.addr
    inBounds := names.inBounds.imp_left fun h => by
      rw [List.length_append]
      omega }

/-! ### The Search -/

/-- Where the loop can stand: before the wrap at or behind `lastAccessIndex`, and from then on at
or before it. -/
def Stands (num last i : ℕ) : (once : Bool) → Prop
  | false => last ≤ i ∧ i < num
  | true => i ≤ last

/-- The rounds the loop has to go. -/
def rounds (num last i : ℕ) : (once : Bool) → ℕ
  | false => num - i + last
  | true => last - i

/-- The positions the loop has to test. -/
def Ahead (num last i j : ℕ) : (once : Bool) → Prop
  | false => (i < j ∧ j < num) ∨ j ≤ last
  | true => i < j ∧ j ≤ last

/-- One round tests the next position. -/
theorem advance_spec {num : ℕ} (hlast : last < num) (hstands : Stands num last i once)
    (hgoes : once = false ∨ i ≠ last) :
    Stands num last (advance num i once).1 (advance num i once).2 ∧
      rounds num last (advance num i once).1 (advance num i once).2 + 1 =
        rounds num last i once ∧
      ∀ j, Ahead num last i j once →
        j = (advance num i once).1 ∨
          Ahead num last (advance num i once).1 j (advance num i once).2 := by
  unfold advance
  cases once with
  | false =>
    obtain ⟨hle, hlt⟩ := hstands
    split
    · simp only [Stands, rounds, Ahead]
      refine ⟨by omega, by omega, fun j hj => by omega⟩
    · simp only [Stands, rounds, Ahead]
      refine ⟨by omega, by omega, fun j hj => by omega⟩
  | true =>
    have hle : i ≤ last := hstands
    have hne : i ≠ last := hgoes.resolve_left (by decide)
    -- behind the wrap the loop does not reach the end again
    rw [if_neg (by omega)]
    simp only [Stands, rounds, Ahead]
    refine ⟨by omega, by omega, fun j hj => by omega⟩

/-- The loop finds an address that is there and is accepted. -/
theorem getLoop_some (h : (getLoop addrs last prefs fuel i once).2 = some addr) :
    addr ∈ addrs ∧ prefs.Accepts addr := by
  induction fuel generalizing i once with
  | zero => cases h
  | succ fuel ih =>
    simp only [getLoop] at h
    split at h
    · split at h
      · rename_i found hget
        split at h
        · rename_i haccepts
          cases h
          exact ⟨List.mem_of_getElem? hget, haccepts⟩
        · exact ih h
      · cases h
    · cases h

/-- The loop finds nothing only if no position ahead of it is accepted. -/
theorem getLoop_none (hlast : last < addrs.length) (hstands : Stands addrs.length last i once)
    (hfuel : rounds addrs.length last i once ≤ fuel)
    (h : (getLoop addrs last prefs fuel i once).2 = none) (j : ℕ)
    (hj : Ahead addrs.length last i j once) (haddr : addrs[j]? = some addr) :
    ¬ prefs.Accepts addr := by
  induction fuel generalizing i once with
  | zero =>
    cases once with
    | false => simp only [Stands, rounds] at hstands hfuel; omega
    | true => simp only [Stands, rounds, Ahead] at hstands hfuel hj; omega
  | succ fuel ih =>
    simp only [getLoop] at h
    split at h
    · rename_i hgoes
      obtain ⟨hstands', hrounds, hahead⟩ := advance_spec hlast hstands hgoes
      split at h
      · rename_i found hget
        split at h
        · cases h
        · rename_i hrejects
          rcases hahead j hj with rfl | hj'
          · rw [hget] at haddr
            cases haddr
            exact hrejects
          · exact ih hstands' (by omega) h hj'
      · rename_i hget
        have hlt := advance_lt i once (Nat.zero_lt_of_lt hlast)
        rw [List.getElem?_eq_getElem hlt] at hget
        cases hget
    · rename_i hstops
      simp only [not_or, Bool.not_eq_false, not_not] at hstops
      obtain ⟨rfl, rfl⟩ := hstops
      simp only [Ahead] at hj
      omega

/-- More rounds than there are addresses change nothing: the loop has ended by itself. -/
theorem getLoop_fuel (hlast : last < addrs.length) (hstands : Stands addrs.length last i once)
    (hfuel : rounds addrs.length last i once ≤ fuel) (more : ℕ) :
    getLoop addrs last prefs (fuel + more) i once = getLoop addrs last prefs fuel i once := by
  induction fuel generalizing i once with
  | zero =>
    cases once with
    | false => simp only [Stands, rounds] at hstands hfuel; omega
    | true =>
      simp only [Stands, rounds] at hstands hfuel
      have hi : i = last := by omega
      cases more <;> simp [getLoop, hi]
  | succ fuel ih =>
    rw [Nat.add_right_comm]
    simp only [getLoop]
    split
    · rename_i hgoes
      obtain ⟨hstands', hrounds, -⟩ := advance_spec hlast hstands hgoes
      rw [ih hstands' (by omega)]
    · rfl

/-! ### `get` and `put` -/

variable {names : Names}

theorem last_lt (names : Names) (h : ¬ names.addrs.length = 0) :
    names.lastAccessIndex < names.addrs.length :=
  names.inBounds.elim id fun hzero => by omega

@[simp] theorem get_addrs (names : Names) (prefs : AddrPref) :
    (names.get prefs).1.addrs = names.addrs := by
  unfold get
  split <;> rfl

@[simp] theorem put_addrs (names : Names) (ans : Qanswer) :
    (names.put ans).addrs = names.addrs ++ ans.addr := rfl

@[simp] theorem empty_addrs : empty.addrs = [] := rfl

/-- What `get` returns is cached and satisfies the preference. -/
theorem get_some (h : (names.get prefs).2 = some addr) :
    addr ∈ names.addrs ∧ prefs.Accepts addr := by
  unfold get at h
  split at h
  · cases h
  · exact getLoop_some h

/-- `get` fails only if no cached address satisfies the preference. -/
theorem get_none (h : (names.get prefs).2 = none) :
    ∀ addr ∈ names.addrs, ¬ prefs.Accepts addr := by
  intro addr hmem
  obtain ⟨j, hj, haddr⟩ := List.getElem_of_mem hmem
  have hnum : ¬ names.addrs.length = 0 := by omega
  simp only [get, hnum, dite_false] at h
  have hlast := names.last_lt hnum
  have hstands : Stands names.addrs.length names.lastAccessIndex names.lastAccessIndex false :=
    ⟨le_refl _, hlast⟩
  refine getLoop_none hlast hstands ?_ h j
    ?_ (List.getElem?_eq_some_iff.mpr ⟨hj, haddr⟩)
  · simp only [rounds]
    omega
  · simp only [Ahead]
    omega

/-- **`get` finds an address** exactly if a cached one satisfies the preference. -/
theorem get_isSome_iff (names : Names) (prefs : AddrPref) :
    (names.get prefs).2.isSome = true ↔ ∃ addr ∈ names.addrs, prefs.Accepts addr := by
  constructor
  · intro h
    obtain ⟨addr, hsome⟩ := Option.isSome_iff_exists.mp h
    exact ⟨addr, get_some hsome⟩
  · rintro ⟨addr, hmem, haccepts⟩
    rw [Option.isSome_iff_ne_none]
    exact fun hnone => get_none hnone addr hmem haccepts

end Names

end ResolverImpl

/-! ## The Resolver -/

/-- A client, `ResolverIf`, by its address -/
abbrev ClientPtr := ℕ

/-- A lookup, `UdpResolver`, by its address: they are numbered in the order they are made. -/
abbrev LookupPtr := ℕ

/-- `ResolverImpl::ResolverQuery` -/
structure ResolverQuery where
  prefs : AddrPref
  /-- `clients`, the back at the end -/
  clients : List ClientPtr
  /-- `resolvers`, the back at the end -/
  resolvers : List LookupPtr
  /-- The event `timeout` runs `queryTimedout` with this number. -/
  timeout : UInt16
deriving DecidableEq, Repr

/-- `ResolverImpl`; `byExpiry` is never used. -/
structure ResolverImpl where
  resQueries : UnorderedMap UInt16 ResolverQuery
  byName : UnorderedMap Bytes ResolverImpl.Names
  request : UInt16
deriving DecidableEq

/-- A call that `ResolverImpl` makes. -/
inductive ResolverCall where
  /-- `client->resolved(addr)` -/
  | resolved (client : ClientPtr) (addr : IpAddr)
  /-- `client->notResolved()` -/
  | notResolved (client : ClientPtr)
  /-- `UdpSocket::create` for a new `UdpResolver(*this, requestNo, name, qType)` -/
  | create (requestNo : UInt16) (name : Bytes) (qType : Qtype)
  /-- `resolver->disconnect()`, if the weak pointer can be locked -/
  | disconnect (resolver : LookupPtr)
  /-- `Engine::setTimer` for the event of a request -/
  | setTimer (timeout : UInt16) (delay : NanoSecs)
  | cancelTimer (timeout : UInt16)
deriving DecidableEq, Repr

/-- Why a step is refused. -/
inductive ResolverHalt where
  /-- `back()` of an empty vector -/
  | emptyBack
  /-- "Not found for removal" -/
  | notFoundForRemoval
  /-- `Query::decode` reads outside the datagram. -/
  | outOfBounds
  /-- The step is not possible now. -/
  | disabled
deriving DecidableEq, Repr

namespace ResolverImpl

/-- `ResolverImpl()` -/
def init : ResolverImpl := ⟨∅, ∅, 0⟩

/-- The call that tells a client what `get` has found. -/
def answer (client : ClientPtr) : Option IpAddr → ResolverCall
  | some addr => .resolved client addr
  | none => .notResolved client

/-- `byName.find(name)`, and `get` of the entry found. -/
def getByName (byName : UnorderedMap Bytes Names) (name : Bytes) (prefs : AddrPref) :
    Option (UnorderedMap Bytes Names × Option IpAddr) :=
  match byName.lookup name with
  | some names => some (byName.insert name (names.get prefs).1, (names.get prefs).2)
  | none => none

/-- `put` for the entry of the answer's name, which is made if there is none. -/
def putByName (byName : UnorderedMap Bytes Names) (ans : Qanswer) :
    UnorderedMap Bytes Names :=
  byName.insert ans.name (((byName.lookup ans.name).getD .empty).put ans)

/-- The request of a call that did not find its name; `fresh` is the next lookup to be made. -/
def newQuery (s : ResolverImpl) (fresh : LookupPtr) (client : ClientPtr) (name : Bytes)
    (prefs : AddrPref) : ResolverQuery × List ResolverCall :=
  let query : ResolverQuery := ⟨prefs, [], [], s.request⟩
  let (query, calls, fresh) :=
    if prefs ≠ .Ipv4Only then
      -- this lookup is not pushed to `resolvers`
      ({ query with clients := query.clients ++ [client] },
        [ResolverCall.create s.request name Qtype.Aaaa], fresh + 1)
    else (query, [], fresh)
  if prefs ≠ .Ipv6Only then
    ({ query with
        resolvers := query.resolvers ++ [fresh]
        clients := query.clients ++ [client] },
      calls ++ [.create s.request name Qtype.A])
  else (query, calls)

/-- `resolve`, with the next lookup to be made -/
def resolve (s : ResolverImpl) (fresh : LookupPtr) (client : ClientPtr) (name : Bytes)
    (prefs : AddrPref) (timeout : NanoSecs) : ResolverImpl × List ResolverCall :=
  match getByName s.byName name prefs with
  | some (byName, found) => ({ s with byName }, [answer client found])
  | none =>
    let (query, calls) := s.newQuery fresh client name prefs
    ({ s with resQueries := s.resQueries.insert s.request query, request := s.request + 1 },
      calls ++ [.setTimer query.timeout timeout])

/-- One round of the loop of `queryTimedout`: the entry of `reqNo` is dropped. -/
def timeoutRound (s : ResolverImpl) (reqNo : UInt16) :
    Except ResolverHalt (ResolverImpl × ClientPtr × LookupPtr) :=
  match s.resQueries.lookup reqNo with
  | none => .error .disabled
  | some query =>
    match query.clients.getLast?, query.resolvers.getLast? with
    | some client, some resolver =>
      .ok ({ s with resQueries := s.resQueries.erase reqNo }, client, resolver)
    | _, _ => .error .emptyBack

/-- The loop of `queryTimedout` over the entries from the first of the list on; `client` is the
client of the entry before. -/
def timeoutLoop : List UInt16 → ResolverImpl → ClientPtr → List ResolverCall →
    Except ResolverHalt (ResolverImpl × List ResolverCall)
  | [], s, client, calls => .ok (s, calls ++ [.notResolved client])
  | reqNo :: rest, s, _, calls => do
    let (s, client, resolver) ← s.timeoutRound reqNo
    timeoutLoop rest s client (calls ++ [.disconnect resolver])

/-- `queryTimedout`; `behind` are the numbers of the entries that stand behind the entry found in
the order of iteration. -/
def queryTimedout (s : ResolverImpl) (queryId : UInt16) (behind : List UInt16) :
    Except ResolverHalt (ResolverImpl × List ResolverCall) :=
  if queryId ∈ s.resQueries then do
    let (s, client, resolver) ← s.timeoutRound queryId
    timeoutLoop behind s client [.disconnect resolver]
  else if behind = [] then .ok (s, [])
  else .error .disabled

/-- `requestError` only writes to the log. -/
def requestError (s : ResolverImpl) (_reqNo : UInt16) : ResolverImpl × List ResolverCall := (s, [])

/-- `requestComplete`; the name the request asked for and the number in the answer are not looked
at. -/
def requestComplete (s : ResolverImpl) (reqNo : UInt16) (ans : Qanswer) :
    Except ResolverHalt (ResolverImpl × List ResolverCall) :=
  match s.resQueries.lookup reqNo with
  | none => .ok (s, [])
  | some query =>
    match query.clients.getLast? with
    | none => .error .emptyBack
    | some client =>
      let query := { query with clients := query.clients.dropLast }
      let byName := if ans.valid = true then putByName s.byName ans else s.byName
      if query.clients = [] then
        let calls := [ResolverCall.cancelTimer query.timeout]
        let resQueries := s.resQueries.erase reqNo
        match getByName byName ans.name query.prefs with
        | some (byName, found) =>
          .ok ({ s with resQueries, byName }, calls ++ [answer client found])
        | none => .ok ({ s with resQueries, byName }, calls ++ [.notResolved client])
      else .ok ({ s with resQueries := s.resQueries.insert reqNo query, byName }, [])

/-! ## What the Functions Do -/

variable {s s' : ResolverImpl} {fresh : LookupPtr} {client : ClientPtr} {name : Bytes}
  {prefs : AddrPref} {timeout : NanoSecs} {reqNo queryId : UInt16} {ans : Qanswer}
  {calls : List ResolverCall} {behind : List UInt16}

/-- `resolve` for a name that is in the cache. -/
theorem resolve_cached {names : Names} (hname : s.byName.lookup name = some names) :
    s.resolve fresh client name prefs timeout =
      ({ s with byName := s.byName.insert name (names.get prefs).1 },
        [answer client (names.get prefs).2]) := by
  simp only [resolve, getByName, hname]

/-- `resolve` for a name that is not in the cache. -/
theorem resolve_uncached (hname : s.byName.lookup name = none) :
    s.resolve fresh client name prefs timeout =
      ({ s with
          resQueries := s.resQueries.insert s.request (s.newQuery fresh client name prefs).1
          request := s.request + 1 },
        (s.newQuery fresh client name prefs).2 ++
          [.setTimer (s.newQuery fresh client name prefs).1.timeout timeout]) := by
  simp only [resolve, getByName, hname]

/-- The addresses cached when an answer has been looked at. -/
def stored (s : ResolverImpl) (ans : Qanswer) : UnorderedMap Bytes Names :=
  if ans.valid = true then putByName s.byName ans else s.byName

/-- What the last answer to a request finds: the cache after `get`, and the address. -/
def outcome (s : ResolverImpl) (ans : Qanswer) (prefs : AddrPref) :
    UnorderedMap Bytes Names × Option IpAddr :=
  (getByName (s.stored ans) ans.name prefs).getD (s.stored ans, none)

/-- The addresses cached for a name. -/
def addrsOf (byName : UnorderedMap Bytes Names) (name : Bytes) : List IpAddr :=
  match byName.lookup name with
  | some names => names.addrs
  | none => []

theorem addrsOf_eq {byName : UnorderedMap Bytes Names} {names : Names}
    (h : byName.lookup name = some names) : addrsOf byName name = names.addrs := by
  rw [addrsOf, h]

/-- `get` leaves the addresses alone. -/
theorem addrsOf_insert_get {byName : UnorderedMap Bytes Names} {names : Names}
    (h : byName.lookup name = some names) (n : Bytes) :
    addrsOf (byName.insert name (names.get prefs).1) n = addrsOf byName n := by
  unfold addrsOf
  rw [UnorderedMap.lookup_insert_eq]
  by_cases hn : n = name
  · rw [if_pos hn, hn, h]
    exact names.get_addrs prefs
  · rw [if_neg hn]

theorem addrsOf_putByName (byName : UnorderedMap Bytes Names) (ans : Qanswer) (n : Bytes) :
    addrsOf (putByName byName ans) n =
      if n = ans.name then addrsOf byName n ++ ans.addr else addrsOf byName n := by
  unfold addrsOf putByName
  rw [UnorderedMap.lookup_insert_eq]
  by_cases hn : n = ans.name
  · rw [if_pos hn, if_pos hn, hn]
    cases byName.lookup ans.name <;> rfl
  · rw [if_neg hn, if_neg hn]

/-- A valid answer adds its addresses, under the name it carries. -/
theorem addrsOf_stored (s : ResolverImpl) (ans : Qanswer) (n : Bytes) :
    addrsOf (s.stored ans) n =
      if ans.valid = true ∧ n = ans.name then addrsOf s.byName n ++ ans.addr
      else addrsOf s.byName n := by
  unfold stored
  by_cases hvalid : ans.valid = true
  · simp only [hvalid, if_true, true_and, addrsOf_putByName]
  · rw [if_neg hvalid, if_neg fun h => hvalid h.1]

theorem mem_stored_iff {n : Bytes} :
    n ∈ s.stored ans ↔ n ∈ s.byName ∨ (ans.valid = true ∧ n = ans.name) := by
  unfold stored
  by_cases hvalid : ans.valid = true
  · simp only [hvalid, if_true, true_and, putByName, AList.mem_insert]
    exact or_comm
  · simp [hvalid]

/-- The last answer to a request leaves the addresses as they were stored. -/
theorem addrsOf_outcome (s : ResolverImpl) (ans : Qanswer) (prefs : AddrPref) (n : Bytes) :
    addrsOf (s.outcome ans prefs).1 n = addrsOf (s.stored ans) n := by
  unfold outcome getByName
  cases hname : (s.stored ans).lookup ans.name with
  | none => rfl
  | some names => exact addrsOf_insert_get hname n

theorem mem_outcome_iff {n : Bytes} : n ∈ (s.outcome ans prefs).1 ↔ n ∈ s.stored ans := by
  unfold outcome getByName
  cases hname : (s.stored ans).lookup ans.name with
  | none => rfl
  | some names =>
    simp only [Option.getD_some, AList.mem_insert]
    constructor
    · rintro (rfl | hn)
      · exact UnorderedMap.mem_iff_lookup.mpr ⟨names, hname⟩
      · exact hn
    · exact Or.inr

/-- The last answer to a request finds an address exactly if one that is cached for the name in the
answer satisfies the preference. -/
theorem outcome_isSome_iff (s : ResolverImpl) (ans : Qanswer) (prefs : AddrPref) :
    (s.outcome ans prefs).2.isSome = true ↔
      ∃ addr ∈ addrsOf (s.stored ans) ans.name, prefs.Accepts addr := by
  unfold outcome getByName addrsOf
  cases hname : (s.stored ans).lookup ans.name with
  | none => simp
  | some names => exact names.get_isSome_iff prefs

theorem outcome_accepts {addr : IpAddr} (h : (s.outcome ans prefs).2 = some addr) :
    prefs.Accepts addr := by
  unfold outcome getByName at h
  cases hname : (s.stored ans).lookup ans.name with
  | none => simp [hname] at h
  | some names =>
    simp only [hname, Option.getD_some] at h
    exact (Names.get_some h).2

/-- **Specification of `requestComplete`**: everything it can do. -/
inductive Completes (s : ResolverImpl) (reqNo : UInt16) (ans : Qanswer) :
    ResolverImpl → List ResolverCall → Prop where
  | ignored (hgone : s.resQueries.lookup reqNo = none) : Completes s reqNo ans s []
  /-- More answers are to come. -/
  | more {query : ResolverQuery} {client : ClientPtr}
      (hquery : s.resQueries.lookup reqNo = some query)
      (hclient : query.clients.getLast? = some client) (hrest : query.clients.dropLast ≠ []) :
      Completes s reqNo ans { s with
        resQueries :=
          s.resQueries.insert reqNo { query with clients := query.clients.dropLast }
        byName := s.stored ans } []
  | last {query : ResolverQuery} {client : ClientPtr}
      (hquery : s.resQueries.lookup reqNo = some query)
      (hclient : query.clients.getLast? = some client) (hrest : query.clients.dropLast = []) :
      Completes s reqNo ans { s with
        resQueries := s.resQueries.erase reqNo
        byName := (s.outcome ans query.prefs).1 }
        [.cancelTimer query.timeout, answer client (s.outcome ans query.prefs).2]

theorem completes_of_ok (h : s.requestComplete reqNo ans = .ok (s', calls)) :
    Completes s reqNo ans s' calls := by
  unfold requestComplete at h
  split at h
  · rename_i hgone
    cases h
    exact .ignored hgone
  · rename_i query hquery
    split at h
    · cases h
    · rename_i client hclient
      simp only at h
      split at h
      · rename_i hrest
        -- the name of the answer may not be in the cache: then the client is told so
        have hlast : Completes s reqNo ans _ _ := .last hquery hclient hrest
        simp only [outcome] at hlast
        change (match getByName (s.stored ans) ans.name query.prefs with
          | some (byName, found) => _
          | none => _) = _ at h
        split at h <;> rename_i hfound <;> cases h <;> rw [hfound] at hlast <;> exact hlast
      · rename_i hrest
        cases h
        exact .more hquery hclient hrest

/-- An answer that is not the last. -/
theorem requestComplete_more {query : ResolverQuery} (ans : Qanswer)
    (hquery : s.resQueries.lookup reqNo = some query)
    (hclient : query.clients.getLast? = some client) (hrest : query.clients.dropLast ≠ []) :
    s.requestComplete reqNo ans = .ok ({ s with
      resQueries := s.resQueries.insert reqNo { query with clients := query.clients.dropLast }
      byName := s.stored ans }, []) := by
  simp only [requestComplete, hquery, hclient, hrest, if_false]
  rfl

/-- The last answer. -/
theorem requestComplete_last {query : ResolverQuery}
    (hquery : s.resQueries.lookup reqNo = some query)
    (hclient : query.clients.getLast? = some client) (hrest : query.clients.dropLast = []) :
    s.requestComplete reqNo ans = .ok ({ s with
      resQueries := s.resQueries.erase reqNo
      byName := (s.outcome ans query.prefs).1 },
      [.cancelTimer query.timeout, answer client (s.outcome ans query.prefs).2]) := by
  simp only [requestComplete, hquery, hclient, hrest, if_true]
  change (match getByName (s.stored ans) ans.name query.prefs with
    | some (byName, found) => _
    | none => _) = _
  unfold outcome
  cases getByName (s.stored ans) ans.name query.prefs <;> rfl

/-- A round of `queryTimedout` drops one entry. -/
theorem timeoutRound_eq_ok_iff {resolver : LookupPtr} :
    s.timeoutRound reqNo = .ok (s', client, resolver) ↔ ∃ query,
      s.resQueries.lookup reqNo = some query ∧ query.clients.getLast? = some client ∧
        query.resolvers.getLast? = some resolver ∧
        s' = { s with resQueries := s.resQueries.erase reqNo } := by
  unfold timeoutRound
  constructor
  · intro h
    split at h
    · cases h
    · rename_i query hquery
      split at h
      · rename_i c r hc hr
        cases h
        exact ⟨query, hquery, hc, hr, rfl⟩
      · cases h
  · rintro ⟨query, hquery, hclient, hresolver, rfl⟩
    simp only [hquery, hclient, hresolver]

/-- **Specification of `queryTimedout`** for a request it finds: the entries `dropped` leave, and
for each of them one of the lookups `resolvers` is disconnected. -/
structure Drops (s : ResolverImpl) (dropped : List UInt16) (s' : ResolverImpl)
    (resolvers : List LookupPtr) : Prop where
  byName : s'.byName = s.byName
  request : s'.request = s.request
  kept : ∀ k query, s'.resQueries.lookup k = some query →
    s.resQueries.lookup k = some query ∧ k ∉ dropped
  found : ∀ k ∈ dropped, ∃ query resolver, s.resQueries.lookup k = some query ∧
    query.resolvers.getLast? = some resolver ∧ resolver ∈ resolvers
  nodup : dropped.Nodup

theorem Drops.gone {dropped : List UInt16} {resolvers : List LookupPtr}
    (h : Drops s dropped s' resolvers) {k : UInt16} (hk : k ∈ dropped) : k ∉ s'.resQueries := by
  intro hleft
  obtain ⟨query, hquery⟩ := UnorderedMap.mem_iff_lookup.mp hleft
  exact (h.kept k query hquery).2 hk

/-- A round, and then the rest of the loop. -/
theorem Drops.cons {t : ResolverImpl} {resolver : LookupPtr} {resolvers : List LookupPtr}
    (hround : s.timeoutRound reqNo = .ok (t, client, resolver))
    (h : Drops t behind s' resolvers) : Drops s (reqNo :: behind) s' (resolver :: resolvers) := by
  obtain ⟨query, hquery, -, hresolver, rfl⟩ := timeoutRound_eq_ok_iff.mp hround
  -- what the rest of the loop finds is not the entry of this round
  have hrest : ∀ k query, (s.resQueries.erase reqNo).lookup k = some query →
      k ≠ reqNo ∧ s.resQueries.lookup k = some query := by
    intro k query hk
    exact UnorderedMap.lookup_erase_eq_some_iff.mp hk
  constructor
  case byName => exact h.byName
  case request => exact h.request
  case kept =>
    intro k other hk
    obtain ⟨hlookup, hnot⟩ := h.kept k other hk
    obtain ⟨hne, hlookup⟩ := hrest k other hlookup
    exact ⟨hlookup, List.not_mem_cons_of_ne_of_not_mem hne hnot⟩
  case found =>
    intro k hk
    rcases List.mem_cons.mp hk with rfl | hk
    · exact ⟨query, resolver, hquery, hresolver, List.mem_cons_self ..⟩
    · obtain ⟨other, r, hother, hr, hmem⟩ := h.found k hk
      exact ⟨other, r, (hrest k other hother).2, hr, List.mem_cons_of_mem _ hmem⟩
  case nodup =>
    refine List.nodup_cons.mpr ⟨fun hmem => ?_, h.nodup⟩
    obtain ⟨other, r, hother, -⟩ := h.found reqNo hmem
    exact (hrest reqNo other hother).1 rfl

theorem drops_of_timeoutLoop {calls' : List ResolverCall}
    (h : timeoutLoop behind s client calls = .ok (s', calls')) : ∃ resolvers owner,
      Drops s behind s' resolvers ∧
        calls' = calls ++ resolvers.map ResolverCall.disconnect ++ [.notResolved owner] := by
  induction behind generalizing s client calls with
  | nil =>
    cases h
    refine ⟨[], client, ⟨rfl, rfl, fun k query hk => ⟨hk, List.not_mem_nil⟩,
      fun k hk => (by cases hk), List.nodup_nil⟩, by simp⟩
  | cons reqNo rest ih =>
    obtain ⟨⟨t, c, resolver⟩, hround, hloop⟩ := bind_eq_ok_iff.mp h
    obtain ⟨resolvers, owner, hdrops, hcalls⟩ := ih hloop
    exact ⟨resolver :: resolvers, owner, hdrops.cons hround, by simp [hcalls]⟩

theorem drops_of_queryTimedout (hfound : queryId ∈ s.resQueries)
    (h : s.queryTimedout queryId behind = .ok (s', calls)) : ∃ resolvers owner,
      Drops s (queryId :: behind) s' resolvers ∧
        calls = resolvers.map ResolverCall.disconnect ++ [.notResolved owner] := by
  rw [queryTimedout, if_pos hfound] at h
  obtain ⟨⟨t, c, resolver⟩, hround, hloop⟩ := bind_eq_ok_iff.mp h
  obtain ⟨resolvers, owner, hdrops, hcalls⟩ := drops_of_timeoutLoop hloop
  exact ⟨resolver :: resolvers, owner, hdrops.cons hround, by simp [hcalls]⟩

/-- A timeout for a request that has left changes nothing. -/
theorem queryTimedout_late (hgone : queryId ∉ s.resQueries)
    (h : s.queryTimedout queryId behind = .ok (s', calls)) : behind = [] ∧ s' = s ∧ calls = [] := by
  rw [queryTimedout, if_neg hgone] at h
  split at h <;> cases h
  rename_i hbehind
  exact ⟨hbehind, rfl, rfl⟩

end ResolverImpl

end Epoller
