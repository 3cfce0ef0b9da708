import Epoller.Resolver.Answers
import Epoller.Resolver.Cache

/-!
# The Cache and the Name Server

A name server with fixed answers, and a call of `resolve` that finds its name in
the cache. The cache does not remember which types of records were asked for, so
such a call sees whatever earlier calls have left there.

## Contents

- `NameServer`, `EmptyCacheResolves`: what a call with an empty cache reports
- `CacheMatches`: the cache holds exactly the answers that have arrived
- `Filled`, `NotForeign`: those answers are as good as the ones the call would get
- `agrees_of_run`: then every call is answered as with an empty cache
-/

namespace Epoller

open Foundation Query ResolverImpl

/-- The addresses a name server lists for each name and type. -/
abbrev NameServer := Bytes → Qtype → List IpAddr

namespace NameServer

/-- What is read from the response to a lookup. -/
structure IsAnswer (server : NameServer) (resolver : UdpResolver) (ans : Qanswer) : Prop where
  valid : ans.valid = true ↔ server resolver.name resolver.qType ≠ []
  reqNo : ans.reqNo = resolver.requestNo
  name : ans.name = resolver.name
  addr : ans.addr = server resolver.name resolver.qType

/-- Such an answer. -/
def answer (server : NameServer) (resolver : UdpResolver) : Qanswer where
  valid := decide (server resolver.name resolver.qType ≠ [])
  reqNo := resolver.requestNo
  name := resolver.name
  addr := server resolver.name resolver.qType
  ttl := none
  timeStamp := 0

theorem isAnswer_answer (server : NameServer) (resolver : UdpResolver) :
    server.IsAnswer resolver (server.answer resolver) :=
  ⟨decide_eq_true_iff, rfl, rfl, rfl⟩

/-- The server lists an address that satisfies the preference. -/
def Lists (server : NameServer) (name : Bytes) (prefs : AddrPref) (qType : Qtype) : Prop :=
  ∃ addr ∈ server name qType, prefs.Accepts addr

/-! ## An Empty Cache -/

/-- The calls made while the lookups are answered one after the other. -/
def answerAll (server : NameServer) : ResolverImpl → List UdpResolver → List ResolverCall
  | _, [] => []
  | impl, resolver :: rest =>
    match impl.requestComplete resolver.requestNo (server.answer resolver) with
    | .ok (impl, calls) => calls ++ answerAll server impl rest
    | .error _ => []

/-- The callbacks to a call that finds the cache empty. -/
def emptyCacheReports (server : NameServer) (name : Bytes) (prefs : AddrPref) : List Report :=
  ResolverSystem.reported none none (server.answerAll
    (ResolverImpl.init.resolve 0 0 name prefs 0).1 (ResolverSystem.newLookups 0 0 name prefs))

/-- With an empty cache the call is told `resolved`. -/
def EmptyCacheResolves (server : NameServer) (name : Bytes) (prefs : AddrPref) : Prop :=
  ∃ r ∈ server.emptyCacheReports name prefs, r.found.isSome = true

/-- The addresses cached for the name of an answer of the server, once it is stored. -/
theorem mem_addrsOf_stored {server : NameServer} {impl : ResolverImpl} {resolver : UdpResolver}
    {ans : Qanswer} (h : server.IsAnswer resolver ans) (name : Bytes) (addr : IpAddr) :
    addr ∈ addrsOf (impl.stored ans) name ↔ addr ∈ addrsOf impl.byName name ∨
      (name = resolver.name ∧ addr ∈ server resolver.name resolver.qType) := by
  rw [addrsOf_stored, h.name, h.addr]
  split
  · rename_i hown
    rw [List.mem_append]
    exact or_congr_right ⟨fun hmem => ⟨hown.2, hmem⟩, And.right⟩
  · rename_i hother
    -- an answer that is not valid lists nothing
    refine (or_iff_left ?_).symm
    rintro ⟨hname, hmem⟩
    exact hother ⟨h.valid.mpr (List.ne_nil_of_mem hmem), hname⟩

/-- The last answer to a request reports what is cached for the name then. -/
theorem reported_answerAll_last {server : NameServer} {impl : ResolverImpl}
    {resolver : UdpResolver} {query : ResolverQuery} {client : ClientPtr}
    (hquery : impl.resQueries.lookup resolver.requestNo = some query)
    (hclients : query.clients = [client]) :
    ResolverSystem.reported none none (server.answerAll impl [resolver]) =
      [⟨none, none, client, (impl.outcome (server.answer resolver) query.prefs).2⟩] := by
  rw [answerAll, requestComplete_last hquery (by rw [hclients]; rfl) (by rw [hclients]; rfl)]
  exact ResolverSystem.reported_answer ..

/-- Once an answer of the server is stored, an address is there if it was cached before or the
answer lists it. -/
theorem exists_stored_iff (server : NameServer) (impl : ResolverImpl) (resolver : UdpResolver)
    (prefs : AddrPref) :
    (∃ addr ∈ addrsOf (impl.stored (server.answer resolver)) resolver.name, prefs.Accepts addr) ↔
      (∃ addr ∈ addrsOf impl.byName resolver.name, prefs.Accepts addr) ∨
        server.Lists resolver.name prefs resolver.qType := by
  rw [Lists, ← exists_or]
  refine exists_congr fun addr => ?_
  rw [← or_and_right]
  refine and_congr_left fun _ => ?_
  rw [mem_addrsOf_stored (server.isAnswer_answer resolver)]
  exact or_congr_right (and_iff_right rfl)

/-- The resolver after the first call of `resolve`. -/
theorem resolve_init (name : Bytes) (prefs : AddrPref) :
    (ResolverImpl.init.resolve 0 0 name prefs 0).1.byName = ∅ ∧
      (ResolverImpl.init.resolve 0 0 name prefs 0).1.resQueries.lookup 0 =
        some (ResolverImpl.init.newQuery 0 0 name prefs).1 := by
  rw [resolve_uncached (s := ResolverImpl.init) rfl]
  exact ⟨rfl, AList.lookup_insert _⟩

theorem addrsOf_empty (name : Bytes) : addrsOf ∅ name = [] := rfl

/-- **With an empty cache** a call is told `resolved` exactly if the server's answer to one of its
lookups lists an address that satisfies the preference. -/
theorem emptyCacheResolves_iff (server : NameServer) (name : Bytes) (prefs : AddrPref) :
    server.EmptyCacheResolves name prefs ↔
      ∃ qType, prefs.Wants qType ∧ server.Lists name prefs qType := by
  obtain ⟨hempty, hquery⟩ := resolve_init name prefs
  unfold EmptyCacheResolves emptyCacheReports
  generalize (ResolverImpl.init.resolve 0 0 name prefs 0).1 = impl at hempty hquery
  cases prefs with
  | AnyAddr =>
    -- the answer for IPv6 addresses comes first, and is not the last
    have hmore := requestComplete_more (server.answer ⟨0, name, Qtype.Aaaa, 0⟩) hquery rfl
      (List.cons_ne_nil _ _)
    have hcalls : server.answerAll impl (ResolverSystem.newLookups 0 0 name .AnyAddr) =
        server.answerAll { impl with
          resQueries := impl.resQueries.insert 0 ⟨.AnyAddr, [0], [1], 0⟩
          byName := impl.stored (server.answer ⟨0, name, Qtype.Aaaa, 0⟩) }
          [⟨0, name, Qtype.A, 0⟩] := by
      change answerAll server impl [⟨0, name, Qtype.Aaaa, 0⟩, ⟨0, name, Qtype.A, 0⟩] = _
      rw [answerAll, hmore]
      rfl
    rw [hcalls, reported_answerAll_last (AList.lookup_insert _) rfl]
    simp only [List.mem_singleton, exists_eq_left]
    refine (outcome_isSome_iff ..).trans ((exists_stored_iff server _ ⟨0, name, Qtype.A, 0⟩
      .AnyAddr).trans ?_)
    rw [exists_stored_iff server impl ⟨0, name, Qtype.Aaaa, 0⟩ .AnyAddr, hempty]
    simp [addrsOf_empty, AddrPref.Wants, or_and_right, exists_or]
  | Ipv4Only =>
    have hcalls : ResolverSystem.newLookups 0 0 name .Ipv4Only = [⟨0, name, Qtype.A, 0⟩] := rfl
    rw [hcalls, reported_answerAll_last hquery rfl]
    simp only [List.mem_singleton, exists_eq_left]
    refine (outcome_isSome_iff ..).trans ((exists_stored_iff server impl _ .Ipv4Only).trans ?_)
    simp [hempty, addrsOf_empty, AddrPref.Wants]
  | Ipv6Only =>
    have hcalls : ResolverSystem.newLookups 0 0 name .Ipv6Only = [⟨0, name, Qtype.Aaaa, 0⟩] := rfl
    rw [hcalls, reported_answerAll_last hquery rfl]
    simp only [List.mem_singleton, exists_eq_left]
    refine (outcome_isSome_iff ..).trans ((exists_stored_iff server impl _ .Ipv6Only).trans ?_)
    simp [hempty, addrsOf_empty, AddrPref.Wants]

end NameServer

/-! ## The Cache -/

namespace ResolverSystem

/-- An answer to a lookup for the name and the type has arrived. -/
def Answered (s : ResolverSystem) (name : Bytes) (qType : Qtype) : Prop :=
  ∃ i ∈ s.completed, ∃ resolver : UdpResolver, s.lookups[i]? = some resolver ∧
    resolver.name = name ∧ resolver.qType = qType

/-- The cache holds the answers that have arrived, and the workers bring the server's answers. -/
structure CacheMatches (server : NameServer) (s : ResolverSystem) : Prop where
  addrs : ∀ name addr, addr ∈ addrsOf s.impl.byName name ↔
    ∃ qType, Answered s name qType ∧ addr ∈ server name qType
  known : ∀ name, name ∈ s.impl.byName → ∃ qType, Answered s name qType ∧ server name qType ≠ []
  workers : ∀ i ans, (i, .answered ans) ∈ s.workers → ∃ resolver : UdpResolver,
    s.lookups[i]? = some resolver ∧ server.IsAnswer resolver ans

/-- Every datagram is read as the server's answer to the lookup it came to. -/
def FromServer (server : NameServer) (decode : Decoder) (s : ResolverSystem) : LookupStep → Prop
  | .received lookup datagram clock => ∀ resolver : UdpResolver,
    s.lookups[lookup]? = some resolver →
      ∃ ans, decode clock datagram = .ok ans ∧ server.IsAnswer resolver ans
  | .resolve .. | .enter _ | .requestComplete .. | .notSent _ | .leave .. | .queryTimedout .. =>
    True

/-- If the server lists an address for the preference in an answer the call would ask for, an
answer that lists one has arrived. -/
def Filled (server : NameServer) (s : ResolverSystem) (name : Bytes) (prefs : AddrPref) : Prop :=
  ∀ qType, prefs.Wants qType → server.Lists name prefs qType →
    ∃ arrived, Answered s name arrived ∧ server.Lists name prefs arrived

/-- If an answer that has arrived lists an address for the preference, so does an answer the call
would ask for. -/
def NotForeign (server : NameServer) (s : ResolverSystem) (name : Bytes) (prefs : AddrPref) :
    Prop :=
  ∀ arrived, Answered s name arrived → server.Lists name prefs arrived →
    ∃ qType, prefs.Wants qType ∧ server.Lists name prefs qType

/-- The answers that have arrived serve a call for one family as well as its own would. -/
def CacheServes (server : NameServer) (s : ResolverSystem) : LookupStep → Prop
  | .resolve _ name prefs _ => name ∈ s.impl.byName → prefs ≠ .AnyAddr →
    Filled server s name prefs ∧ NotForeign server s name prefs
  | .requestComplete lookup _ => ∀ (resolver : UdpResolver) query,
    s.lookups[lookup]? = some resolver →
      s.impl.resQueries.lookup resolver.requestNo = some query → query.prefs ≠ .AnyAddr →
        NotForeign server s resolver.name query.prefs
  | .enter _ | .received .. | .notSent _ | .leave .. | .queryTimedout .. => True

instance (server : NameServer) (resolver : UdpResolver) (ans : Qanswer) :
    Decidable (server.IsAnswer resolver ans) :=
  decidable_of_iff ((ans.valid = true ↔ server resolver.name resolver.qType ≠ []) ∧
      ans.reqNo = resolver.requestNo ∧ ans.name = resolver.name ∧
        ans.addr = server resolver.name resolver.qType)
    ⟨fun ⟨hvalid, hreqNo, hname, haddr⟩ => ⟨hvalid, hreqNo, hname, haddr⟩,
      fun h => ⟨h.valid, h.reqNo, h.name, h.addr⟩⟩

instance (server : NameServer) (decode : Decoder) (s : ResolverSystem) (l : LookupStep) :
    Decidable (FromServer server decode s l) :=
  match l with
  | .received lookup datagram clock =>
    inferInstanceAs (Decidable (∀ resolver : UdpResolver, s.lookups[lookup]? = some resolver →
      ∃ ans, decode clock datagram = .ok ans ∧ server.IsAnswer resolver ans))
  | .resolve .. | .enter _ | .requestComplete .. | .notSent _ | .leave .. | .queryTimedout .. =>
    inferInstanceAs (Decidable True)

/-- The callback tells the client what it would be told with an empty cache. -/
def Agrees (server : NameServer) (r : Report) : Prop :=
  ∃ question, r.question = some question ∧
    (r.found.isSome = true ↔ server.EmptyCacheResolves question.name question.prefs) ∧
    ∀ addr, r.found = some addr → question.prefs.Accepts addr

variable {server : NameServer} {decode : Decoder} {s s' : ResolverSystem} {l : LookupStep}
  {ls : List LookupStep}

theorem Answered.frame {name : Bytes} {qType : Qtype} (hlookups : s'.lookups = s.lookups)
    (hcompleted : s'.completed = s.completed) :
    Answered s' name qType ↔ Answered s name qType := by
  rw [Answered, Answered, hlookups, hcompleted]

/-- New lookups are not answered. -/
theorem answered_append {new : List UdpResolver} {name : Bytes} {qType : Qtype}
    (hphases : Phases s) (hlookups : s'.lookups = s.lookups ++ new)
    (hcompleted : s'.completed = s.completed) :
    Answered s' name qType ↔ Answered s name qType := by
  rw [Answered, Answered, hlookups, hcompleted]
  refine exists_congr fun i => and_congr_right fun hi => ?_
  rw [List.getElem?_append_left (hphases.completed i hi)]

/-- A lookup that is completed has its type answered. -/
theorem answered_complete {lookup : LookupPtr} {resolver : UdpResolver} {name : Bytes}
    {qType : Qtype} (hlookups : s'.lookups = s.lookups)
    (hcompleted : s'.completed = insert lookup s.completed)
    (hresolver : s.lookups[lookup]? = some resolver) :
    Answered s' name qType ↔
      Answered s name qType ∨ (name = resolver.name ∧ qType = resolver.qType) := by
  unfold Answered
  rw [hlookups, hcompleted]
  constructor
  · rintro ⟨i, hi, other, hother, hname, htype⟩
    rcases Finset.mem_insert.mp hi with rfl | hi
    · rw [hresolver] at hother
      cases hother
      exact .inr ⟨hname.symm, htype.symm⟩
    · exact .inl ⟨i, hi, other, hother, hname, htype⟩
  · rintro (⟨i, hi, h⟩ | ⟨rfl, rfl⟩)
    · exact ⟨i, Finset.mem_insert_of_mem hi, h⟩
    · exact ⟨lookup, Finset.mem_insert_self .., resolver, hresolver, rfl, rfl⟩

/-- A step that leaves the cached addresses alone and answers no lookup. -/
theorem CacheMatches.frame (h : CacheMatches server s)
    (hanswered : ∀ name qType, Answered s' name qType ↔ Answered s name qType)
    (haddrs : ∀ name, addrsOf s'.impl.byName name = addrsOf s.impl.byName name)
    (hknown : ∀ name, name ∈ s'.impl.byName → name ∈ s.impl.byName)
    (hworkers : ∀ i ans, (i, .answered ans) ∈ s'.workers → ∃ resolver : UdpResolver,
      s'.lookups[i]? = some resolver ∧ server.IsAnswer resolver ans) :
    CacheMatches server s' := by
  constructor
  case addrs => simpa only [haddrs, hanswered] using h.addrs
  case known => simpa only [hanswered] using fun name hname => h.known name (hknown name hname)
  case workers => exact hworkers

/-- An answer of the server is stored. -/
theorem cacheMatches_stored {lookup : LookupPtr} {ans : Qanswer} {resolver : UdpResolver}
    (h : CacheMatches server s) (hmem : (lookup, .answered ans) ∈ s.workers)
    (hresolver : s.lookups[lookup]? = some resolver)
    (hworkers : s'.workers = (s.advance lookup (.answered ans) (some .returned)).workers)
    (hlookups : s'.lookups = s.lookups) (hcompleted : s'.completed = insert lookup s.completed)
    (haddrs : ∀ name, addrsOf s'.impl.byName name = addrsOf (s.impl.stored ans) name)
    (hknown : ∀ name, name ∈ s'.impl.byName → name ∈ s.impl.stored ans) :
    CacheMatches server s' := by
  obtain ⟨other, hother, hans⟩ := h.workers lookup ans hmem
  rw [hresolver] at hother
  cases hother
  constructor
  case addrs =>
    intro name addr
    rw [haddrs, NameServer.mem_addrsOf_stored hans, h.addrs]
    simp only [answered_complete hlookups hcompleted hresolver, or_and_right, exists_or]
    refine or_congr_right ⟨?_, ?_⟩
    · rintro ⟨rfl, haddr⟩
      exact ⟨_, ⟨rfl, rfl⟩, haddr⟩
    · rintro ⟨_, ⟨rfl, rfl⟩, haddr⟩
      exact ⟨rfl, haddr⟩
  case known =>
    intro name hname
    simp only [answered_complete hlookups hcompleted hresolver]
    rcases mem_stored_iff.mp (hknown name hname) with hold | ⟨hvalid, rfl⟩
    · obtain ⟨qType, hanswered, hne⟩ := h.known name hold
      exact ⟨qType, .inl hanswered, hne⟩
    · exact ⟨resolver.qType, .inr ⟨hans.name, rfl⟩, hans.name ▸ hans.valid.mp hvalid⟩
  case workers =>
    intro i other hi
    rw [hlookups]
    rw [hworkers] at hi
    rcases mem_advance hi with ⟨-, heq⟩ | hi
    · cases heq
    · exact h.workers i other hi

/-- Workers that bring the server's answers still do after a step that reads no datagram. -/
theorem CacheMatches.workers_append (h : CacheMatches server s) {new : List UdpResolver}
    (hlookups : s'.lookups = s.lookups ++ new)
    (hsub : ∀ i ans, (i, .answered ans) ∈ s'.workers → (i, .answered ans) ∈ s.workers) :
    ∀ i ans, (i, .answered ans) ∈ s'.workers → ∃ resolver : UdpResolver,
      s'.lookups[i]? = some resolver ∧ server.IsAnswer resolver ans := by
  intro i ans hi
  obtain ⟨resolver, hresolver, hans⟩ := h.workers i ans (hsub i ans hi)
  rw [hlookups, List.getElem?_append_left (List.getElem?_eq_some_iff.mp hresolver).1]
  exact ⟨resolver, hresolver, hans⟩

/-- **Step**: the cache holds exactly the server's answers that have arrived. -/
theorem cacheMatches_step (hphases : Phases s) (hrequested : Requested s)
    (h : CacheMatches server s) (hserver : FromServer server decode s l) (hl : InTime s l)
    (hstep : s.step decode l = .ok s') : CacheMatches server s' := by
  have hmoves := moves_of_step hstep
  cases hmoves with
  | cached hname =>
    refine h.frame (fun _ _ => Iff.rfl) (fun n => addrsOf_insert_get hname n) (fun n hn => ?_)
      h.workers
    rcases (AList.mem_insert _).mp hn with rfl | hn
    · exact UnorderedMap.mem_iff_lookup.mpr ⟨_, hname⟩
    · exact hn
  | uncached =>
    exact h.frame (fun _ _ => answered_append hphases rfl rfl) (fun _ => rfl) (fun _ hn => hn)
      (h.workers_append rfl fun _ _ hi => hi)
  | enter =>
    refine h.frame (fun _ _ => Iff.rfl) (fun _ => rfl) (fun _ hn => hn) fun i ans hi => ?_
    rcases List.mem_cons.mp hi with heq | hi
    · cases heq
    · exact h.workers i ans hi
  | @received lookup datagram clock ans hmem hfound hans =>
    refine h.frame (fun _ _ => Iff.rfl) (fun _ => rfl) (fun _ hn => hn) fun i other hi => ?_
    rcases mem_advance hi with ⟨rfl, heq⟩ | hi
    · -- this datagram is the server's answer
      cases heq
      obtain ⟨resolver, hresolver⟩ : ∃ resolver, s.lookups[i]? = some resolver :=
        ⟨_, List.getElem?_eq_getElem (hphases.registered i hfound).1⟩
      obtain ⟨ans', hdecode, hanswer⟩ := hserver resolver hresolver
      rw [hans] at hdecode
      cases hdecode
      exact ⟨resolver, hresolver, hanswer⟩
    · exact h.workers i other hi
  | ignored hmem hresolver hgone =>
    have hfound := (hrequested.uncompleted _ _ hresolver (hphases.notMem_completed hmem)).1
    exact absurd hfound (AList.lookup_eq_none.mp hgone)
  | more hmem hresolver =>
    exact cacheMatches_stored h hmem hresolver rfl rfl rfl (fun _ => rfl) fun _ hn => hn
  | last hmem hresolver =>
    exact cacheMatches_stored h hmem hresolver rfl rfl rfl (fun _ => addrsOf_outcome ..)
      fun _ hn => mem_outcome_iff.mp hn
  | notSent | late =>
    exact h.frame (fun _ _ => Iff.rfl) (fun _ => rfl) (fun _ hn => hn) h.workers
  | leave =>
    refine h.frame (fun _ _ => Iff.rfl) (fun _ => rfl) (fun _ hn => hn) fun i ans hi => ?_
    rcases mem_advance hi with ⟨-, heq⟩ | hi
    · cases heq
    · exact h.workers i ans hi
  | queryTimedout hdrops =>
    obtain ⟨query, resolver, hquery, -⟩ := hdrops.found _ (List.mem_cons_self ..)
    exact absurd (UnorderedMap.mem_iff_lookup.mpr ⟨query, hquery⟩) hl

/-! ## Callbacks -/

/-- An address that satisfies the preference is cached exactly if an answer that has arrived lists
one. -/
theorem CacheMatches.exists_accepts_iff (h : CacheMatches server s) (name : Bytes)
    (prefs : AddrPref) : (∃ addr ∈ addrsOf s.impl.byName name, prefs.Accepts addr) ↔
      ∃ qType, Answered s name qType ∧ server.Lists name prefs qType := by
  simp only [h.addrs, NameServer.Lists]
  constructor
  · rintro ⟨addr, ⟨qType, hanswered, hmem⟩, haccepts⟩
    exact ⟨qType, hanswered, addr, hmem, haccepts⟩
  · rintro ⟨qType, hanswered, addr, hmem, haccepts⟩
    exact ⟨addr, ⟨qType, hanswered, hmem⟩, haccepts⟩

theorem accepts_anyAddr (addr : IpAddr) : AddrPref.AnyAddr.Accepts addr := .inl (.inl rfl)

/-- Only the two types of lookups are ever answered. -/
theorem Requested.anyAddr_wants (h : Requested s) {name : Bytes} {qType : Qtype}
    (hanswered : Answered s name qType) : AddrPref.AnyAddr.Wants qType := by
  obtain ⟨i, -, resolver, hresolver, -, rfl⟩ := hanswered
  obtain ⟨question, -, -, hwants⟩ := h.asked i resolver hresolver
  rcases hwants with ⟨htype, -⟩ | ⟨htype, -⟩
  · exact .inl ⟨htype, by decide⟩
  · exact .inr ⟨htype, by decide⟩

/-- A call that finds its name in the cache. -/
theorem agrees_cached {call : Option ℕ} {client told : ClientPtr} {name : Bytes}
    {prefs : AddrPref} {names : Names} (hrequested : Requested s) (h : CacheMatches server s)
    (hname : s.impl.byName.lookup name = some names)
    (hserves : prefs ≠ .AnyAddr → Filled server s name prefs ∧ NotForeign server s name prefs) :
    Agrees server ⟨some ⟨client, name, prefs⟩, call, told, (names.get prefs).2⟩ := by
  refine ⟨_, rfl, ?_, fun addr haddr => (Names.get_some haddr).2⟩
  rw [Names.get_isSome_iff, ← addrsOf_eq hname, h.exists_accepts_iff,
    NameServer.emptyCacheResolves_iff]
  by_cases hprefs : prefs = .AnyAddr
  · subst hprefs
    constructor
    · rintro ⟨qType, hanswered, hlists⟩
      exact ⟨qType, hrequested.anyAddr_wants hanswered, hlists⟩
    · -- a name gets into the cache with an address
      intro _
      obtain ⟨qType, hanswered, hne⟩ :=
        h.known name (UnorderedMap.mem_iff_lookup.mpr ⟨names, hname⟩)
      obtain ⟨addr, haddr⟩ := List.exists_mem_of_ne_nil _ hne
      exact ⟨qType, hanswered, addr, haddr, accepts_anyAddr addr⟩
  · obtain ⟨hfilled, hforeign⟩ := hserves hprefs
    exact ⟨fun ⟨arrived, hanswered, hlists⟩ => hforeign arrived hanswered hlists,
      fun ⟨qType, hwants, hlists⟩ => hfilled qType hwants hlists⟩

/-- The last answer to a request. -/
theorem agrees_last {lookup : LookupPtr} {ans : Qanswer} {resolver : UdpResolver}
    {query : ResolverQuery} {call : Option ℕ} {told : ClientPtr} (hphases : Phases s)
    (hrequested : Requested s) (h : CacheMatches server s) (h' : CacheMatches server s')
    (hmem : (lookup, .answered ans) ∈ s.workers) (hresolver : s.lookups[lookup]? = some resolver)
    (hquery : s.impl.resQueries.lookup resolver.requestNo = some query)
    (hrest : query.clients.dropLast = []) (hlookups : s'.lookups = s.lookups)
    (hcompleted : s'.completed = insert lookup s.completed)
    (hbyName : s'.impl.byName = (s.impl.outcome ans query.prefs).1)
    (hserves : query.prefs ≠ .AnyAddr → NotForeign server s resolver.name query.prefs) :
    Agrees server
      ⟨s.questionOf resolver.requestNo, call, told, (s.impl.outcome ans query.prefs).2⟩ := by
  have hopen := hphases.notMem_completed hmem
  obtain ⟨-, hown⟩ := hrequested.uncompleted lookup resolver hresolver hopen
  obtain ⟨question, hquestion, hname, hwants⟩ := hrequested.asked lookup resolver hresolver
  obtain ⟨question', hquestion', hprefs, -⟩ := hrequested.waiting _ query _ hquery hown
  rw [hquestion] at hquestion'
  cases hquestion'
  refine ⟨question, ?_, ?_, fun addr haddr => hprefs ▸ outcome_accepts haddr⟩
  · simp only [questionOf, hown, Option.bind_some, hquestion]
  obtain ⟨other, hother, hans⟩ := h.workers lookup ans hmem
  rw [hresolver] at hother
  cases hother
  have hcached : addrsOf (s.impl.stored ans) ans.name = addrsOf s'.impl.byName question.name := by
    rw [hbyName, addrsOf_outcome, hans.name, hname]
  rw [outcome_isSome_iff, hcached, h'.exists_accepts_iff, NameServer.emptyCacheResolves_iff, hprefs]
  constructor
  · rintro ⟨arrived, hanswered, hlists⟩
    rcases (answered_complete hlookups hcompleted hresolver).mp hanswered with hold | ⟨-, rfl⟩
    · by_cases hany : question.prefs = .AnyAddr
      · exact ⟨arrived, hany ▸ hrequested.anyAddr_wants hold, hlists⟩
      · have hforeign := hserves (hprefs ▸ hany)
        rw [hprefs, hname] at hforeign
        exact hforeign arrived hold hlists
    · exact ⟨resolver.qType, hwants, hlists⟩
  · -- every lookup of the call is completed
    rintro ⟨qType, hqType, hlists⟩
    obtain ⟨i, made, hmade, hcall, rfl⟩ := hrequested.made _ question hquestion qType hqType
    have hempty := openLookups_last hrequested hlookups hcompleted hresolver hopen hquery hrest
    have hdone : i ∈ s'.completed := by
      by_contra hnot
      have hin : i ∈ s'.openLookups resolver.call := by
        rw [mem_openLookups_iff, hlookups]
        exact ⟨hnot, made, hmade, hcall⟩
      rw [hempty] at hin
      exact Finset.notMem_empty _ hin
    obtain ⟨owner, howner, hmadeName, -⟩ := hrequested.asked i made hmade
    rw [hcall, hquestion] at howner
    cases howner
    exact ⟨made.qType, ⟨i, hdone, made, hlookups ▸ hmade, hmadeName, rfl⟩, hlists⟩

/-- **Step**: a callback tells the client what it would be told with an empty cache. -/
theorem agrees_step (hphases : Phases s) (hrequested : Requested s) (h : CacheMatches server s)
    (h' : CacheMatches server s') (hserves : CacheServes server s l) (hl : InTime s l)
    (hreports : ∀ r ∈ s.reports, Agrees server r) (hstep : s.step decode l = .ok s') :
    ∀ r ∈ s'.reports, Agrees server r := by
  have happend : ∀ new, Agrees server new → ∀ r ∈ s.reports ++ [new], Agrees server r := by
    intro new hnew r hr
    rcases List.mem_append.mp hr with hr | hr
    · exact hreports r hr
    · exact List.mem_singleton.mp hr ▸ hnew
  have hmoves := moves_of_step hstep
  cases hmoves with
  | cached hname =>
    exact happend _ (agrees_cached hrequested h hname
      (hserves (UnorderedMap.mem_iff_lookup.mpr ⟨_, hname⟩)))
  | last hmem hresolver hquery hclient hrest =>
    exact happend _ (agrees_last hphases hrequested h h' hmem hresolver hquery hrest rfl rfl rfl
      (hserves _ _ hresolver hquery))
  | uncached | enter | received | ignored | more | notSent | leave | late => exact hreports
  | queryTimedout hdrops =>
    obtain ⟨query, resolver, hquery, -⟩ := hdrops.found _ (List.mem_cons_self ..)
    exact absurd (UnorderedMap.mem_iff_lookup.mpr ⟨query, hquery⟩) hl

/-! ## Runs -/

/-- **The cached path agrees with the query path**: if every lookup is answered in time by the
server, and what has arrived serves the calls for one family, every callback tells the client what
it would be told with an empty cache, and an address that is reported satisfies the preference. -/
theorem agrees_of_run (hserver : AllSteps (step decode) (FromServer server decode) init ls)
    (htime : AllSteps (step decode) InTime init ls)
    (hserves : AllSteps (step decode) (CacheServes server) init ls)
    (hrun : runFrom (step decode) init ls = .ok s) : ∀ r ∈ s.reports, Agrees server r := by
  refine (AllSteps.invariant
    (fun s => (Numbered s ∧ Phases s ∧ Requested s) ∧ CacheMatches server s ∧
      ∀ r ∈ s.reports, Agrees server r)
    (fun {s l s'} hinv hl hstep => ?_) ⟨⟨numbered_init, phases_init, requested_init⟩, ?_, ?_⟩
    ((hserver.and htime).and hserves) hrun).2.2
  · obtain ⟨⟨hnumbered, hphases, hrequested⟩, hcache, hreports⟩ := hinv
    obtain ⟨⟨hanswers, hintime⟩, hserves⟩ := hl
    have hcache' := cacheMatches_step hphases hrequested hcache hanswers hintime hstep
    exact ⟨⟨numbered_step hnumbered hstep, phases_step hphases hstep,
      requested_step hnumbered hphases hrequested hintime hstep⟩, hcache',
      agrees_step hphases hrequested hcache hcache' hserves hintime hreports hstep⟩
  · refine ⟨fun name addr => ⟨fun h => (by cases h), ?_⟩, fun name h => (by cases h),
      fun i ans h => (by cases h)⟩
    rintro ⟨qType, ⟨i, hi, -⟩, -⟩
    cases hi
  · exact fun r hr => (by cases hr)

/-- The server that lists 192.0.2.1 and 2001:db8::1 for every name. -/
def bothFamilies : NameServer := fun _ qType =>
  if qType = Qtype.A then (responseAnswer 0).addr
  else if qType = Qtype.Aaaa then [⟨#v[0x0120, 0xb80d, 0, 0, 0, 0, 0, 0x0100]⟩]
  else []

/-- A call for the IPv4 address of `a` is answered, and `a` is asked for again. -/
def askedAgain (prefs : AddrPref) : List LookupStep :=
  answeredRun 0x61 ++ [.resolve 2 [0x61] prefs 2]

/-- The server lists an address of each family. -/
theorem lists_bothFamilies (name : Bytes) (prefs : AddrPref) :
    ∃ qType, prefs.Wants qType ∧ bothFamilies.Lists name prefs qType := by
  cases prefs with
  | AnyAddr => exact ⟨Qtype.A, .inr ⟨rfl, by decide⟩, _, List.mem_singleton_self _, by decide⟩
  | Ipv4Only => exact ⟨Qtype.A, .inr ⟨rfl, by decide⟩, _, List.mem_singleton_self _, by decide⟩
  | Ipv6Only => exact ⟨Qtype.Aaaa, .inl ⟨rfl, by decide⟩, _, List.mem_singleton_self _, by decide⟩

/-- Behind an answered lookup for the IPv4 address of a name, that server's answers serve calls for
IPv4 addresses. -/
theorem cacheServes_bothFamilies {s : ResolverSystem} {l : LookupStep}
    (hprefs : ∀ client name prefs timeout,
      l = .resolve client name prefs timeout → prefs = .Ipv4Only)
    (hstate : ∀ name ∈ s.impl.byName.keys,
      0 ∈ s.completed ∧ s.lookups[0]? = some ⟨0, name, Qtype.A, 0⟩) :
    CacheServes bothFamilies s l := by
  cases l with
  | resolve client name prefs timeout =>
    cases hprefs _ _ _ _ rfl
    intro hname _
    obtain ⟨hcompleted, hlookup⟩ := hstate name hname
    refine ⟨fun qType hwants hlists => ?_, fun _ _ _ => lists_bothFamilies ..⟩
    obtain ⟨-, hother⟩ | ⟨rfl, -⟩ := hwants
    · exact absurd rfl hother
    · exact ⟨Qtype.A, ⟨0, hcompleted, _, hlookup, rfl, rfl⟩, hlists⟩
  | requestComplete => exact fun _ _ _ _ _ _ _ _ => lists_bothFamilies ..
  | enter | received | notSent | leave | queryTimedout => trivial

/-- The IPv4 address of `a` is asked for twice and found twice. -/
theorem agrees_askedAgain_ipv4 : ∃ s,
    runFrom (step Query.decode) init (askedAgain .Ipv4Only) = .ok s ∧
      s.reports.length = 2 ∧ ∀ r ∈ s.reports, Agrees bothFamilies r := by
  obtain ⟨s, hrun, hlength⟩ : ∃ s,
      runFrom (step Query.decode) init (askedAgain .Ipv4Only) = .ok s ∧ s.reports.length = 2 :=
    exists_ok_of_check (by decide +kernel)
  have hprefs : AllSteps (step Query.decode) (fun _ l => ∀ client name prefs timeout,
      l = .resolve client name prefs timeout → prefs = .Ipv4Only) init (askedAgain .Ipv4Only) :=
    AllSteps.of_forall_mem fun l hl client name prefs timeout heq => by
      simp [heq, askedAgain, answeredRun] at hl
      obtain ⟨-, -, rfl, -⟩ | ⟨-, -, rfl, -⟩ := hl <;> rfl
  have hstate : AllSteps (step Query.decode) (fun s _ => ∀ name ∈ s.impl.byName.keys,
      0 ∈ s.completed ∧ s.lookups[0]? = some ⟨0, name, Qtype.A, 0⟩) init
        (askedAgain .Ipv4Only) := by decide +kernel
  exact ⟨s, hrun, hlength, agrees_of_run (by decide +kernel) (by decide +kernel)
    ((hprefs.and hstate).imp_of_invariant (fun _ => True)
      (fun _ h => cacheServes_bothFamilies h.1 h.2) (fun _ _ _ => trivial) trivial) hrun⟩

/-- The cache holds the IPv4 address of `a`: a call for its IPv6 address is told that there is
none, though the server lists one. -/
theorem not_agrees_askedAgain_ipv6 : ¬ ∀ server ls s,
    AllSteps (step Query.decode) (FromServer server Query.decode) init ls →
      AllSteps (step Query.decode) InTime init ls →
        runFrom (step Query.decode) init ls = .ok s → ∀ r ∈ s.reports, Agrees server r := by
  intro h
  obtain ⟨s, hrun, hreport⟩ : ∃ s,
      runFrom (step Query.decode) init (askedAgain .Ipv6Only) = .ok s ∧
        ⟨some ⟨2, [0x61], .Ipv6Only⟩, none, 2, none⟩ ∈ s.reports :=
    exists_ok_of_check (by decide +kernel)
  obtain ⟨question, hquestion, hagrees, -⟩ :=
    h bothFamilies _ s (by decide +kernel) (by decide +kernel) hrun _ hreport
  cases hquestion
  have hfound := hagrees.mpr (NameServer.emptyCacheResolves_iff .. |>.mpr (lists_bothFamilies ..))
  exact absurd hfound (by decide)

end ResolverSystem

end Epoller
