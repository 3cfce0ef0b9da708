import Epoller.Query.RoundTrip
import Epoller.Resolver.Agreement

/-!
# Resolving Names Over the Wire

The resolver against a name server that reads queries and writes responses. What a
lookup sends is what `Query::resolve` has written; the response is any message with
the number and the question of that query and the records of the zone; and what
reaches the cache is what `Query::decode` makes of it.

## Contents

- `Zone`, `Zone.Replies`: a name server, and a response to a query
- `question_unique`: a query has one reading
- `decode_reply`: `decode` finds the zone's addresses in the response to a query
- `reportsOf`, `Told`: the callbacks to a call, none before its last answer and one behind it
- `resolved_of_run`: each client is told an address of the zone, or that there is none
-/

namespace Epoller

open Foundation Query ResolverImpl

/-! ## A Name Server -/

namespace Query

/-- The name that a message asks for -/
def Response.askedName (m : Response) : Bytes := joined (m.firstLabel :: m.moreLabels)

/-- The records that a name server has for each name and type; only the last may be an address. -/
structure Zone where
  records : Bytes → Qtype → List Record
  records_short : ∀ name qType, (records name qType).length < 2 ^ 16
  addressLast : ∀ name qType, ∀ r ∈ (records name qType).dropLast, r.address = none
  nulFree : ∀ name qType, ∀ r ∈ records name qType, r.name.NulFree

/-- The addresses that the zone lists -/
def Zone.server (zone : Zone) : NameServer := fun name qType =>
  ((zone.records name qType).filterMap Record.address).map IpAddr.set

/-- The datagram is a response to the query: it carries the number and the question of the query,
and the records of the zone. -/
def Zone.Replies (zone : Zone) (query datagram : Bytes) : Prop :=
  ∃ q r : Response, query = q.encode ∧ datagram = r.encode ∧ r.id = q.id ∧
    r.firstLabel = q.firstLabel ∧ r.moreLabels = q.moreLabels ∧ r.qtype = q.qtype ∧
    r.qclass = q.qclass ∧ r.answers = zone.records q.askedName q.qtype

/-! ### Queries Are Read in One Way -/

/-- The question stands behind the header. -/
theorem Response.standsAt_question (m : Response) :
    StandsAt m.encode HEADER_SIZE m.question := by
  rw [← m.length_header]
  exact standsAt_of_eq (m.answers.flatMap Record.encode ++ m.trailer) (by simp [Response.encode])

/-- `decodeName` reads the name of the question. -/
theorem decodeName_question (m : Response) : decodeName m.encode HEADER_SIZE =
    .ok (m.askedName,
      HEADER_SIZE + (WireName.labels m.firstLabel m.moreLabels).encode.length) := by
  have hnul : (WireName.labels m.firstLabel m.moreLabels).NulFree := m.question_nulFree
  exact decodeName_encode hnul (standsAt_append.mp m.standsAt_question).1

/-- `readWord` reads the type of the question. -/
theorem readWord_question (m : Response) :
    readWord m.encode (HEADER_SIZE + (WireName.labels m.firstLabel m.moreLabels).encode.length) =
      .ok m.qtype :=
  readWord_wordBytes (standsAt_append.mp (standsAt_append.mp m.standsAt_question).2).1

/-- **One reading**: messages with the same bytes have the same number and ask for the same. -/
theorem question_unique {m m' : Response} (h : m.encode = m'.encode) :
    m.id = m'.id ∧ m.askedName = m'.askedName ∧ m.qtype = m'.qtype := by
  have hheader := (decodeHeader_encode m).symm.trans (h ▸ decodeHeader_encode m')
  have hname := (decodeName_question m).symm.trans (h ▸ decodeName_question m')
  have hqtype := readWord_question m
  simp only [Except.ok.injEq, Header.mk.injEq, Prod.mk.injEq] at hheader hname
  -- the names end at the same place, and the types stand there
  rw [hname.2, h, readWord_question m', Except.ok.injEq] at hqtype
  exact ⟨hheader.1, hname.1, hqtype.symm⟩

/-! ### Reading a Response -/

/-- The answers change neither the number nor the name of a reply. -/
def SameQuestion (reply reply' : Qanswer) : Prop :=
  reply'.reqNo = reply.reqNo ∧ reply'.name = reply.name

theorem sameQuestion_decodeAddress {data : Bytes} {answer : Answer} {reply reply' : Qanswer}
    {pos pos' : ℕ} (h : decodeAddress data answer reply pos = .ok (reply', pos')) :
    SameQuestion reply reply' := by
  unfold decodeAddress at h
  split at h
  · split at h
    · obtain ⟨src, -, h⟩ := bind_eq_ok_iff.mp h
      obtain ⟨addr, -, h⟩ := bind_eq_ok_iff.mp h
      cases h
      exact ⟨rfl, rfl⟩
    · split at h
      · obtain ⟨netOrder, -, h⟩ := bind_eq_ok_iff.mp h
        cases h
        exact ⟨rfl, rfl⟩
      · cases h
        exact ⟨rfl, rfl⟩
  · cases h
    exact ⟨rfl, rfl⟩

theorem sameQuestion_decodeRecord {data : Bytes} {timeStamp : TimePointNs}
    {reply reply' : Qanswer} {pos pos' : ℕ}
    (h : decodeRecord data timeStamp reply pos = .ok (reply', pos')) :
    SameQuestion reply reply' := by
  obtain ⟨⟨name, p₁⟩, -, h⟩ := bind_eq_ok_iff.mp h
  obtain ⟨⟨answer, p₂⟩, -, h⟩ := bind_eq_ok_iff.mp h
  obtain ⟨⟨reply₁, p₃⟩, haddress, h⟩ := bind_eq_ok_iff.mp h
  cases h
  have hsame := sameQuestion_decodeAddress haddress
  exact ⟨hsame.1, hsame.2⟩

theorem sameQuestion_decodeAnswers {data : Bytes} {clock : ℕ → TimePointNs} {n k : ℕ}
    {reply reply' : Qanswer} {pos pos' : ℕ}
    (h : decodeAnswers data clock n k reply pos = .ok (reply', pos')) :
    SameQuestion reply reply' := by
  induction n generalizing k reply pos with
  | zero =>
    cases h
    exact ⟨rfl, rfl⟩
  | succ n ih =>
    obtain ⟨⟨reply₁, pos₁⟩, hrecord, hrest⟩ := bind_eq_ok_iff.mp h
    have hfirst := sameQuestion_decodeRecord hrecord
    have hbehind := ih hrest
    exact ⟨hbehind.1.trans hfirst.1, hbehind.2.trans hfirst.2⟩

/-- **Reading a message**: `decode` finds its number, its name and the addresses it lists. -/
theorem decode_encode (clock : ℕ → TimePointNs) (m : Response)
    (hlast : ∀ r ∈ m.answers.dropLast, r.address = none)
    (hnul : ∀ r ∈ m.answers, r.name.NulFree) : ∃ reply, decode clock m.encode = .ok reply ∧
      reply.reqNo = m.id ∧ reply.name = m.askedName ∧
      reply.addr.map IpAddr.get = m.addresses ∧ (reply.valid = true ↔ m.addresses ≠ []) := by
  have hanswers : StandsAt m.encode (HEADER_SIZE + m.question.length)
      (m.answers.flatMap Record.encode) := by
    rw [← m.length_header, ← List.length_append]
    exact standsAt_of_eq m.trailer (by simp [Response.encode])
  have hcount : (UInt16.ofNat m.answers.length).toNat = m.answers.length := by
    rw [UInt16.toNat_ofNat', Nat.mod_eq_of_lt m.answers_short]
  obtain ⟨reply, pos, hloop, hext⟩ := decodeAnswers_encode clock hnul hlast 1
    ⟨false, m.id, m.askedName, [], none, clock 0⟩ hanswers
  have hquestions := decodeQuestions_encode m ⟨false, m.id, [], [], none, clock 0⟩
  obtain ⟨hid, hname⟩ := sameQuestion_decodeAnswers hloop
  refine ⟨reply, ?_, hid, hname, hext.addr, ?_⟩
  · simp only [decode, decodeHeader_encode, ok_bind, hcount, UInt16.toNat_one, hquestions]
    rw [← Response.askedName, hloop, ok_bind]
  · rw [hext.valid, Response.addresses]
    simp

end Query

/-- What the lookup sends when its socket is connected -/
def UdpResolver.query (resolver : UdpResolver) : Bytes :=
  Query.resolve resolver.requestNo resolver.name resolver.qType

/-- **There and back**: in the response to its query a lookup for a host name finds its number, its
name and the zone's addresses. -/
theorem decode_reply {zone : Zone} {resolver : UdpResolver} {host : HostName} {datagram : Bytes}
    (clock : ℕ → TimePointNs) (hrest : host.rest ≠ []) (hname : host.text = resolver.name)
    (h : zone.Replies resolver.query datagram) :
    ∃ ans, decode clock datagram = .ok ans ∧ zone.server.IsAnswer resolver ans := by
  obtain ⟨q, r, hquery, rfl, hid, hfirst, hmore, htype, -, hanswers⟩ := h
  -- the server has read the number, the name and the type that were written
  have hwritten : (host.query resolver.requestNo resolver.qType).encode = q.encode := by
    rw [← hquery, UdpResolver.query, ← hname, HostName.resolve_eq_encode hrest]
  obtain ⟨hno, hasked, hqtype⟩ := question_unique hwritten
  have hsame : q.askedName = resolver.name := hasked.symm.trans hname
  have hrecords : r.answers = zone.records resolver.name resolver.qType := by
    rw [hanswers, hsame, ← hqtype]
    rfl
  obtain ⟨reply, hreply, hreqNo, hreplyName, haddr, hvalid⟩ := decode_encode clock r
    (hrecords ▸ zone.addressLast _ _) (hrecords ▸ zone.nulFree _ _)
  have hserver : reply.addr = zone.server resolver.name resolver.qType := by
    rw [Zone.server, ← hrecords, ← Response.addresses, ← haddr, List.map_map]
    exact (List.map_id'' IpAddr.set_get _).symm
  refine ⟨reply, hreply, ?_, ?_, ?_, hserver⟩
  · rw [hvalid, ← hserver, ← haddr, ne_eq, ne_eq, List.map_eq_nil_iff]
  · rw [hreqNo, hid, ← hno]
    rfl
  · rw [hreplyName, Response.askedName, hfirst, hmore]
    exact hsame

/-! ## What Clients Are Told -/

namespace ResolverSystem

variable {s s' : ResolverSystem} {l : LookupStep} {ls : List LookupStep} {zone : Zone}
  {prefs : Bytes → AddrPref}

/-- A host name of two or more labels -/
def IsHostName (name : Bytes) : Prop := ∃ host : HostName, host.rest ≠ [] ∧ host.text = name

/-- A client asks for a host name, and for that name nobody has another preference. -/
def Asks (prefs : Bytes → AddrPref) : LookupStep → Prop
  | .resolve _ name pref _ => pref = prefs name ∧ IsHostName name
  | .enter _ | .received .. | .requestComplete .. | .notSent _ | .leave .. | .queryTimedout .. =>
    True

/-- The lookup that a datagram reaches, and the datagram -/
def datagram? : LookupStep → Option (LookupPtr × Bytes)
  | .received lookup datagram _ => some (lookup, datagram)
  | .resolve .. | .enter _ | .requestComplete .. | .notSent _ | .leave .. | .queryTimedout .. =>
    none

/-- A datagram that reaches a lookup is a response to the query of that lookup. -/
def FromZone (zone : Zone) (s : ResolverSystem) (l : LookupStep) : Prop :=
  ∀ d ∈ datagram? l, ∀ resolver : UdpResolver,
    s.lookups[d.1]? = some resolver → zone.Replies resolver.query d.2

/-- The client that has asked is told an address that the server lists for the name and that
satisfies the preference, or that there is none if none does. -/
def Resolved (server : NameServer) (r : Report) : Prop :=
  ∃ question, r.question = some question ∧ r.client = question.client ∧
    (∀ addr, r.found = some addr → question.prefs.Accepts addr ∧
      ∃ qType, question.prefs.Wants qType ∧ addr ∈ server question.name qType) ∧
    (r.found = none → ∀ qType, question.prefs.Wants qType →
      ∀ addr ∈ server question.name qType, ¬ question.prefs.Accepts addr)

/-- The callbacks to a call that has made lookups -/
def reportsOf (s : ResolverSystem) (call : ℕ) : List Report :=
  s.reports.filter fun r => r.call = some call

/-- A call that has made lookups is told nothing as long as one of them is open, and is answered
once when none is. -/
structure Told (s : ResolverSystem) : Prop where
  waiting : ∀ call, (s.openLookups call).Nonempty → s.reportsOf call = []
  told : ∀ (call : ℕ) (question : Question), s.asked[call]? = some question →
    s.openLookups call = ∅ → ∃ r, s.reportsOf call = [r] ∧ r.question = some question
  asked : ∀ r ∈ s.reports, ∀ call, r.call = some call → call < s.asked.length

/-- Everything that holds while the clients ask as they should and the server answers. -/
structure Serves (prefs : Bytes → AddrPref) (zone : Zone) (s : ResolverSystem) : Prop where
  numbered : Numbered s
  phases : Phases s
  requested : Requested s
  cache : CacheMatches zone.server s
  asked : ∀ question ∈ s.asked, question.prefs = prefs question.name ∧ IsHostName question.name
  resolved : ∀ r ∈ s.reports, Resolved zone.server r
  told : Told s

/-- A call for one family makes lookups of one type. -/
theorem wants_unique {pref : AddrPref} {qType qType' : Qtype} (hone : pref ≠ .AnyAddr)
    (h : pref.Wants qType) (h' : pref.Wants qType') : qType = qType' := by
  cases pref <;> simp_all [AddrPref.Wants]

namespace Serves

/-- Lookups are made for the type that the name is asked for. -/
theorem wants (h : Serves prefs zone s) {name : Bytes} {qType : Qtype}
    (hanswered : Answered s name qType) : (prefs name).Wants qType := by
  obtain ⟨i, -, resolver, hresolver, rfl, rfl⟩ := hanswered
  obtain ⟨question, hquestion, hname, hwants⟩ := h.requested.asked i resolver hresolver
  rw [hname, ← (h.asked question (List.mem_of_getElem? hquestion)).1]
  exact hwants

/-- An address that is cached is listed for the type that its name is asked for. -/
theorem listed (h : Serves prefs zone s) {name : Bytes} {addr : IpAddr}
    (haddr : addr ∈ addrsOf s.impl.byName name) :
    ∃ qType, (prefs name).Wants qType ∧ addr ∈ zone.server name qType := by
  obtain ⟨qType, hanswered, hmem⟩ := (h.cache.addrs name addr).mp haddr
  exact ⟨qType, h.wants hanswered, hmem⟩

theorem notForeign (h : Serves prefs zone s) (name : Bytes) :
    NotForeign zone.server s name (prefs name) :=
  fun arrived hanswered hlists => ⟨arrived, h.wants hanswered, hlists⟩

/-- A name that is cached was answered for the one type that it is asked for. -/
theorem filled (h : Serves prefs zone s) {name : Bytes} (hname : name ∈ s.impl.byName)
    (hone : prefs name ≠ .AnyAddr) : Filled zone.server s name (prefs name) := by
  intro qType hwants hlists
  obtain ⟨arrived, hanswered, -⟩ := h.cache.known name hname
  have heq := wants_unique hone (h.wants hanswered) hwants
  exact ⟨arrived, hanswered, heq ▸ hlists⟩

/-- The datagrams that reach the lookups are read as the server's answers. -/
theorem fromServer (h : Serves prefs zone s) (hl : FromZone zone s l) :
    FromServer zone.server Query.decode s l := by
  cases l with
  | received lookup datagram clock =>
    intro resolver hresolver
    obtain ⟨question, hquestion, hname, -⟩ := h.requested.asked lookup resolver hresolver
    obtain ⟨host, hrest, htext⟩ := (h.asked question (List.mem_of_getElem? hquestion)).2
    have hreplies := hl (lookup, datagram) rfl resolver hresolver
    exact decode_reply clock hrest (htext.trans hname.symm) hreplies
  | resolve | enter | requestComplete | notSent | leave | queryTimedout => trivial

end Serves

/-- What a client with an empty cache would be told, as an address of the server -/
theorem resolved_of_agrees {server : NameServer} {question : Question} {call : Option ℕ}
    {client : ClientPtr} {found : Option IpAddr}
    (h : Agrees server ⟨some question, call, client, found⟩) (hclient : client = question.client)
    (hlisted : ∀ addr, found = some addr →
      ∃ qType, question.prefs.Wants qType ∧ addr ∈ server question.name qType) :
    Resolved server ⟨some question, call, client, found⟩ := by
  obtain ⟨question', heq, hfound, haccepts⟩ := h
  cases heq
  refine ⟨question, rfl, hclient, fun addr haddr => ⟨haccepts addr haddr, hlisted addr haddr⟩, ?_⟩
  intro hnone qType hwants addr hmem haccepted
  have hsome := hfound.mpr ((NameServer.emptyCacheResolves_iff ..).mpr
    ⟨qType, hwants, addr, hmem, haccepted⟩)
  rw [hnone] at hsome
  cases hsome

/-- An address that the last answer to a request finds is cached then. -/
theorem mem_of_outcome {impl : ResolverImpl} {ans : Qanswer} {pref : AddrPref} {addr : IpAddr}
    (h : (impl.outcome ans pref).2 = some addr) :
    addr ∈ addrsOf (impl.outcome ans pref).1 ans.name := by
  rw [addrsOf_outcome, addrsOf]
  unfold outcome getByName at h
  cases hname : (impl.stored ans).lookup ans.name with
  | none => simp [hname] at h
  | some names =>
    simp only [hname, Option.getD_some] at h
    exact (Names.get_some h).1

/-! ### Steps -/

/-- Callbacks to others change nothing for a call. -/
theorem reportsOf_append_of_ne {new : List Report} {call : ℕ}
    (hreports : s'.reports = s.reports ++ new) (hnew : ∀ r ∈ new, r.call ≠ some call) :
    s'.reportsOf call = s.reportsOf call := by
  have hnone : new.filter (fun r => r.call = some call) = [] :=
    List.filter_eq_nil_iff.mpr fun r hr => by simpa using hnew r hr
  rw [reportsOf, hreports, List.filter_append, hnone, List.append_nil]
  rfl

/-- A step that makes no lookup, completes none and reports at most to a call that has none. -/
theorem Told.frame {new : List Report} (h : Told s) (hasked : s'.asked = s.asked)
    (hopen : ∀ call, s'.openLookups call = s.openLookups call)
    (hreports : s'.reports = s.reports ++ new) (hnew : ∀ r ∈ new, r.call = none) : Told s' := by
  have hsame : ∀ call, s'.reportsOf call = s.reportsOf call := fun call =>
    reportsOf_append_of_ne hreports fun r hr => by
      rw [hnew r hr]
      exact Option.some_ne_none call |>.symm
  constructor
  case waiting => simpa only [hopen, hsame] using h.waiting
  case told => simpa only [hasked, hopen, hsame] using h.told
  case asked =>
    intro r hr call hcall
    rw [hreports] at hr
    rw [hasked]
    rcases List.mem_append.mp hr with hr | hr
    · exact h.asked r hr call hcall
    · rw [hnew r hr] at hcall
      cases hcall

/-- A lookup is completed; it leaves others of its call open, or the call is answered. -/
theorem Told.complete {lookup : LookupPtr} {resolver : UdpResolver} {new : List Report}
    (h : Told s) (hnumbered : Numbered s) (hlookups : s'.lookups = s.lookups)
    (hasked : s'.asked = s.asked) (hcompleted : s'.completed = insert lookup s.completed)
    (hresolver : s.lookups[lookup]? = some resolver) (hopen : lookup ∉ s.completed)
    (hreports : s'.reports = s.reports ++ new) (hnew : ∀ r ∈ new, r.call = some resolver.call)
    (hwaiting : (s'.openLookups resolver.call).Nonempty → new = [])
    (htold : ∀ question : Question, s.asked[resolver.call]? = some question →
      s'.openLookups resolver.call = ∅ → ∃ r, new = [r] ∧ r.question = some question) :
    Told s' := by
  -- the lookup was open, so the call was told nothing
  have hnone : s.reportsOf resolver.call = [] :=
    h.waiting _ ⟨lookup, mem_openLookups_iff.mpr ⟨hopen, resolver, hresolver, rfl⟩⟩
  have hown : s'.reportsOf resolver.call = new := by
    have hall : new.filter (fun r => r.call = some resolver.call) = new :=
      List.filter_eq_self.mpr fun r hr => by simpa using hnew r hr
    rw [reportsOf, hreports, List.filter_append, hall, ← reportsOf, hnone, List.nil_append]
  have hother : ∀ call, resolver.call ≠ call → s'.reportsOf call = s.reportsOf call :=
    fun call hne => reportsOf_append_of_ne hreports fun r hr heq =>
      hne (Option.some.inj ((hnew r hr).symm.trans heq))
  constructor
  case waiting =>
    intro call
    by_cases hcall : resolver.call = call
    · rw [← hcall, hown]
      exact hwaiting
    · rw [openLookups_complete_of_ne hlookups hcompleted hresolver hcall, hother call hcall]
      exact h.waiting call
  case told =>
    intro call question hquestion
    rw [hasked] at hquestion
    by_cases hcall : resolver.call = call
    · rw [← hcall] at hquestion ⊢
      rw [hown]
      exact htold question hquestion
    · rw [openLookups_complete_of_ne hlookups hcompleted hresolver hcall, hother call hcall]
      exact h.told call question hquestion
  case asked =>
    intro r hr call hcall
    rw [hreports] at hr
    rw [hasked]
    rcases List.mem_append.mp hr with hr | hr
    · exact h.asked r hr call hcall
    · cases (hnew r hr).symm.trans hcall
      exact hnumbered.call_lt hresolver

/-- A call that does not find its name makes a lookup. -/
theorem newLookups_ne_nil (call : ℕ) (requestNo : UInt16) (name : Bytes) (pref : AddrPref) :
    newLookups call requestNo name pref ≠ [] := by
  cases pref <;> simp [newLookups]

/-- A call that does not find its name waits for its lookups. -/
theorem told_uncached {client : ClientPtr} {name : Bytes} {pref : AddrPref} (h : Told s)
    (hnumbered : Numbered s) (hphases : Phases s)
    (hlookups : s'.lookups =
      s.lookups ++ newLookups s.asked.length s.impl.request name pref)
    (hasked : s'.asked = s.asked ++ [⟨client, name, pref⟩])
    (hcompleted : s'.completed = s.completed) (hreports : s'.reports = s.reports) : Told s' := by
  have hsame : ∀ call, s'.reportsOf call = s.reportsOf call := fun call => by
    rw [reportsOf, hreports]
    rfl
  -- an earlier call has the lookups that it had
  have hearlier : ∀ call, call ≠ s.asked.length → s'.openLookups call = s.openLookups call :=
    fun call hne => openLookups_append_of_ne hlookups hcompleted fun resolver hmem =>
      (newLookups_call hmem).1.trans_ne hne.symm
  have hnew : (s'.openLookups s.asked.length).Nonempty := by
    have hold : ∀ (i : LookupPtr) (resolver : UdpResolver), s.lookups[i]? = some resolver →
        resolver.call ≠ s.asked.length := fun i resolver hi => (hnumbered.call_lt hi).ne
    rw [← Finset.card_pos, openLookups_append_of_eq hphases hlookups hcompleted hold
      fun resolver hmem => (newLookups_call hmem).1]
    exact List.length_pos_iff.mpr (newLookups_ne_nil _ _ _ _)
  constructor
  case waiting =>
    intro call hopen
    rw [hsame]
    by_cases hcall : call = s.asked.length
    · -- nothing was reported to a call that had not been made
      refine List.filter_eq_nil_iff.mpr fun r hr heq => ?_
      exact (h.asked r hr call (of_decide_eq_true heq)).ne hcall
    · exact h.waiting call (hearlier call hcall ▸ hopen)
  case told =>
    intro call question hquestion hopen
    have hcall : call ≠ s.asked.length := by
      rintro rfl
      exact hnew.ne_empty hopen
    have hlt : call < s.asked.length := by
      have hle := (List.getElem?_eq_some_iff.mp hquestion).1
      rw [hasked, List.length_append, List.length_singleton] at hle
      omega
    rw [hasked, List.getElem?_append_left hlt] at hquestion
    rw [hsame]
    exact h.told call question hquestion (hearlier call hcall ▸ hopen)
  case asked =>
    intro r hr call hcall
    rw [hreports] at hr
    rw [hasked, List.length_append]
    exact (h.asked r hr call hcall).trans_le (Nat.le_add_right ..)

/-- **Step**: no call is answered early, or twice, or forgotten. -/
theorem told_step (hnumbered : Numbered s) (hphases : Phases s) (hrequested : Requested s)
    (h : Told s) (hl : InTime s l) (hstep : s.step Query.decode l = .ok s') : Told s' := by
  cases moves_of_step hstep with
  | cached =>
    exact h.frame rfl (fun _ => rfl) rfl fun r hr => (List.mem_singleton.mp hr) ▸ rfl
  | enter | received | notSent | leave | late =>
    exact h.frame rfl (fun _ => rfl) (List.append_nil _).symm fun r hr => (by cases hr)
  | uncached => exact told_uncached h hnumbered hphases rfl rfl rfl rfl
  | ignored hmem hresolver hgone =>
    have hfound := (hrequested.uncompleted _ _ hresolver (hphases.notMem_completed hmem)).1
    exact absurd hfound (AList.lookup_eq_none.mp hgone)
  | more hmem hresolver hquery hrest =>
    have hopen := hphases.notMem_completed hmem
    refine h.complete hnumbered rfl rfl rfl hresolver hopen (List.append_nil _).symm
      (fun r hr => by cases hr) (fun _ => rfl) fun question hquestion hnone => ?_
    -- there is a client entry for each lookup that is left
    refine absurd hnone (Finset.card_pos.mp ?_).ne_empty
    exact (List.length_pos_iff.mpr hrest).trans_eq
      (hrequested.length_clients rfl rfl hresolver hopen hquery)
  | last hmem hresolver hquery hclient hrest =>
    have hopen := hphases.notMem_completed hmem
    obtain ⟨-, hown⟩ := hrequested.uncompleted _ _ hresolver hopen
    refine h.complete hnumbered rfl rfl rfl hresolver hopen rfl (fun r hr => ?_)
      (fun hleft => ?_) fun question hquestion _ => ⟨_, rfl, ?_⟩
    · exact (List.mem_singleton.mp hr) ▸ hown
    · exact (hleft.ne_empty
        (openLookups_last hrequested rfl rfl hresolver hopen hquery hrest)).elim
    · simp only [questionOf, hown, Option.bind_some, hquestion]
  | queryTimedout hdrops =>
    obtain ⟨query, resolver, hquery, -⟩ := hdrops.found _ (List.mem_cons_self ..)
    exact absurd (UnorderedMap.mem_iff_lookup.mpr ⟨query, hquery⟩) hl

/-- Calls are asked as their clients should. -/
theorem asked_step (h : ∀ question ∈ s.asked, question.prefs = prefs question.name ∧
      IsHostName question.name) (hl : Asks prefs l) (hstep : s.step Query.decode l = .ok s') :
    ∀ question ∈ s'.asked, question.prefs = prefs question.name ∧ IsHostName question.name := by
  cases moves_of_step hstep with
  | uncached =>
    intro question hquestion
    rcases List.mem_append.mp hquestion with hold | hnew
    · exact h question hold
    · exact List.mem_singleton.mp hnew ▸ hl
  | cached | enter | received | ignored | more | last | notSent | leave | late | queryTimedout =>
    exact h

/-- What the last answer to a request finds is right. -/
theorem resolved_last {lookup : LookupPtr} {ans : Qanswer} {resolver : UdpResolver}
    {query : ResolverQuery} {client : ClientPtr} (h : Serves prefs zone s)
    (h' : CacheMatches zone.server s')
    (hmem : (lookup, .answered ans) ∈ s.workers) (hresolver : s.lookups[lookup]? = some resolver)
    (hquery : s.impl.resQueries.lookup resolver.requestNo = some query)
    (hclient : query.clients.getLast? = some client) (hrest : query.clients.dropLast = [])
    (hlookups : s'.lookups = s.lookups) (hcompleted : s'.completed = insert lookup s.completed)
    (hbyName : s'.impl.byName = (s.impl.outcome ans query.prefs).1) :
    Resolved zone.server ⟨s.questionOf resolver.requestNo, s.owner.lookup resolver.requestNo,
      client, (s.impl.outcome ans query.prefs).2⟩ := by
  -- the request is that of the call which has made the lookup
  have hopen := h.phases.notMem_completed hmem
  obtain ⟨-, hown⟩ := h.requested.uncompleted lookup resolver hresolver hopen
  obtain ⟨question, hquestion, hname, hwants⟩ := h.requested.asked lookup resolver hresolver
  obtain ⟨question', hquestion', hprefs, -, hclients⟩ := h.requested.waiting _ query _ hquery hown
  cases hquestion.symm.trans hquestion'
  have hasked : question.prefs = prefs question.name :=
    (h.asked question (List.mem_of_getElem? hquestion)).1
  have hagrees : Agrees zone.server ⟨s.questionOf resolver.requestNo,
      s.owner.lookup resolver.requestNo, client, (s.impl.outcome ans query.prefs).2⟩ :=
    agrees_last h.phases h.requested h.cache h' hmem hresolver hquery hrest hlookups
      hcompleted hbyName fun _ => by
        rw [hprefs, hasked, ← hname]
        exact h.notForeign resolver.name
  have hof : s.questionOf resolver.requestNo = some question := by
    simp only [questionOf, hown, Option.bind_some, hquestion]
  rw [hof] at hagrees ⊢
  have hself : client = question.client := hclients client (List.mem_of_getLast? hclient)
  refine resolved_of_agrees hagrees hself fun addr haddr => ?_
  -- it is cached behind the step, and so the server lists it
  obtain ⟨other, hother, hans⟩ := h.cache.workers lookup ans hmem
  cases hresolver.symm.trans hother
  have hcached := mem_of_outcome haddr
  rw [← hbyName, hans.name, hname] at hcached
  obtain ⟨qType, hanswered, hlisted⟩ := (h'.addrs question.name addr).mp hcached
  refine ⟨qType, ?_, hlisted⟩
  rcases (answered_complete hlookups hcompleted hresolver).mp hanswered with hold | ⟨-, rfl⟩
  · exact hasked ▸ h.wants hold
  · exact hwants

/-- **Step**: what a client is told is right. -/
theorem resolved_step (h : Serves prefs zone s) (h' : CacheMatches zone.server s')
    (hasks : Asks prefs l) (hl : InTime s l) (hstep : s.step Query.decode l = .ok s') :
    ∀ r ∈ s'.reports, Resolved zone.server r := by
  have happend : ∀ new, Resolved zone.server new →
      ∀ r ∈ s.reports ++ [new], Resolved zone.server r := by
    intro new hnew r hr
    rcases List.mem_append.mp hr with hr | hr
    · exact h.resolved r hr
    · exact List.mem_singleton.mp hr ▸ hnew
  cases moves_of_step hstep with
  | @cached client name pref timeout names hname =>
    have hmem := UnorderedMap.mem_iff_lookup.mpr ⟨_, hname⟩
    obtain ⟨rfl, -⟩ := hasks
    refine happend _ (resolved_of_agrees (agrees_cached h.requested h.cache hname fun hone =>
      ⟨h.filled hmem hone, h.notForeign name⟩) rfl fun addr haddr => ?_)
    exact h.listed (addrsOf_eq hname ▸ (Names.get_some haddr).1)
  | last hmem hresolver hquery hclient hrest =>
    exact happend _ (resolved_last h h' hmem hresolver hquery hclient hrest rfl rfl rfl)
  | uncached | enter | received | ignored | more | notSent | leave | late => exact h.resolved
  | queryTimedout hdrops =>
    obtain ⟨query, resolver, hquery, -⟩ := hdrops.found _ (List.mem_cons_self ..)
    exact absurd (UnorderedMap.mem_iff_lookup.mpr ⟨query, hquery⟩) hl

theorem serves_init : Serves prefs zone init where
  numbered := numbered_init
  phases := phases_init
  requested := requested_init
  cache := by
    refine ⟨fun name addr => ⟨fun h => (by cases h), ?_⟩, fun name h => (by cases h),
      fun i ans h => (by cases h)⟩
    rintro ⟨qType, ⟨i, hi, -⟩, -⟩
    cases hi
  asked := fun question h => (by cases h)
  resolved := fun r h => (by cases h)
  told := ⟨fun call _ => rfl, fun call question h => (by cases h), fun r h => (by cases h)⟩

/-- **Step**: everything is kept. -/
theorem serves_step (h : Serves prefs zone s) (hasks : Asks prefs l) (hzone : FromZone zone s l)
    (htime : InTime s l) (hstep : s.step Query.decode l = .ok s') : Serves prefs zone s' := by
  have hcache := cacheMatches_step h.phases h.requested h.cache (h.fromServer hzone) htime hstep
  exact {
    numbered := numbered_step h.numbered hstep
    phases := phases_step h.phases hstep
    requested := requested_step h.numbered h.phases h.requested htime hstep
    cache := hcache
    asked := asked_step h.asked hasks hstep
    resolved := resolved_step h hcache hasks htime hstep
    told := told_step h.numbered h.phases h.requested h.told htime hstep }

/-! ### Runs -/

/-- **Resolving names over the wire**: if each name is a host name of two or more labels that all
clients ask for with one preference, and the name server responds in time to the queries that are
sent, then each client is told an address that the zone lists, or that there is none, and each call
that has made lookups is answered once, when all of them are answered. -/
theorem resolved_of_run (hasks : ∀ l ∈ ls, Asks prefs l)
    (hzone : AllSteps (step Query.decode) (FromZone zone) init ls)
    (htime : AllSteps (step Query.decode) InTime init ls)
    (hrun : runFrom (step Query.decode) init ls = .ok s) :
    (∀ r ∈ s.reports, Resolved zone.server r) ∧
      ∀ (call : ℕ) (question : Question), s.asked[call]? = some question →
        ((s.openLookups call).Nonempty → s.reportsOf call = []) ∧
          (s.openLookups call = ∅ →
            ∃ r, s.reportsOf call = [r] ∧ r.question = some question) := by
  have h := AllSteps.invariant (Serves prefs zone)
    (fun h hl hstep => serves_step h hl.1.1 hl.1.2 hl.2 hstep) serves_init
    (((AllSteps.of_forall_mem hasks).and hzone).and htime) hrun
  exact ⟨h.resolved, fun call question hquestion =>
    ⟨h.told.waiting call, h.told.told call question hquestion⟩⟩

/-- The host name `w.b` -/
def twoLetters : HostName where
  first := ⟨[0x77], by simp, by simp⟩
  rest := [⟨[0x62], by simp, by simp⟩]
  nulFree := by simp [Label.NulFree]
  dotFree := by simp [DOT]

/-- Every name is an alias of the host `b`, whose address is 192.0.2.1. -/
def aliasZone : Zone where
  records := fun _ qType =>
    if qType = Qtype.A then
      [.ofRdata 5 [1, 0x62, 0] (by decide), .ofRdata Qtype.A [192, 0, 2, 1] (by decide)]
    else []
  records_short := fun _ qType => by
    split <;> decide
  addressLast := fun _ qType => by
    split <;> decide
  nulFree := fun _ qType => by
    split <;> simp [Record.ofRdata, WireName.NulFree]

/-- Its response to a query for `w.b` -/
def aliasReply (qType : Qtype) : Response :=
  { twoLetters.query 0 qType with
    reqFlags := 0x8180
    answers := aliasZone.records twoLetters.text qType
    answers_short := aliasZone.records_short _ _ }

/-- Two clients ask for any address of `w.b`, the second one when it is cached. -/
def askedTwice : List LookupStep :=
  [.resolve 1 twoLetters.text .AnyAddr 2,
    .enter 0, .received 0 (aliasReply Qtype.Aaaa).encode fun _ => 0,
    .requestComplete 0 ⟨false, 0, twoLetters.text, [], none, 0⟩,
    .enter 1, .received 1 (aliasReply Qtype.A).encode fun _ => 0,
    .requestComplete 1 { responseAnswer 0 with name := twoLetters.text },
    .resolve 2 twoLetters.text .AnyAddr 2]

theorem replies_aliasReply (qType : Qtype) (call : ℕ) :
    aliasZone.Replies (UdpResolver.query ⟨0, twoLetters.text, qType, call⟩)
      (aliasReply qType).encode :=
  ⟨twoLetters.query 0 qType, aliasReply qType,
    HostName.resolve_eq_encode (List.cons_ne_nil _ _) 0 qType, rfl, rfl, rfl, rfl, rfl, rfl, rfl⟩

/-- Both are told the address, the first one once its two lookups are answered. -/
theorem resolved_askedTwice : ∃ s,
    runFrom (step Query.decode) init askedTwice = .ok s ∧ s.reports.length = 2 ∧
      (∀ r ∈ s.reports, Resolved aliasZone.server r) ∧
        ∃ r, s.reportsOf 0 = [r] ∧ r.question = some ⟨1, twoLetters.text, .AnyAddr⟩ := by
  obtain ⟨s, hrun, hlength, hasked, hopen⟩ : ∃ s,
      runFrom (step Query.decode) init askedTwice = .ok s ∧ s.reports.length = 2 ∧
        s.asked[0]? = some ⟨1, twoLetters.text, .AnyAddr⟩ ∧ s.openLookups 0 = ∅ :=
    exists_ok_of_check (by decide +kernel)
  have hasks : ∀ l ∈ askedTwice, Asks (fun _ => .AnyAddr) l := by
    intro l hl
    have hhost : IsHostName twoLetters.text := ⟨twoLetters, List.cons_ne_nil _ _, rfl⟩
    simp only [askedTwice, List.mem_cons, List.not_mem_nil, or_false] at hl
    rcases hl with rfl | rfl | rfl | rfl | rfl | rfl | rfl | rfl <;>
      first | exact ⟨rfl, hhost⟩ | trivial
  have hserved : AllSteps (step Query.decode) (fun s l => ∀ d ∈ datagram? l,
      ∃ qType ∈ [Qtype.Aaaa, Qtype.A], s.lookups[d.1]? = some ⟨0, twoLetters.text, qType, 0⟩ ∧
        d.2 = (aliasReply qType).encode) init askedTwice := by
    decide +kernel
  have hzone : AllSteps (step Query.decode) (FromZone aliasZone) init askedTwice := by
    refine hserved.imp_of_invariant (fun _ => True) (fun _ h d hd resolver hresolver => ?_)
      (fun _ _ _ => trivial) trivial
    obtain ⟨qType, -, hlookup, hdatagram⟩ := h d hd
    cases hresolver.symm.trans hlookup
    exact hdatagram ▸ replies_aliasReply qType 0
  obtain ⟨hresolved, htold⟩ := resolved_of_run hasks hzone (by decide +kernel) hrun
  exact ⟨s, hrun, hlength, hresolved, (htold 0 _ hasked).2 hopen⟩

end ResolverSystem

end Epoller
