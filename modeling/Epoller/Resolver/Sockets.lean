import Epoller.Resolver.Numbers

/-!
# The Sockets of a Request

`queryTimedout` closes the sockets of a request through the last entry of its
`resolvers`. The list names the lookup for IPv4 addresses and leaves out the one
for IPv6 addresses, so the books are right only for requests that made no lookup
for IPv6 addresses.

## Contents

- `Bookkept`: each request lists its lookups, and none is open after its timeout
- `Ipv4Uncached`: only IPv4 addresses are asked for
- `keepsBooks_iff_ipv4Uncached`: the books are kept in exactly these runs
-/

namespace Epoller

open Foundation Query

namespace ResolverSystem

/-- Each request lists its clients and exactly its lookups, so that `back()` is defined; the
sockets of a request that has timed out are not registered. -/
structure Bookkept (s : ResolverSystem) : Prop where
  clients : ∀ n query, s.impl.resQueries.lookup n = some query → query.clients ≠ []
  resolvers_ne : ∀ n query, s.impl.resQueries.lookup n = some query → query.resolvers ≠ []
  resolvers_nodup : ∀ n query, s.impl.resQueries.lookup n = some query → query.resolvers.Nodup
  resolvers : ∀ n query call, s.impl.resQueries.lookup n = some query →
    s.owner.lookup n = some call →
      ∀ i, i ∈ query.resolvers ↔ ∃ resolver, s.lookups[i]? = some resolver ∧ resolver.call = call
  closed : ∀ i resolver, s.lookups[i]? = some resolver → resolver.call ∈ s.timedOut →
    i ∉ s.eventHash

/-- What every step should do: `back()` is defined, and the books are kept. -/
def KeepsBooks (decode : Decoder) (s : ResolverSystem) (l : LookupStep) : Prop :=
  s.step decode l ≠ .error .emptyBack ∧ ∀ s', s.step decode l = .ok s' → Bookkept s'

/-- A call that does not find its name asks for IPv4 addresses only. -/
def Ipv4Uncached (s : ResolverSystem) : LookupStep → Prop
  | .resolve _ name prefs _ => name ∉ s.impl.byName → prefs = .Ipv4Only
  | .enter _ | .received .. | .requestComplete .. | .notSent _ | .leave .. | .queryTimedout .. =>
    True

/-- What holds besides when only IPv4 addresses are asked for. -/
structure SingleLookups (s : ResolverSystem) : Prop where
  single : ∀ n query, s.impl.resQueries.lookup n = some query → ∃ i, query.resolvers = [i]
  timedOut : ∀ call ∈ s.timedOut, call < s.asked.length

variable {decode : Decoder} {s s' : ResolverSystem} {l : LookupStep} {ls : List LookupStep}

/-! ## `back()` Is Defined -/

theorem timeoutLoop_ne_emptyBack {impl : ResolverImpl} (behind : List UInt16) (client : ClientPtr)
    (calls : List ResolverCall)
    (hclients : ∀ n query, impl.resQueries.lookup n = some query → query.clients ≠ [])
    (hresolvers : ∀ n query, impl.resQueries.lookup n = some query → query.resolvers ≠ []) :
    ResolverImpl.timeoutLoop behind impl client calls ≠ .error .emptyBack := by
  induction behind generalizing impl client calls with
  | nil => exact fun h => by cases h
  | cons reqNo rest ih =>
    rw [ResolverImpl.timeoutLoop, ResolverImpl.timeoutRound]
    cases hquery : impl.resQueries.lookup reqNo with
    | none => exact fun h => by cases h
    | some query =>
      obtain ⟨c, hc⟩ := Option.isSome_iff_exists.mp
        (List.getLast?_isSome.mpr (hclients reqNo query hquery))
      obtain ⟨r, hr⟩ := Option.isSome_iff_exists.mp
        (List.getLast?_isSome.mpr (hresolvers reqNo query hquery))
      simp only [hc, hr, ok_bind]
      -- an entry that is left was there before
      have hleft : ∀ n other, (impl.resQueries.erase reqNo).lookup n = some other →
          impl.resQueries.lookup n = some other :=
        fun n other hn => (UnorderedMap.lookup_erase_eq_some_iff.mp hn).2
      exact ih _ _ (fun n other hn => hclients n other (hleft n other hn))
        fun n other hn => hresolvers n other (hleft n other hn)

theorem perform_ne_emptyBack (s : ResolverSystem) (call : ℕ) (calls : List ResolverCall) :
    s.perform call calls ≠ .error .emptyBack := by
  induction calls generalizing s with
  | nil => exact fun h => by cases h
  | cons c calls ih =>
    cases c with
    | disconnect lookup =>
      rw [perform]
      split
      · unfold remove
        split
        · exact ih _
        · exact fun h => by cases h
      · exact ih s
    | create | resolved | notResolved | setTimer | cancelTimer => exact ih _

/-- Every request has a client left to be answered. -/
theorem requestComplete_ne_emptyBack (h : Bookkept s) (requestNo : UInt16) (ans : Qanswer) :
    s.impl.requestComplete requestNo ans ≠ .error .emptyBack := by
  unfold ResolverImpl.requestComplete
  split
  · exact fun hcomplete => by cases hcomplete
  · rename_i query hquery
    split
    · rename_i hnone
      exact absurd (List.getLast?_eq_none_iff.mp hnone) (h.clients _ _ hquery)
    · simp only
      split
      · split <;> exact fun hcomplete => by cases hcomplete
      · exact fun hcomplete => by cases hcomplete

theorem queryTimedout_ne_emptyBack (h : Bookkept s) (queryId : UInt16) (behind : List UInt16) :
    s.impl.queryTimedout queryId behind ≠ .error .emptyBack := by
  unfold ResolverImpl.queryTimedout
  split
  · exact timeoutLoop_ne_emptyBack (queryId :: behind) 0 [] h.clients h.resolvers_ne
  · split <;> exact fun htimeout => by cases htimeout

/-- `back()` is defined in every step from a state whose books are kept. -/
theorem step_ne_emptyBack (h : Bookkept s) : s.step decode l ≠ .error .emptyBack := by
  cases l with
  | resolve client name prefs timeout =>
    simp only [step]
    cases hperform : s.perform s.asked.length
      (s.impl.resolve s.lookups.length client name prefs timeout).2 with
    | error e =>
      rintro ⟨⟩
      exact perform_ne_emptyBack _ _ _ hperform
    | ok t =>
      rw [ok_bind]
      split <;> exact fun h => by cases h
  | enter lookup =>
    simp only [step]
    split <;> exact fun h => by cases h
  | received lookup datagram clock =>
    simp only [step, workerStep, remove]
    split
    · split
      · split
        · rw [ok_bind]
          split <;> exact fun h => by cases h
        · exact fun h => by cases h
      · exact fun h => by cases h
    · exact fun h => by cases h
  | requestComplete lookup ans =>
    simp only [step, workerStep]
    split
    · split
      · rename_i resolver hresolver
        cases hcomplete : s.impl.requestComplete resolver.requestNo ans with
        | ok r => exact fun h => by cases h
        | error e =>
          rintro ⟨⟩
          exact requestComplete_ne_emptyBack h _ _ hcomplete
      · exact fun h => by cases h
    · exact fun h => by cases h
  | notSent lookup =>
    simp only [step, workerStep, remove]
    split
    · split
      · split <;> exact fun h => by cases h
      · exact fun h => by cases h
    · exact fun h => by cases h
  | leave lookup stage =>
    cases stage with
    | answered ans => exact fun h => by cases h
    | entered | returned =>
      simp only [step, workerStep]
      split
      · split <;> exact fun h => by cases h
      · exact fun h => by cases h
  | queryTimedout queryId behind =>
    simp only [step]
    cases htimeout : s.impl.queryTimedout queryId behind with
    | error e =>
      rintro ⟨⟩
      exact queryTimedout_ne_emptyBack h queryId behind htimeout
    | ok r =>
      rw [ok_bind]
      cases hperform : s.perform s.asked.length r.2 with
      | error e =>
        rintro ⟨⟩
        exact perform_ne_emptyBack _ _ _ hperform
      | ok t => exact fun h => by cases h

/-! ## The Books -/

/-- A step that makes no request, and at most takes answered clients off the requests. -/
theorem Bookkept.frame (h : Bookkept s)
    (hentries : ∀ n query, s'.impl.resQueries.lookup n = some query → query.clients ≠ [] ∧
      ∃ old, s.impl.resQueries.lookup n = some old ∧ query.resolvers = old.resolvers)
    (hlookups : s'.lookups = s.lookups) (howner : s'.owner = s.owner)
    (hclosed : ∀ i resolver, s.lookups[i]? = some resolver → resolver.call ∈ s'.timedOut →
      i ∉ s'.eventHash) : Bookkept s' := by
  constructor
  case clients => exact fun n query hquery => (hentries n query hquery).1
  case resolvers_ne =>
    intro n query hquery
    obtain ⟨-, old, hold, heq⟩ := hentries n query hquery
    exact heq ▸ h.resolvers_ne n old hold
  case resolvers_nodup =>
    intro n query hquery
    obtain ⟨-, old, hold, heq⟩ := hentries n query hquery
    exact heq ▸ h.resolvers_nodup n old hold
  case resolvers =>
    intro n query call hquery hcall
    obtain ⟨-, old, hold, heq⟩ := hentries n query hquery
    rw [hlookups, heq]
    exact h.resolvers n old call hold (howner ▸ hcall)
  case closed => exact hlookups ▸ hclosed

theorem SingleLookups.frame (h : SingleLookups s)
    (hentries : ∀ n query, s'.impl.resQueries.lookup n = some query → query.clients ≠ [] ∧
      ∃ old, s.impl.resQueries.lookup n = some old ∧ query.resolvers = old.resolvers)
    (htimedOut : ∀ call ∈ s'.timedOut, call < s'.asked.length) : SingleLookups s' := by
  constructor
  case single =>
    intro n query hquery
    obtain ⟨-, old, hold, heq⟩ := hentries n query hquery
    exact heq ▸ h.single n old hold
  case timedOut => exact htimedOut

/-- The lookups after one more was made. -/
theorem getElem?_concat_eq_some_iff {lookups : List UdpResolver} {new resolver : UdpResolver}
    {i : ℕ} : (lookups ++ [new])[i]? = some resolver ↔
      lookups[i]? = some resolver ∨ (i = lookups.length ∧ resolver = new) := by
  rw [List.getElem?_append]
  split
  · rename_i hlt
    exact ⟨Or.inl, fun h => h.resolve_right fun heq => by omega⟩
  · rename_i hge
    rw [List.getElem?_eq_none (not_lt.mp hge), List.getElem?_singleton]
    split
    · rename_i hzero
      have hi : i = lookups.length := by omega
      simp [hi, eq_comm]
    · rename_i hpos
      have hi : i ≠ lookups.length := by omega
      simp [hi]

/-- The requests behind a call for IPv4 addresses: the new one lists its one lookup. -/
theorem lookup_newQuery_cases {impl : ResolverImpl} {fresh : LookupPtr} {client : ClientPtr}
    {name : Bytes} {n : UInt16} {query : ResolverQuery}
    (hquery : (impl.resQueries.insert impl.request
      (impl.newQuery fresh client name .Ipv4Only).1).lookup n = some query) :
    (n = impl.request ∧ query = ⟨.Ipv4Only, [client], [fresh], impl.request⟩) ∨
      (n ≠ impl.request ∧ impl.resQueries.lookup n = some query) :=
  UnorderedMap.lookup_insert_eq_some_iff.mp hquery

/-- **Step**: a call for IPv4 addresses that does not find its name. -/
theorem bookkept_uncached {client : ClientPtr} {name : Bytes} {timeout : NanoSecs}
    (hnumbered : Numbered s) (h : Bookkept s) (hsingle : SingleLookups s)
    (hname : s.impl.byName.lookup name = none)
    (hstep : s.step decode (.resolve client name .Ipv4Only timeout) = .ok s') : Bookkept s' := by
  rw [step_uncached hname] at hstep
  cases hstep
  have hnew : newLookups s.asked.length s.impl.request name .Ipv4Only =
    [⟨s.impl.request, name, Qtype.A, s.asked.length⟩] := rfl
  constructor
  case clients =>
    intro n query hquery
    rcases lookup_newQuery_cases hquery with ⟨-, rfl⟩ | ⟨-, hquery⟩
    · exact List.cons_ne_nil _ _
    · exact h.clients n query hquery
  case resolvers_ne =>
    intro n query hquery
    rcases lookup_newQuery_cases hquery with ⟨-, rfl⟩ | ⟨-, hquery⟩
    · exact List.cons_ne_nil _ _
    · exact h.resolvers_ne n query hquery
  case resolvers_nodup =>
    intro n query hquery
    rcases lookup_newQuery_cases hquery with ⟨-, rfl⟩ | ⟨-, hquery⟩
    · exact List.nodup_singleton _
    · exact h.resolvers_nodup n query hquery
  case resolvers =>
    intro n query call hquery hcall i
    rw [UnorderedMap.lookup_insert_eq] at hcall
    simp only [hnew, getElem?_concat_eq_some_iff]
    rcases lookup_newQuery_cases hquery with ⟨hn, rfl⟩ | ⟨hn, hquery⟩
    -- the lookup of the new call is the only one of this call
    · rw [if_pos hn] at hcall
      cases hcall
      rw [List.mem_singleton]
      constructor
      · exact fun hi => ⟨_, .inr ⟨hi, rfl⟩, rfl⟩
      · rintro ⟨resolver, hi | ⟨hi, -⟩, hcall⟩
        · exact absurd hcall (hnumbered.call_lt hi).ne
        · exact hi
    · rw [if_neg hn] at hcall
      rw [h.resolvers n query call hquery hcall i]
      constructor
      · exact fun ⟨resolver, hi, hcall⟩ => ⟨resolver, .inl hi, hcall⟩
      · rintro ⟨resolver, hi | ⟨-, rfl⟩, hown⟩
        · exact ⟨resolver, hi, hown⟩
        · exact absurd hown (hnumbered.owner n call hcall).1.ne'
  case closed =>
    intro i resolver hi hcall hin
    simp only [hnew, getElem?_concat_eq_some_iff, List.length_append, List.length_singleton,
      Finset.mem_union, Finset.mem_Ico] at hi hin
    rcases hi with hi | ⟨-, rfl⟩
    · have hlt := (List.getElem?_eq_some_iff.mp hi).1
      have hopen := hin.resolve_right fun hge => absurd hlt (not_lt.mpr hge.1)
      exact h.closed i resolver hi hcall hopen
    · exact absurd (hsingle.timedOut _ hcall) (lt_irrefl _)

theorem singleLookups_uncached {client : ClientPtr} {name : Bytes} {timeout : NanoSecs}
    (hsingle : SingleLookups s) (hname : s.impl.byName.lookup name = none)
    (hstep : s.step decode (.resolve client name .Ipv4Only timeout) = .ok s') :
    SingleLookups s' := by
  rw [step_uncached hname] at hstep
  cases hstep
  constructor
  case single =>
    intro n query hquery
    rcases lookup_newQuery_cases hquery with ⟨-, rfl⟩ | ⟨-, hquery⟩
    · exact ⟨_, rfl⟩
    · exact hsingle.single n query hquery
  case timedOut =>
    intro call hcall
    have hlt := hsingle.timedOut call hcall
    rw [List.length_append]
    omega

/-- **Step**: the books are kept as long as only IPv4 addresses are asked for. -/
theorem bookkept_step (hnumbered : Numbered s) (h : Bookkept s) (hsingle : SingleLookups s)
    (hl : Ipv4Uncached s l) (hstep : s.step decode l = .ok s') :
    Bookkept s' ∧ SingleLookups s' := by
  have hsame : ∀ n query, s.impl.resQueries.lookup n = some query → query.clients ≠ [] ∧
      ∃ old, s.impl.resQueries.lookup n = some old ∧ query.resolvers = old.resolvers :=
    fun n query hquery => ⟨h.clients n query hquery, query, hquery, rfl⟩
  cases moves_of_step hstep with
  | cached | enter | ignored | leave | late =>
    exact ⟨h.frame hsame rfl rfl h.closed, hsingle.frame hsame hsingle.timedOut⟩
  | received | notSent =>
    -- a socket is removed
    have hclosed : ∀ lookup i (resolver : UdpResolver), s.lookups[i]? = some resolver →
        resolver.call ∈ s.timedOut → i ∉ s.eventHash.erase lookup :=
      fun lookup i resolver hi hcall hmem =>
        h.closed i resolver hi hcall (Finset.mem_of_mem_erase hmem)
    exact ⟨h.frame hsame rfl rfl (hclosed _), hsingle.frame hsame hsingle.timedOut⟩
  | @more lookup ans resolver query hmem hresolver hquery hrest =>
    have hentries : ∀ n other, (s.impl.resQueries.insert resolver.requestNo
        { query with clients := query.clients.dropLast }).lookup n = some other →
        other.clients ≠ [] ∧ ∃ old, s.impl.resQueries.lookup n = some old ∧
          other.resolvers = old.resolvers := by
      intro n other hother
      rcases UnorderedMap.lookup_insert_eq_some_iff.mp hother with ⟨hn, rfl⟩ | ⟨-, hother⟩
      · exact ⟨hrest, query, hn ▸ hquery, rfl⟩
      · exact hsame n other hother
    exact ⟨h.frame hentries rfl rfl h.closed, hsingle.frame hentries hsingle.timedOut⟩
  | @last lookup ans resolver query client hmem hresolver hquery hclient hrest =>
    have hentries : ∀ n other, (s.impl.resQueries.erase resolver.requestNo).lookup n =
        some other → other.clients ≠ [] ∧ ∃ old, s.impl.resQueries.lookup n = some old ∧
          other.resolvers = old.resolvers := fun n other hother =>
      hsame n other (UnorderedMap.lookup_erase_eq_some_iff.mp hother).2
    exact ⟨h.frame hentries rfl rfl h.closed, hsingle.frame hentries hsingle.timedOut⟩
  | @queryTimedout queryId behind impl resolvers hash client hdrops hsub hremoved =>
    have hentries : ∀ n other, impl.resQueries.lookup n = some other → other.clients ≠ [] ∧
        ∃ old, s.impl.resQueries.lookup n = some old ∧ other.resolvers = old.resolvers :=
      fun n other hother => hsame n other (hdrops.kept n other hother).1
    refine ⟨h.frame hentries rfl rfl fun i r hi hcall hin => ?_,
      hsingle.frame hentries fun call hcall => ?_⟩
    · rcases List.mem_append.mp hcall with hcall | hcall
      · exact h.closed i r hi hcall (hsub hin)
      · -- the request listed this lookup, as its only one, and it was disconnected
        obtain ⟨n, hn, howner⟩ := List.mem_filterMap.mp hcall
        obtain ⟨query, resolver, hquery, hresolver, hmem⟩ := hdrops.found n hn
        obtain ⟨j, hj⟩ := hsingle.single n query hquery
        have hi' := (h.resolvers n query r.call hquery howner i).mpr ⟨r, hi, rfl⟩
        rw [hj, List.mem_singleton] at hi'
        rw [hj, List.getLast?_singleton, Option.some_inj] at hresolver
        exact hremoved resolver hmem (hresolver ▸ hi' ▸ hin)
    · rcases List.mem_append.mp hcall with hcall | hcall
      · exact hsingle.timedOut call hcall
      · obtain ⟨n, -, howner⟩ := List.mem_filterMap.mp hcall
        exact (hnumbered.owner n call howner).1
  | @uncached client name prefs timeout hname =>
    obtain rfl := hl (AList.lookup_eq_none.mp hname)
    exact ⟨bookkept_uncached hnumbered h hsingle hname hstep,
      singleLookups_uncached hsingle hname hstep⟩

/-- **Step**: a request with a lookup for IPv6 addresses does not list it. -/
theorem ipv4Uncached_of_keepsBooks (h : KeepsBooks decode s l) : Ipv4Uncached s l := by
  cases l with
  | resolve client name prefs timeout =>
    intro hmem
    by_contra hprefs
    have hname := AList.lookup_eq_none.mpr hmem
    have hbooks := h.2 _ (step_uncached hname)
    -- the first lookup made is for IPv6 addresses, and only the one behind it is listed
    have hlisted := (hbooks.resolvers _ _ _ (AList.lookup_insert _) (AList.lookup_insert _)
      s.lookups.length).mpr
    cases prefs with
    | Ipv4Only => exact hprefs rfl
    | AnyAddr | Ipv6Only =>
      have hin := hlisted ⟨⟨s.impl.request, name, Qtype.Aaaa, s.asked.length⟩, by
        rw [List.getElem?_append_right (le_refl _), Nat.sub_self]
        rfl, rfl⟩
      simp [ResolverImpl.newQuery] at hin
  | enter | received | requestComplete | notSent | leave | queryTimedout => trivial

/-! ## Runs -/

/-- **The books are kept**, and `back()` is defined, in exactly those runs in which calls that do
not find their name ask for IPv4 addresses only. -/
theorem keepsBooks_iff_ipv4Uncached (decode : Decoder) (ls : List LookupStep) :
    AllSteps (step decode) (KeepsBooks decode) init ls ↔
      AllSteps (step decode) Ipv4Uncached init ls := by
  constructor
  · exact AllSteps.imp_of_invariant (fun _ => True) (fun _ => ipv4Uncached_of_keepsBooks)
      (fun _ _ _ => trivial) trivial
  · refine AllSteps.imp_of_invariant (fun s => Numbered s ∧ Bookkept s ∧ SingleLookups s)
      (fun hinv hl => ⟨step_ne_emptyBack hinv.2.1, fun s' hstep =>
        (bookkept_step hinv.1 hinv.2.1 hinv.2.2 hl hstep).1⟩)
      (fun ⟨hnumbered, h, hsingle⟩ hl hstep =>
        ⟨numbered_step hnumbered hstep, bookkept_step hnumbered h hsingle hl hstep⟩)
      ⟨numbered_init, ?_, ?_⟩
    · exact ⟨fun n query h => (by cases h), fun n query h => (by cases h),
        fun n query h => (by cases h), fun n query call h => (by cases h),
        fun i resolver h => (by cases h)⟩
    · exact ⟨fun n query h => (by cases h), fun call h => (by cases h)⟩

/-- One call for any address: the lookup for IPv6 addresses is not listed, so it stays open when
the request times out. -/
theorem not_keepsBooks_anyAddr :
    ¬ ∀ ls, AllSteps (step Query.decode) (KeepsBooks Query.decode) init ls := by
  intro h
  obtain ⟨s, hrun⟩ : ∃ s, runFrom (step Query.decode) init
      [.resolve 1 [0x61] .AnyAddr 2, .queryTimedout 0 []] = .ok s := ⟨_, rfl⟩
  have hbooks : Bookkept s := by
    refine AllSteps.invariant Bookkept (fun _ hkeeps hstep => hkeeps.2 _ hstep) ?_ (h _) hrun
    exact ⟨fun n query h => (by cases h), fun n query h => (by cases h),
      fun n query h => (by cases h), fun n query call h => (by cases h),
      fun i resolver h => (by cases h)⟩
  -- lookup 0 belongs to call 0, which has timed out, and its socket is registered
  have hopen : s.lookups[0]? = some ⟨0, [0x61], Qtype.Aaaa, 0⟩ ∧ 0 ∈ s.timedOut ∧
      0 ∈ s.eventHash := by
    cases hrun
    decide
  exact hbooks.closed 0 _ hopen.1 hopen.2.1 hopen.2.2

end ResolverSystem

end Epoller
