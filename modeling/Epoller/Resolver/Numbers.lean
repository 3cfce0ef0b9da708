import Epoller.Resolver.Lookups

/-!
# Request Numbers

A request number is the number of uncached calls before it, in 16 bits. Nothing
compares it with the requests that are outstanding: a call is given the number
of a request made 65536 uncached calls earlier, and an answer is credited by its
number alone.

## Contents

- `Numbered`: the numbers and the calls they were given to
- `OwnNumber`: a new request has a free number, an answer goes to its own request
- `Young`: requests and lookups that are used are less than one round old
- `ownNumber_iff_young`: the two hold of the same runs
-/

namespace Epoller

open Foundation Query

/-! ## Numbers in 16 Bits -/

/-- The number that the call numbered `call` is given. -/
def numberOf (call : ℕ) : UInt16 := UInt16.ofNat call

theorem numberOf_eq_iff {j k : ℕ} : numberOf j = numberOf k ↔ j % 65536 = k % 65536 := by
  rw [numberOf, numberOf, ← UInt16.toNat_inj, UInt16.toNat_ofNat', UInt16.toNat_ofNat']

theorem numberOf_succ (k : ℕ) : numberOf (k + 1) = numberOf k + 1 := by
  rw [numberOf, numberOf, UInt16.ofNat_add]
  rfl

/-- The counter comes back to a number after one round. -/
theorem numberOf_round (k : ℕ) : numberOf (k + 65536) = numberOf k := by
  rw [numberOf_eq_iff, Nat.add_mod_right]

namespace ResolverSystem

/-- The counter, and the calls that numbers were given to. -/
structure Numbered (s : ResolverSystem) : Prop where
  request : s.impl.request = numberOf s.asked.length
  /-- `owner` is the last call with the number. -/
  owner : ∀ n k, s.owner.lookup n = some k →
    k < s.asked.length ∧ numberOf k = n ∧ ∀ j < s.asked.length, numberOf j = n → j ≤ k
  owned : ∀ n ∈ s.impl.resQueries, n ∈ s.owner
  lookups : ∀ resolver ∈ s.lookups,
    resolver.call < s.asked.length ∧ resolver.requestNo = numberOf resolver.call

/-- A new request gets a number that no outstanding request has, and an answer goes to the request
its lookup was made for. -/
def OwnNumber (s : ResolverSystem) : LookupStep → Prop
  | .resolve _ name _ _ => name ∉ s.impl.byName → s.impl.request ∉ s.impl.resQueries
  | .requestComplete lookup _ => ∀ resolver, s.lookups[lookup]? = some resolver →
    resolver.requestNo ∈ s.impl.resQueries →
      s.owner.lookup resolver.requestNo = some resolver.call
  | .enter _ | .received .. | .notSent _ | .leave .. | .queryTimedout .. => True

/-- When a call does not find its name, every outstanding request is of one of the 65535 calls
before it; when an answer finds a request with its number, at most 65535 calls were made after the
one of its lookup. -/
def Young (s : ResolverSystem) : LookupStep → Prop
  | .resolve _ name _ _ => name ∉ s.impl.byName →
    ∀ n ∈ s.impl.resQueries, ∀ k, s.owner.lookup n = some k → s.asked.length < k + 65536
  | .requestComplete lookup _ => ∀ resolver, s.lookups[lookup]? = some resolver →
    resolver.requestNo ∈ s.impl.resQueries → s.asked.length ≤ resolver.call + 65536
  | .enter _ | .received .. | .notSent _ | .leave .. | .queryTimedout .. => True

variable {decode : Decoder} {s s' : ResolverSystem} {l : LookupStep} {ls : List LookupStep}

theorem newLookups_call {call : ℕ} {requestNo : UInt16} {name : Bytes} {prefs : AddrPref}
    {resolver : UdpResolver} (h : resolver ∈ newLookups call requestNo name prefs) :
    resolver.call = call ∧ resolver.requestNo = requestNo ∧ resolver.name = name := by
  unfold newLookups at h
  rcases List.mem_append.mp h with h | h
  all_goals
    split at h
    · rw [List.mem_singleton.mp h]
      exact ⟨rfl, rfl, rfl⟩
    · cases h

/-- A lookup belongs to a call that was made. -/
theorem Numbered.call_lt (h : Numbered s) {i : LookupPtr} {resolver : UdpResolver}
    (hresolver : s.lookups[i]? = some resolver) : resolver.call < s.asked.length :=
  (h.lookups resolver (List.mem_of_getElem? hresolver)).1

/-- A step that makes no request. -/
theorem Numbered.frame (h : Numbered s) (hrequest : s'.impl.request = s.impl.request)
    (hasked : s'.asked = s.asked) (howner : s'.owner = s.owner) (hlookups : s'.lookups = s.lookups)
    (hsub : ∀ n ∈ s'.impl.resQueries, n ∈ s.impl.resQueries) : Numbered s' := by
  constructor
  case request => rw [hrequest, hasked, h.request]
  case owner =>
    rw [howner, hasked]
    exact h.owner
  case owned =>
    rw [howner]
    exact fun n hn => h.owned n (hsub n hn)
  case lookups =>
    rw [hlookups, hasked]
    exact h.lookups

/-- **Step**: the numbers and their owners are kept by every step. -/
theorem numbered_step (h : Numbered s) (hstep : s.step decode l = .ok s') : Numbered s' := by
  cases moves_of_step hstep with
  | cached | enter | received | ignored | notSent | leave | late =>
    exact h.frame rfl rfl rfl rfl fun n hn => hn
  | more _ _ hquery =>
    refine h.frame rfl rfl rfl rfl fun n hn => ?_
    rcases (AList.mem_insert _).mp hn with rfl | hn
    · exact UnorderedMap.mem_iff_lookup.mpr ⟨_, hquery⟩
    · exact hn
  | last => exact h.frame rfl rfl rfl rfl fun n hn => (AList.mem_erase.mp hn).2
  | queryTimedout hdrops =>
    refine h.frame hdrops.request rfl rfl rfl fun n hn => ?_
    obtain ⟨query, hquery⟩ := UnorderedMap.mem_iff_lookup.mp hn
    exact UnorderedMap.mem_iff_lookup.mpr ⟨query, (hdrops.kept n query hquery).1⟩
  | uncached hname =>
    have hnumber := h.request
    constructor
    case request =>
      simp only [List.length_append, List.length_cons, List.length_nil, Nat.zero_add]
      rw [numberOf_succ, ← h.request]
    case owner =>
      intro n k hk
      simp only [List.length_append, List.length_cons, List.length_nil, Nat.zero_add]
      rcases UnorderedMap.lookup_insert_eq_some_iff.mp hk with ⟨hn, rfl⟩ | ⟨hn, hk⟩
      · -- the new call is the last one with its number
        exact ⟨Nat.lt_succ_self _, by rw [hn, hnumber], fun j hj _ => Nat.lt_succ_iff.mp hj⟩
      · obtain ⟨hlt, hnum, hlatest⟩ := h.owner n k hk
        refine ⟨by omega, hnum, fun j hj hjn => ?_⟩
        rcases Nat.lt_succ_iff_lt_or_eq.mp hj with hj | rfl
        · exact hlatest j hj hjn
        · exact absurd (hjn.symm.trans hnumber.symm) hn
    case owned =>
      intro n hn
      refine (AList.mem_insert _).mpr ?_
      rcases (AList.mem_insert _).mp hn with hn | hn
      · exact .inl hn
      · exact .inr (h.owned n hn)
    case lookups =>
      intro resolver hmem
      simp only [List.length_append, List.length_cons, List.length_nil, Nat.zero_add]
      rcases List.mem_append.mp hmem with hmem | hmem
      · obtain ⟨hlt, hnum⟩ := h.lookups resolver hmem
        exact ⟨by omega, hnum⟩
      · obtain ⟨hcall, hnum, -⟩ := newLookups_call hmem
        rw [hcall, hnum]
        exact ⟨Nat.lt_succ_self _, hnumber⟩

theorem numbered_init : Numbered init :=
  ⟨rfl, fun n k hk => (by cases hk), fun n hn => (by cases hn), fun r hr => (by cases hr)⟩

/-- **Step**: a number is free, and an answer finds its own request, exactly if what is used is
less than one round old. -/
theorem ownNumber_iff_young_step (h : Numbered s) : OwnNumber s l ↔ Young s l := by
  cases l with
  | resolve client name prefs timeout =>
    refine imp_congr_right fun _ => ⟨fun hfree n hn k hk => ?_, fun hyoung hmem => ?_⟩
    · -- an older request has the number of the call made one round after it
      obtain ⟨hlt, hnum, hlatest⟩ := h.owner n k hk
      by_contra hold
      rcases Nat.lt_or_eq_of_le (not_lt.mp hold) with hlater | heq
      · have hle := hlatest (k + 65536) hlater ((numberOf_round k).trans hnum)
        omega
      · refine hfree ?_
        rw [h.request, ← heq, numberOf_round, hnum]
        exact hn
    · obtain ⟨k, hk⟩ := UnorderedMap.mem_iff_lookup.mp (h.owned _ hmem)
      obtain ⟨hlt, hnum, -⟩ := h.owner _ k hk
      have hless := hyoung _ hmem k hk
      rw [h.request] at hnum
      have hmod := numberOf_eq_iff.mp hnum
      omega
  | requestComplete lookup ans =>
    refine forall_congr' fun resolver => imp_congr_right fun hresolver =>
      imp_congr_right fun hmem => ?_
    obtain ⟨hlt, hnum⟩ := h.lookups resolver (List.mem_of_getElem? hresolver)
    obtain ⟨k, hk⟩ := UnorderedMap.mem_iff_lookup.mp (h.owned _ hmem)
    obtain ⟨hklt, hknum, hlatest⟩ := h.owner _ k hk
    have hle := hlatest _ hlt hnum.symm
    have hmod := numberOf_eq_iff.mp (hknum.trans hnum)
    rw [hk, Option.some_inj]
    constructor
    · intro hown
      by_contra hold
      have hround := (numberOf_round resolver.call).trans hnum.symm
      have hlater := hlatest (resolver.call + 65536) (by omega) hround
      omega
    · intro hyoung
      omega
  | enter | received | notSent | leave | queryTimedout => exact Iff.rfl

/-- **Numbers are free and answers find their own request** in exactly those runs in which no
request is outstanding, and no lookup answered, for one round of the counter. -/
theorem ownNumber_iff_young (decode : Decoder) (ls : List LookupStep) :
    AllSteps (step decode) OwnNumber init ls ↔ AllSteps (step decode) Young init ls :=
  ⟨AllSteps.imp_of_invariant Numbered (fun h hl => (ownNumber_iff_young_step h).mp hl)
      (fun h _ => numbered_step h) numbered_init,
    AllSteps.imp_of_invariant Numbered (fun h hl => (ownNumber_iff_young_step h).mpr hl)
      (fun h _ => numbered_step h) numbered_init⟩

/-! ## A Collision -/

/-- A call for the IPv4 address of the name `a`. -/
def resolveA : LookupStep := .resolve 0 [0x61] .Ipv4Only 2

/-- Calls that are never answered are all outstanding. -/
theorem run_unanswered (decode : Decoder) (n : ℕ) (hnumbered : Numbered s)
    (hname : s.impl.byName.lookup [0x61] = none) :
    ∃ t, runFrom (step decode) s (List.replicate n resolveA) = .ok t ∧ Numbered t ∧
      t.impl.byName = s.impl.byName ∧ t.asked.length = s.asked.length + n ∧
      (∀ k ∈ s.impl.resQueries, k ∈ t.impl.resQueries) ∧
      (0 < n → s.impl.request ∈ t.impl.resQueries) := by
  induction n generalizing s with
  | zero => exact ⟨s, rfl, hnumbered, rfl, rfl, fun k hk => hk, fun h => absurd h (lt_irrefl 0)⟩
  | succ n ih =>
    have hstep : s.step decode resolveA = .ok _ := step_uncached hname
    have hnumbered' := numbered_step hnumbered hstep
    -- the first call of the rest finds the cache as it was
    obtain ⟨t, hrun, ht, hcache, hlength, hkept, -⟩ := ih hnumbered' hname
    refine ⟨t, runFrom_cons_eq_ok.mpr ⟨_, hstep, hrun⟩, ht, hcache, ?_, fun k hk => ?_, fun _ => ?_⟩
    · rw [hlength, List.length_append, List.length_singleton]
      omega
    · exact hkept k ((AList.mem_insert _).mpr (.inr hk))
    · exact hkept _ ((AList.mem_insert _).mpr (.inl rfl))

/-- 65537 calls that nobody answers: the last one is given the number of the first. -/
theorem not_ownNumber_after_one_round :
    ¬ ∀ ls, AllSteps (step Query.decode) OwnNumber init ls := by
  intro h
  obtain ⟨t, hrun, hnumbered, hcache, hlength, -, hfirst⟩ :=
    run_unanswered Query.decode 65536 numbered_init rfl
  have hlast : OwnNumber t resolveA :=
    (AllSteps.append_right (h (List.replicate 65536 resolveA ++ [resolveA])) hrun).head
  have hname : [0x61] ∉ t.impl.byName := by
    rw [hcache]
    exact AList.notMem_empty _
  refine hlast hname ?_
  have hnumber : t.impl.request = init.impl.request := by
    rw [hnumbered.request, numbered_init.request, hlength]
    exact numberOf_round 0
  rw [hnumber]
  exact hfirst (by omega)

end ResolverSystem

end Epoller
