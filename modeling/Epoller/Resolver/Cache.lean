import Epoller.Resolver.Lookups

/-!
# Where Cached Addresses Come From

An answer is cached under the name it carries. Neither that name nor the number
in the answer is compared with the lookup it came to, so what a response can put
into the cache is up to who sends it.

## Contents

- `Provenance`: a cached address came with an answer to a lookup for its name
- `AnswersLookup`: a response that is taken is about its lookup
- `provenance_of_run`: then the cache holds nothing else
-/

namespace Epoller

open Foundation Query ResolverImpl

namespace ResolverSystem

/-- Every address cached for a name was carried by a response to a lookup for that name, with the
request number of the lookup. -/
def Provenance (s : ResolverSystem) : Prop :=
  ∀ name, ∀ addr ∈ addrsOf s.impl.byName name, ∃ d ∈ s.delivered, ∃ resolver,
    s.lookups[d.lookup]? = some resolver ∧ resolver.name = name ∧
      d.ans.reqNo = resolver.requestNo ∧ addr ∈ d.ans.addr ∧
      ∃ clock, Query.decode clock d.datagram = .ok d.ans

/-- A valid answer that finds a request with the number of its lookup carries the name and the
number of the lookup. -/
def AnswersLookup (s : ResolverSystem) : LookupStep → Prop
  | .requestComplete lookup ans => ∀ resolver, s.lookups[lookup]? = some resolver →
    resolver.requestNo ∈ s.impl.resQueries → ans.valid = true →
      ans.name = resolver.name ∧ ans.reqNo = resolver.requestNo
  | .resolve .. | .enter _ | .received .. | .notSent _ | .leave .. | .queryTimedout .. => True

/-- What `received` has read is on record. -/
structure Logged (s : ResolverSystem) : Prop where
  delivered : ∀ d ∈ s.delivered, ∃ clock, Query.decode clock d.datagram = .ok d.ans
  answered : ∀ i ans, (i, .answered ans) ∈ s.workers → ∃ d ∈ s.delivered, d.lookup = i ∧ d.ans = ans

instance (s : ResolverSystem) (l : LookupStep) : Decidable (AnswersLookup s l) :=
  match l with
  | .requestComplete lookup ans =>
    inferInstanceAs (Decidable (∀ resolver, s.lookups[lookup]? = some resolver →
      resolver.requestNo ∈ s.impl.resQueries → ans.valid = true →
        ans.name = resolver.name ∧ ans.reqNo = resolver.requestNo))
  | .resolve .. | .enter _ | .received .. | .notSent _ | .leave .. | .queryTimedout .. =>
    inferInstanceAs (Decidable True)

variable {s s' : ResolverSystem} {l : LookupStep} {ls : List LookupStep}

theorem logged_step (h : Logged s) (hstep : s.step Query.decode l = .ok s') : Logged s' := by
  cases moves_of_step hstep with
  | cached | uncached | notSent | late | queryTimedout => exact ⟨h.delivered, h.answered⟩
  | enter =>
    refine ⟨h.delivered, fun i ans hmem => ?_⟩
    rcases List.mem_cons.mp hmem with heq | hmem
    · cases heq
    · exact h.answered i ans hmem
  | @received lookup datagram clock ans hmem hfound hans =>
    constructor
    case delivered =>
      intro d hd
      rcases List.mem_append.mp hd with hd | hd
      · exact h.delivered d hd
      · cases List.mem_singleton.mp hd
        exact ⟨clock, hans⟩
    case answered =>
      intro i other hother
      rcases mem_advance hother with ⟨rfl, heq⟩ | hother
      · cases heq
        exact ⟨_, List.mem_append_right _ (List.mem_singleton_self _), rfl, rfl⟩
      · obtain ⟨d, hd, hd'⟩ := h.answered i other hother
        exact ⟨d, List.mem_append_left _ hd, hd'⟩
  | ignored | more | last | leave =>
    refine ⟨h.delivered, fun i ans hmem => ?_⟩
    rcases mem_advance hmem with ⟨-, heq⟩ | hmem
    · cases heq
    · exact h.answered i ans hmem

/-- Lookups and deliveries are only added. -/
theorem Provenance.mono (h : Provenance s)
    (hcache : ∀ name, ∀ addr ∈ addrsOf s'.impl.byName name, addr ∈ addrsOf s.impl.byName name)
    (hlookups : ∃ new, s'.lookups = s.lookups ++ new)
    (hdelivered : ∃ new, s'.delivered = s.delivered ++ new) : Provenance s' := by
  intro name addr haddr
  obtain ⟨d, hd, resolver, hresolver, hd'⟩ := h name addr (hcache name addr haddr)
  obtain ⟨new, hnew⟩ := hlookups
  obtain ⟨more, hmore⟩ := hdelivered
  refine ⟨d, hmore ▸ List.mem_append_left _ hd, resolver, ?_, hd'⟩
  rw [hnew, List.getElem?_append_left (List.getElem?_eq_some_iff.mp hresolver).1]
  exact hresolver

/-- The addresses of an answer that is about its lookup come with that answer. -/
theorem Provenance.stored (h : Provenance s) (hlogged : Logged s) {lookup : LookupPtr}
    {ans : Qanswer} {resolver : UdpResolver} (hmem : (lookup, .answered ans) ∈ s.workers)
    (hresolver : s.lookups[lookup]? = some resolver)
    (hanswers : ans.valid = true → ans.name = resolver.name ∧ ans.reqNo = resolver.requestNo)
    (hcache : ∀ name, addrsOf s'.impl.byName name = addrsOf (s.impl.stored ans) name)
    (hlookups : s'.lookups = s.lookups) (hdelivered : s'.delivered = s.delivered) :
    Provenance s' := by
  intro name addr haddr
  rw [hcache, addrsOf_stored] at haddr
  rw [hlookups, hdelivered]
  split at haddr
  · rename_i hown
    rcases List.mem_append.mp haddr with haddr | haddr
    · exact h name addr haddr
    · -- the address is new: it came with the answer this worker has read
      obtain ⟨d, hd, rfl, rfl⟩ := hlogged.answered _ _ hmem
      obtain ⟨hname, hnumber⟩ := hanswers hown.1
      exact ⟨d, hd, resolver, hresolver, hname.symm.trans hown.2.symm, hnumber, haddr,
        hlogged.delivered d hd⟩
  · exact h name addr haddr

/-- **Step**: an answer that is about its lookup keeps the provenance. -/
theorem provenance_step (h : Provenance s) (hlogged : Logged s) (hl : AnswersLookup s l)
    (hstep : s.step Query.decode l = .ok s') : Provenance s' := by
  cases moves_of_step hstep with
  | cached hname =>
    exact h.mono (fun n addr haddr => addrsOf_insert_get hname n ▸ haddr)
      ⟨[], (List.append_nil _).symm⟩ ⟨[], (List.append_nil _).symm⟩
  | uncached =>
    exact h.mono (fun n addr haddr => haddr) ⟨_, rfl⟩ ⟨[], (List.append_nil _).symm⟩
  | enter | ignored | notSent | leave | late => exact h
  | received =>
    exact h.mono (fun n addr haddr => haddr) ⟨[], (List.append_nil _).symm⟩ ⟨_, rfl⟩
  | more hmem hresolver hquery =>
    exact h.stored hlogged hmem hresolver
      (hl _ hresolver (UnorderedMap.mem_iff_lookup.mpr ⟨_, hquery⟩)) (fun n => rfl) rfl rfl
  | last hmem hresolver hquery =>
    exact h.stored hlogged hmem hresolver
      (hl _ hresolver (UnorderedMap.mem_iff_lookup.mpr ⟨_, hquery⟩))
      (fun n => addrsOf_outcome ..) rfl rfl
  | queryTimedout hdrops =>
    exact h.mono (fun n addr haddr => hdrops.byName ▸ haddr) ⟨[], (List.append_nil _).symm⟩
      ⟨[], (List.append_nil _).symm⟩

/-- **Provenance**: if every valid answer that is taken carries the name and the number of its
lookup, a cached address came with an answer to a lookup for its name. -/
theorem provenance_of_run (hanswers : AllSteps (step Query.decode) AnswersLookup init ls)
    (hrun : runFrom (step Query.decode) init ls = .ok s) : Provenance s := by
  refine (AllSteps.invariant (fun s => Provenance s ∧ Logged s)
    (fun h hl hstep => ⟨provenance_step h.1 h.2 hl hstep, logged_step h.2 hstep⟩)
    ⟨fun name addr haddr => (by cases haddr), fun d hd => (by cases hd),
      fun i ans hmem => (by cases hmem)⟩ hanswers hrun).1

/-- The response to the question for the one-letter name `label`, with id 0 and one address record
192.0.2.1. -/
def response (label : UInt8) : Bytes :=
  [0, 0, 0x81, 0x80, 0, 1, 0, 1, 0, 0, 0, 0, 1, label, 0, 0, 1, 0, 1,
    0xc0, 0x0c, 0, 1, 0, 1, 0, 0, 0, 60, 0, 4, 192, 0, 2, 1]

/-- What `decode` makes of it. -/
def responseAnswer (label : UInt8) : Qanswer :=
  ⟨true, 0, [label], [⟨#v[0, 0, 0, 0, 0, 0xffff, 0x00c0, 0x0102]⟩], some 60000000000, 0⟩

/-- A call for the name `a` that is answered by the response for `label`. -/
def answeredRun (label : UInt8) : List LookupStep :=
  [.resolve 1 [0x61] .Ipv4Only 2, .enter 0, .received 0 (response label) fun _ => 0,
    .requestComplete 0 (responseAnswer label)]

/-- The address of an honest answer is cached. -/
theorem provenance_honest_answer : ∃ s,
    runFrom (step Query.decode) init (answeredRun 0x61) = .ok s ∧
      addrsOf s.impl.byName [0x61] ≠ [] ∧ Provenance s := by
  obtain ⟨s, hrun, hcached⟩ : ∃ s, runFrom (step Query.decode) init (answeredRun 0x61) = .ok s ∧
      addrsOf s.impl.byName [0x61] ≠ [] := exists_ok_of_check (by decide +kernel)
  exact ⟨s, hrun, hcached, provenance_of_run (by decide +kernel) hrun⟩

/-- The lookup for the name `a` is answered with an address for the name `b`: it is cached, though
no lookup for `b` was ever made. -/
theorem not_provenance_other_name :
    ¬ ∀ ls s, runFrom (step Query.decode) init ls = .ok s → Provenance s := by
  intro h
  obtain ⟨s, hrun, hcached, hnames⟩ : ∃ s,
      runFrom (step Query.decode) init (answeredRun 0x62) = .ok s ∧
        addrsOf s.impl.byName [0x62] ≠ [] ∧ ∀ r ∈ s.lookups, r.name = [0x61] :=
    exists_ok_of_check (by decide +kernel)
  obtain ⟨addr, haddr⟩ := List.exists_mem_of_ne_nil _ hcached
  obtain ⟨d, -, resolver, hresolver, hname, -⟩ := h _ s hrun [0x62] addr haddr
  have hasked := hnames resolver (List.mem_of_getElem? hresolver)
  rw [hname] at hasked
  exact absurd hasked (by decide)

end ResolverSystem

end Epoller
