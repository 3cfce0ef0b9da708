import Epoller.Resolver.Numbers

/-!
# Lookups That Are Answered in Time

As long as no outstanding request times out and no number is used twice, every
lookup is answered at most once, and its request waits until the last of its
lookups is answered.

## Contents

- `Phases`: a lookup is registered, then being answered, then completed
- `Requested`: a request waits for exactly its open lookups
- `phases_step`, `requested_step`: both are kept
-/

namespace Epoller

open Foundation Query

/-- A call with the preference makes a lookup of this type. -/
def AddrPref.Wants (prefs : AddrPref) (qType : Qtype) : Prop :=
  (qType = Qtype.Aaaa ∧ prefs ≠ .Ipv4Only) ∨ (qType = Qtype.A ∧ prefs ≠ .Ipv6Only)

namespace ResolverSystem

/-- The lookup that a worker has an answer for. -/
def pending? : LookupPtr × LookupStage → Option LookupPtr
  | (lookup, .answered _) => some lookup
  | (_, .entered) | (_, .returned) => none

/-- The lookups whose answer waits for the resolver. -/
def pending (s : ResolverSystem) : List LookupPtr := s.workers.filterMap pending?

/-- A lookup is registered, then pending, then completed, and never goes back. -/
structure Phases (s : ResolverSystem) : Prop where
  nodup : s.pending.Nodup
  registered : ∀ i ∈ s.eventHash, i < s.lookups.length ∧ i ∉ s.pending ∧ i ∉ s.completed
  pending : ∀ i ∈ s.pending, i < s.lookups.length ∧ i ∉ s.completed
  completed : ∀ i ∈ s.completed, i < s.lookups.length

/-- The lookups of a call that are not completed. -/
def openLookups (s : ResolverSystem) (call : ℕ) : Finset LookupPtr :=
  (Finset.range s.lookups.length).filter fun i =>
    i ∉ s.completed ∧ s.lookups[i]?.map UdpResolver.call = some call

/-- Every lookup belongs to a call, and every request waits for the open lookups of its call. -/
structure Requested (s : ResolverSystem) : Prop where
  asked : ∀ (i : LookupPtr) (resolver : UdpResolver), s.lookups[i]? = some resolver →
    ∃ question : Question, s.asked[resolver.call]? = some question ∧
      resolver.name = question.name ∧ question.prefs.Wants resolver.qType
  made : ∀ (call : ℕ) (question : Question), s.asked[call]? = some question →
    ∀ qType, question.prefs.Wants qType → ∃ i : LookupPtr, ∃ resolver : UdpResolver,
      s.lookups[i]? = some resolver ∧ resolver.call = call ∧ resolver.qType = qType
  uncompleted : ∀ (i : LookupPtr) (resolver : UdpResolver), s.lookups[i]? = some resolver →
    i ∉ s.completed → resolver.requestNo ∈ s.impl.resQueries ∧
      s.owner.lookup resolver.requestNo = some resolver.call
  waiting : ∀ n query call, s.impl.resQueries.lookup n = some query →
    s.owner.lookup n = some call → ∃ question : Question, s.asked[call]? = some question ∧
      query.prefs = question.prefs ∧ query.clients.length = (s.openLookups call).card ∧
        ∀ client ∈ query.clients, client = question.client

/-- No outstanding request times out, and no number is used twice. -/
def InTime (s : ResolverSystem) : LookupStep → Prop
  | .resolve _ name _ _ => name ∉ s.impl.byName → s.impl.request ∉ s.impl.resQueries
  | .queryTimedout queryId _ => queryId ∉ s.impl.resQueries
  | .enter _ | .received .. | .requestComplete .. | .notSent _ | .leave .. => True

instance (s : ResolverSystem) (l : LookupStep) : Decidable (InTime s l) :=
  match l with
  | .resolve _ name _ _ =>
    inferInstanceAs (Decidable (name ∉ s.impl.byName → s.impl.request ∉ s.impl.resQueries))
  | .queryTimedout queryId _ => inferInstanceAs (Decidable (queryId ∉ s.impl.resQueries))
  | .enter _ | .received .. | .requestComplete .. | .notSent _ | .leave .. =>
    inferInstanceAs (Decidable True)

variable {decode : Decoder} {s s' : ResolverSystem} {l : LookupStep} {ls : List LookupStep}

/-! ## Phases -/

/-- A worker that moves on takes its answer along, or has none. -/
theorem pending_perm_advance {lookup : LookupPtr} {stage : LookupStage}
    (next : Option LookupStage) (hmem : (lookup, stage) ∈ s.workers) :
    ((pending? (lookup, stage)).toList ++ (s.advance lookup stage next).pending).Perm
      (((next.map fun stage => (lookup, stage)).bind pending?).toList ++ s.pending) := by
  have hperm := (List.perm_cons_erase hmem).filterMap pending?
  have hpending : (s.advance lookup stage next).pending =
      ((next.map fun stage => (lookup, stage)).bind pending?).toList ++
        (s.workers.erase (lookup, stage)).filterMap pending? := by
    rw [pending, advance, List.filterMap_append]
    cases next with
    | none => rfl
    | some next => cases h : pending? (lookup, next) <;> simp [h]
  rw [hpending]
  have hcons : ((lookup, stage) :: s.workers.erase (lookup, stage)).filterMap pending? =
      (pending? (lookup, stage)).toList ++
        (s.workers.erase (lookup, stage)).filterMap pending? := by
    cases h : pending? (lookup, stage) <;> simp [h]
  rw [hcons] at hperm
  exact (List.perm_append_comm_assoc ..).trans (hperm.symm.append_left _)

/-- A step in which no lookup changes its phase. -/
theorem Phases.frame (h : Phases s) (hpending : s'.pending.Perm s.pending)
    (hhash : ∀ i ∈ s'.eventHash, i ∈ s.eventHash ∨
      (s.lookups.length ≤ i ∧ i < s'.lookups.length))
    (hcompleted : s'.completed = s.completed) (hlookups : s.lookups.length ≤ s'.lookups.length) :
    Phases s' := by
  constructor
  case nodup => exact hpending.nodup_iff.mpr h.nodup
  case registered =>
    intro i hi
    rw [hpending.mem_iff, hcompleted]
    rcases hhash i hi with hi | ⟨hge, hlt⟩
    · obtain ⟨hlt, hphases⟩ := h.registered i hi
      exact ⟨hlt.trans_le hlookups, hphases⟩
    -- a new lookup is in no other phase
    · exact ⟨hlt, fun hmem => absurd (h.pending i hmem).1 (not_lt.mpr hge),
        fun hmem => absurd (h.completed i hmem) (not_lt.mpr hge)⟩
  case pending =>
    intro i hi
    obtain ⟨hlt, hphase⟩ := h.pending i (hpending.mem_iff.mp hi)
    exact ⟨hlt.trans_le hlookups, hcompleted ▸ hphase⟩
  case completed =>
    intro i hi
    exact (h.completed i (hcompleted ▸ hi)).trans_le hlookups

/-- An answer is taken to the resolver. -/
theorem phases_complete {lookup : LookupPtr} {ans : Qanswer} (h : Phases s)
    (hmem : (lookup, .answered ans) ∈ s.workers)
    (hworkers : s'.workers = (s.advance lookup (.answered ans) (some .returned)).workers)
    (hhash : s'.eventHash = s.eventHash) (hcompleted : s'.completed = insert lookup s.completed)
    (hlookups : s'.lookups = s.lookups) : Phases s' := by
  have hperm : (lookup :: s'.pending).Perm s.pending := by
    have hadvance := pending_perm_advance (some .returned) hmem
    rwa [pending, ← hworkers] at hadvance
  have hnodup := List.nodup_cons.mp (hperm.nodup_iff.mpr h.nodup)
  have hsub : ∀ i ∈ s'.pending, i ∈ s.pending := fun i hi =>
    hperm.mem_iff.mp (List.mem_cons_of_mem _ hi)
  have hlookup : lookup ∈ s.pending := hperm.mem_iff.mp (List.mem_cons_self ..)
  constructor
  case nodup => exact hnodup.2
  case registered =>
    intro i hi
    obtain ⟨hlt, hpending, hphase⟩ := h.registered i (hhash ▸ hi)
    refine ⟨hlookups ▸ hlt, fun hi' => hpending (hsub i hi'), ?_⟩
    rw [hcompleted, Finset.mem_insert, not_or]
    exact ⟨fun heq => hpending (heq ▸ hlookup), hphase⟩
  case pending =>
    intro i hi
    obtain ⟨hlt, hphase⟩ := h.pending i (hsub i hi)
    refine ⟨hlookups ▸ hlt, ?_⟩
    rw [hcompleted, Finset.mem_insert, not_or]
    exact ⟨fun heq => hnodup.1 (heq ▸ hi), hphase⟩
  case completed =>
    intro i hi
    rw [hcompleted, Finset.mem_insert] at hi
    rw [hlookups]
    rcases hi with rfl | hi
    · exact (h.pending i hlookup).1
    · exact h.completed i hi

/-- **Step**: lookups go through their phases in order, whatever happens. -/
theorem phases_step (h : Phases s) (hstep : s.step decode l = .ok s') : Phases s' := by
  cases moves_of_step hstep with
  | cached | enter | late =>
    exact h.frame (List.Perm.refl _) (fun i hi => .inl hi) rfl le_rfl
  | uncached =>
    refine h.frame (List.Perm.refl _) (fun i hi => ?_) rfl ?_
    · rcases Finset.mem_union.mp hi with hi | hi
      · exact .inl hi
      · exact .inr (Finset.mem_Ico.mp hi)
    · rw [List.length_append]
      exact Nat.le_add_right ..
  | @received lookup datagram clock ans hmem hfound hans =>
    obtain ⟨hlt, hpending, hcompleted⟩ := h.registered lookup hfound
    have hperm : (s.advance lookup .entered (some (.answered ans))).pending.Perm
        (lookup :: s.pending) := pending_perm_advance (some (.answered ans)) hmem
    constructor
    case nodup => exact hperm.nodup_iff.mpr (List.nodup_cons.mpr ⟨hpending, h.nodup⟩)
    case registered =>
      intro i hi
      obtain ⟨hne, hi⟩ := Finset.mem_erase.mp hi
      obtain ⟨hilt, hipending, hicompleted⟩ := h.registered i hi
      refine ⟨hilt, fun hmem => ?_, hicompleted⟩
      rcases List.mem_cons.mp (hperm.mem_iff.mp hmem) with heq | hmem
      · exact hne heq
      · exact hipending hmem
    case pending =>
      intro i hi
      rcases List.mem_cons.mp (hperm.mem_iff.mp hi) with rfl | hi
      · exact ⟨hlt, hcompleted⟩
      · exact h.pending i hi
    case completed => exact h.completed
  | ignored hmem | more hmem | last hmem => exact phases_complete h hmem rfl rfl rfl rfl
  | notSent =>
    exact h.frame (List.Perm.refl _) (fun i hi => .inl (Finset.mem_of_mem_erase hi)) rfl le_rfl
  | @leave lookup stage hmem hstage =>
    refine h.frame ?_ (fun i hi => .inl hi) rfl le_rfl
    have hperm := pending_perm_advance none hmem
    cases stage with
    | answered ans => exact absurd rfl (hstage ans)
    | entered | returned => exact hperm
  | queryTimedout hdrops hsub =>
    exact h.frame (List.Perm.refl _) (fun i hi => .inl (hsub hi)) rfl le_rfl

theorem phases_init : Phases init :=
  ⟨List.nodup_nil, fun i hi => (by cases hi), fun i hi => (by cases hi),
    fun i hi => (by cases hi)⟩

/-! ## Requests and Their Lookups -/

theorem mem_openLookups_iff {i : LookupPtr} {call : ℕ} : i ∈ s.openLookups call ↔
    i ∉ s.completed ∧ ∃ resolver, s.lookups[i]? = some resolver ∧ resolver.call = call := by
  rw [openLookups, Finset.mem_filter, Finset.mem_range, Option.map_eq_some_iff]
  constructor
  · rintro ⟨-, h⟩
    exact h
  · rintro ⟨hcompleted, resolver, hresolver, hcall⟩
    exact ⟨(List.getElem?_eq_some_iff.mp hresolver).1, hcompleted, resolver, hresolver, hcall⟩

/-- The lookups of a new call are those its preference wants. -/
theorem mem_newLookups_iff {call : ℕ} {requestNo : UInt16} {name : Bytes} {prefs : AddrPref}
    {resolver : UdpResolver} : resolver ∈ newLookups call requestNo name prefs ↔
      prefs.Wants resolver.qType ∧ resolver = ⟨requestNo, name, resolver.qType, call⟩ := by
  obtain ⟨r, n, t, c⟩ := resolver
  cases prefs <;> simp [newLookups, AddrPref.Wants] <;> grind

/-- The lookups that a new call wants are made. -/
theorem exists_newLookup (lookups : List UdpResolver) (call : ℕ) (requestNo : UInt16)
    (name : Bytes) {prefs : AddrPref} {qType : Qtype} (hwants : prefs.Wants qType) :
    ∃ (i : LookupPtr) (resolver : UdpResolver),
      (lookups ++ newLookups call requestNo name prefs)[i]? = some resolver ∧
        resolver.call = call ∧ resolver.qType = qType := by
  have hmem : (⟨requestNo, name, qType, call⟩ : UdpResolver) ∈
      newLookups call requestNo name prefs := mem_newLookups_iff.mpr ⟨hwants, rfl⟩
  obtain ⟨j, hj⟩ := List.getElem?_of_mem hmem
  refine ⟨lookups.length + j, ⟨requestNo, name, qType, call⟩, ?_, rfl, rfl⟩
  rw [List.getElem?_append_right (Nat.le_add_right ..), Nat.add_sub_cancel_left]
  exact hj

/-- A lookup after a call has made new ones. -/
theorem getElem?_append_cases {lookups new : List UdpResolver} {i : LookupPtr}
    {resolver : UdpResolver} (h : (lookups ++ new)[i]? = some resolver) :
    lookups[i]? = some resolver ∨ (lookups.length ≤ i ∧ resolver ∈ new) := by
  rcases lt_or_ge i lookups.length with hlt | hge
  · rw [List.getElem?_append_left hlt] at h
    exact .inl h
  · rw [List.getElem?_append_right hge] at h
    exact .inr ⟨hge, List.mem_of_getElem? h⟩

/-- A step that makes no request and completes no lookup. -/
theorem Requested.frame (h : Requested s) (hlookups : s'.lookups = s.lookups)
    (hasked : s'.asked = s.asked) (howner : s'.owner = s.owner)
    (hcompleted : s'.completed = s.completed)
    (hqueries : s'.impl.resQueries = s.impl.resQueries) : Requested s' := by
  have hopen : ∀ call, s'.openLookups call = s.openLookups call := fun call => by
    simp only [openLookups, hlookups, hcompleted]
  constructor
  case asked => simpa only [hlookups, hasked] using h.asked
  case made => simpa only [hlookups, hasked] using h.made
  case uncompleted => simpa only [hlookups, hcompleted, hqueries, howner] using h.uncompleted
  case waiting => simpa only [hqueries, howner, hasked, hopen] using h.waiting

/-- The open lookups of a call after other lookups were made. -/
theorem openLookups_append_of_ne {call : ℕ} {new : List UdpResolver}
    (hlookups : s'.lookups = s.lookups ++ new) (hcompleted : s'.completed = s.completed)
    (hnew : ∀ resolver ∈ new, resolver.call ≠ call) :
    s'.openLookups call = s.openLookups call := by
  ext i
  rw [mem_openLookups_iff, mem_openLookups_iff, hcompleted, hlookups]
  refine and_congr_right fun _ => ⟨?_, ?_⟩
  · rintro ⟨resolver, hresolver, hcall⟩
    rcases getElem?_append_cases hresolver with hold | ⟨-, hmem⟩
    · exact ⟨resolver, hold, hcall⟩
    · exact absurd hcall (hnew resolver hmem)
  · rintro ⟨resolver, hresolver, hcall⟩
    refine ⟨resolver, ?_, hcall⟩
    rw [List.getElem?_append_left (List.getElem?_eq_some_iff.mp hresolver).1]
    exact hresolver

/-- All lookups of a new call are open. -/
theorem openLookups_append_of_eq {call : ℕ} {new : List UdpResolver} (hphases : Phases s)
    (hlookups : s'.lookups = s.lookups ++ new) (hcompleted : s'.completed = s.completed)
    (hold : ∀ (i : LookupPtr) (resolver : UdpResolver), s.lookups[i]? = some resolver →
      resolver.call ≠ call)
    (hnew : ∀ resolver ∈ new, resolver.call = call) :
    (s'.openLookups call).card = new.length := by
  have hico : s'.openLookups call =
      Finset.Ico s.lookups.length (s.lookups.length + new.length) := by
    ext i
    rw [mem_openLookups_iff, hcompleted, hlookups, Finset.mem_Ico]
    constructor
    · rintro ⟨-, resolver, hresolver, hcall⟩
      have hlt := (List.getElem?_eq_some_iff.mp hresolver).1
      rw [List.length_append] at hlt
      rcases getElem?_append_cases hresolver with hi | ⟨hge, -⟩
      · exact absurd hcall (hold i resolver hi)
      · exact ⟨hge, hlt⟩
    · rintro ⟨hge, hlt⟩
      refine ⟨fun hmem => absurd (hphases.completed i hmem) (not_lt.mpr hge), ?_⟩
      obtain ⟨resolver, hresolver⟩ : ∃ resolver, (s.lookups ++ new)[i]? = some resolver :=
        ⟨_, List.getElem?_eq_getElem (by rwa [List.length_append])⟩
      refine ⟨resolver, hresolver, ?_⟩
      rcases getElem?_append_cases hresolver with hi | ⟨-, hmem⟩
      · exact absurd (List.getElem?_eq_some_iff.mp hi).1 (not_lt.mpr hge)
      · exact hnew resolver hmem
  rw [hico, Nat.card_Ico, Nat.add_sub_cancel_left]

/-- A request has one client entry for each lookup of its call. -/
theorem newQuery_clients_length (impl : ResolverImpl) (fresh : LookupPtr) (client : ClientPtr)
    (name : Bytes) (prefs : AddrPref) (call : ℕ) (requestNo : UInt16) :
    (impl.newQuery fresh client name prefs).1.clients.length =
      (newLookups call requestNo name prefs).length := by
  cases prefs <;> rfl

/-- Each of these entries is the client that has called. -/
theorem eq_of_mem_newQuery_clients {impl : ResolverImpl} {fresh : LookupPtr}
    {client c : ClientPtr} {name : Bytes} {prefs : AddrPref}
    (h : c ∈ (impl.newQuery fresh client name prefs).1.clients) : c = client := by
  cases prefs <;> simpa [ResolverImpl.newQuery] using h

theorem newQuery_prefs (impl : ResolverImpl) (fresh : LookupPtr) (client : ClientPtr)
    (name : Bytes) (prefs : AddrPref) :
    (impl.newQuery fresh client name prefs).1.prefs = prefs := by
  cases prefs <;> rfl

/-- **Step**: a call that does not find its name, and gets a free number. -/
theorem requested_uncached {client : ClientPtr} {name : Bytes} {prefs : AddrPref}
    {timeout : NanoSecs} (hnumbered : Numbered s) (hphases : Phases s) (h : Requested s)
    (hname : s.impl.byName.lookup name = none) (hfree : s.impl.request ∉ s.impl.resQueries)
    (hstep : s.step decode (.resolve client name prefs timeout) = .ok s') : Requested s' := by
  rw [step_uncached hname, Except.ok.injEq] at hstep
  have hlookups : s'.lookups = s.lookups ++ newLookups s.asked.length s.impl.request name prefs :=
    hstep ▸ rfl
  have hasked : s'.asked = s.asked ++ [⟨client, name, prefs⟩] := hstep ▸ rfl
  have howner : s'.owner = s.owner.insert s.impl.request s.asked.length := hstep ▸ rfl
  have hcompleted : s'.completed = s.completed := hstep ▸ rfl
  have hqueries : s'.impl.resQueries = s.impl.resQueries.insert s.impl.request
    (s.impl.newQuery s.lookups.length client name prefs).1 := hstep ▸ rfl
  clear hstep
  constructor
  case asked =>
    intro i resolver hresolver
    rw [hlookups] at hresolver
    rw [hasked]
    rcases getElem?_append_cases hresolver with hold | ⟨-, hmem⟩
    · obtain ⟨question, hquestion, hwants⟩ := h.asked i resolver hold
      refine ⟨question, ?_, hwants⟩
      rw [List.getElem?_append_left (hnumbered.call_lt hold)]
      exact hquestion
    · obtain ⟨hwants, heq⟩ := mem_newLookups_iff.mp hmem
      refine ⟨⟨client, name, prefs⟩, ?_, ?_, hwants⟩
      · rw [heq, List.getElem?_concat_length]
      · rw [heq]
  case made =>
    intro call question hquestion qType hwants
    rw [hasked] at hquestion
    rw [hlookups]
    rcases lt_or_ge call s.asked.length with hlt | hge
    · rw [List.getElem?_append_left hlt] at hquestion
      obtain ⟨i, resolver, hresolver, hmade⟩ := h.made call question hquestion qType hwants
      refine ⟨i, resolver, ?_, hmade⟩
      rw [List.getElem?_append_left (List.getElem?_eq_some_iff.mp hresolver).1]
      exact hresolver
    · -- the new call has made the lookups it wants
      have heq : call = s.asked.length := by
        have hlt := (List.getElem?_eq_some_iff.mp hquestion).1
        rw [List.length_append, List.length_singleton] at hlt
        omega
      rw [heq, List.getElem?_concat_length] at hquestion
      cases hquestion
      rw [heq]
      exact exists_newLookup s.lookups s.asked.length s.impl.request name hwants
  case uncompleted =>
    intro i resolver hresolver hi
    rw [hlookups] at hresolver
    rw [hcompleted] at hi
    rw [hqueries, howner, UnorderedMap.lookup_insert_eq]
    rcases getElem?_append_cases hresolver with hold | ⟨-, hmem⟩
    · obtain ⟨hfound, hown⟩ := h.uncompleted i resolver hold hi
      have hne : resolver.requestNo ≠ s.impl.request := fun heq => hfree (heq ▸ hfound)
      rw [if_neg hne]
      exact ⟨(AList.mem_insert _).mpr (.inr hfound), hown⟩
    · obtain ⟨-, heq⟩ := mem_newLookups_iff.mp hmem
      rw [heq, if_pos rfl]
      exact ⟨(AList.mem_insert _).mpr (.inl rfl), rfl⟩
  case waiting =>
    intro n query call hquery hown
    rw [hqueries, UnorderedMap.lookup_insert_eq] at hquery
    rw [howner, UnorderedMap.lookup_insert_eq] at hown
    rw [hasked]
    split at hquery
    · rename_i hn
      rw [if_pos hn] at hown
      cases hquery
      cases hown
      refine ⟨⟨client, name, prefs⟩, List.getElem?_concat_length, newQuery_prefs .., ?_,
        fun c hc => eq_of_mem_newQuery_clients hc⟩
      rw [openLookups_append_of_eq hphases hlookups hcompleted
        (fun i resolver hi => (hnumbered.call_lt hi).ne)
        fun resolver hmem => (newLookups_call hmem).1]
      exact newQuery_clients_length ..
    · rename_i hn
      rw [if_neg hn] at hown
      obtain ⟨question, hquestion, hprefs, hlength, hclients⟩ := h.waiting n query call hquery hown
      have hlt := (hnumbered.owner n call hown).1
      refine ⟨question, ?_, hprefs, ?_, hclients⟩
      · rw [List.getElem?_append_left hlt]
        exact hquestion
      · rw [hlength, openLookups_append_of_ne hlookups hcompleted fun resolver hmem => ?_]
        rw [(newLookups_call hmem).1]
        exact hlt.ne'

/-- An open lookup that is completed leaves the others open. -/
theorem openLookups_complete {lookup : LookupPtr} (hlookups : s'.lookups = s.lookups)
    (hcompleted : s'.completed = insert lookup s.completed) (call : ℕ) :
    s'.openLookups call = (s.openLookups call).erase lookup := by
  ext i
  rw [Finset.mem_erase, mem_openLookups_iff, mem_openLookups_iff, hlookups, hcompleted,
    Finset.mem_insert, not_or, and_assoc]

/-- A lookup of another call is not open for this one. -/
theorem openLookups_complete_of_ne {lookup : LookupPtr} {resolver : UdpResolver} {call : ℕ}
    (hlookups : s'.lookups = s.lookups) (hcompleted : s'.completed = insert lookup s.completed)
    (hresolver : s.lookups[lookup]? = some resolver) (hne : resolver.call ≠ call) :
    s'.openLookups call = s.openLookups call := by
  rw [openLookups_complete hlookups hcompleted, Finset.erase_eq_of_notMem]
  rintro hmem
  obtain ⟨-, other, hother, hcall⟩ := mem_openLookups_iff.mp hmem
  rw [hresolver] at hother
  cases hother
  exact hne hcall

/-- An answer changes nothing for the other requests. -/
theorem Requested.waiting_of_ne {lookup : LookupPtr} {resolver : UdpResolver}
    {other : ResolverQuery} {n : UInt16} {call : ℕ} (hnumbered : Numbered s) (h : Requested s)
    (hlookups : s'.lookups = s.lookups) (hcompleted : s'.completed = insert lookup s.completed)
    (hresolver : s.lookups[lookup]? = some resolver) (hopen : lookup ∉ s.completed)
    (hn : n ≠ resolver.requestNo) (hother : s.impl.resQueries.lookup n = some other)
    (hcall : s.owner.lookup n = some call) :
    ∃ question : Question, s.asked[call]? = some question ∧ other.prefs = question.prefs ∧
      other.clients.length = (s'.openLookups call).card ∧
        ∀ client ∈ other.clients, client = question.client := by
  obtain ⟨-, hown⟩ := h.uncompleted lookup resolver hresolver hopen
  obtain ⟨question, hquestion, hprefs, hlength, hclients⟩ := h.waiting n other call hother hcall
  have hne : resolver.call ≠ call := by
    rintro rfl
    have hnum := (hnumbered.owner n _ hcall).2.1
    exact hn (hnum.symm.trans (hnumbered.owner _ _ hown).2.1)
  refine ⟨question, hquestion, hprefs, ?_, hclients⟩
  rw [openLookups_complete_of_ne hlookups hcompleted hresolver hne, hlength]

/-- An answer closes one lookup of its call, and takes one client from the request. -/
theorem Requested.length_clients {lookup : LookupPtr} {resolver : UdpResolver}
    {query : ResolverQuery} (h : Requested s) (hlookups : s'.lookups = s.lookups)
    (hcompleted : s'.completed = insert lookup s.completed)
    (hresolver : s.lookups[lookup]? = some resolver) (hopen : lookup ∉ s.completed)
    (hquery : s.impl.resQueries.lookup resolver.requestNo = some query) :
    query.clients.dropLast.length = (s'.openLookups resolver.call).card := by
  obtain ⟨-, hown⟩ := h.uncompleted lookup resolver hresolver hopen
  obtain ⟨-, -, -, hlength, -⟩ := h.waiting _ query _ hquery hown
  have hmem : lookup ∈ s.openLookups resolver.call :=
    mem_openLookups_iff.mpr ⟨hopen, resolver, hresolver, rfl⟩
  rw [openLookups_complete hlookups hcompleted, Finset.card_erase_of_mem hmem,
    List.length_dropLast, hlength]

/-- **Step**: an answer that is not the last. -/
theorem requested_more {lookup : LookupPtr} {resolver : UdpResolver} {query : ResolverQuery}
    (hnumbered : Numbered s) (h : Requested s) (hlookups : s'.lookups = s.lookups)
    (hasked : s'.asked = s.asked) (howner : s'.owner = s.owner)
    (hcompleted : s'.completed = insert lookup s.completed)
    (hresolver : s.lookups[lookup]? = some resolver) (hopen : lookup ∉ s.completed)
    (hquery : s.impl.resQueries.lookup resolver.requestNo = some query)
    (hqueries : s'.impl.resQueries = s.impl.resQueries.insert resolver.requestNo
      { query with clients := query.clients.dropLast }) : Requested s' := by
  obtain ⟨-, hown⟩ := h.uncompleted lookup resolver hresolver hopen
  constructor
  case asked => simpa only [hlookups, hasked] using h.asked
  case made => simpa only [hlookups, hasked] using h.made
  case uncompleted =>
    intro i other hother hi
    rw [hlookups] at hother
    rw [hcompleted, Finset.mem_insert, not_or] at hi
    obtain ⟨hfound, hown'⟩ := h.uncompleted i other hother hi.2
    rw [hqueries, howner]
    exact ⟨(AList.mem_insert _).mpr (.inr hfound), hown'⟩
  case waiting =>
    intro n other call hother hcall
    rw [howner] at hcall
    rw [hqueries, UnorderedMap.lookup_insert_eq] at hother
    rw [hasked]
    split at hother
    · rename_i hn
      cases hother
      rw [hn, hown] at hcall
      cases hcall
      obtain ⟨question, hquestion, hprefs, -, hclients⟩ := h.waiting _ query _ hquery hown
      exact ⟨question, hquestion, hprefs,
        h.length_clients hlookups hcompleted hresolver hopen hquery,
        fun client hclient => hclients client (List.dropLast_subset _ hclient)⟩
    · rename_i hn
      exact h.waiting_of_ne hnumbered hlookups hcompleted hresolver hopen hn hother hcall

/-- When a request gets its last answer, no lookup of its call is open any more. -/
theorem openLookups_last {lookup : LookupPtr} {resolver : UdpResolver} {query : ResolverQuery}
    (h : Requested s) (hlookups : s'.lookups = s.lookups)
    (hcompleted : s'.completed = insert lookup s.completed)
    (hresolver : s.lookups[lookup]? = some resolver) (hopen : lookup ∉ s.completed)
    (hquery : s.impl.resQueries.lookup resolver.requestNo = some query)
    (hrest : query.clients.dropLast = []) : s'.openLookups resolver.call = ∅ := by
  have hlength := h.length_clients hlookups hcompleted hresolver hopen hquery
  rw [hrest, List.length_nil] at hlength
  exact Finset.card_eq_zero.mp hlength.symm

/-- **Step**: the last answer to a request. -/
theorem requested_last {lookup : LookupPtr} {resolver : UdpResolver} {query : ResolverQuery}
    (hnumbered : Numbered s) (h : Requested s) (hlookups : s'.lookups = s.lookups)
    (hasked : s'.asked = s.asked) (howner : s'.owner = s.owner)
    (hcompleted : s'.completed = insert lookup s.completed)
    (hresolver : s.lookups[lookup]? = some resolver) (hopen : lookup ∉ s.completed)
    (hquery : s.impl.resQueries.lookup resolver.requestNo = some query)
    (hrest : query.clients.dropLast = [])
    (hqueries : s'.impl.resQueries = s.impl.resQueries.erase resolver.requestNo) :
    Requested s' := by
  obtain ⟨-, hown⟩ := h.uncompleted lookup resolver hresolver hopen
  have hempty := openLookups_last h hlookups hcompleted hresolver hopen hquery hrest
  constructor
  case asked => simpa only [hlookups, hasked] using h.asked
  case made => simpa only [hlookups, hasked] using h.made
  case uncompleted =>
    intro i other hother hi
    rw [hlookups] at hother
    have hi' := hi
    rw [hcompleted, Finset.mem_insert, not_or] at hi'
    obtain ⟨hfound, hown'⟩ := h.uncompleted i other hother hi'.2
    rw [hqueries, howner]
    refine ⟨AList.mem_erase.mpr ⟨fun heq => ?_, hfound⟩, hown'⟩
    -- it would be another open lookup of the same call
    rw [heq, hown] at hown'
    have hother' : i ∈ s'.openLookups resolver.call := by
      rw [mem_openLookups_iff, hlookups]
      exact ⟨hi, other, hother, (Option.some.inj hown').symm⟩
    rw [hempty] at hother'
    exact Finset.notMem_empty _ hother'
  case waiting =>
    intro n other call hother hcall
    rw [howner] at hcall
    rw [hqueries, UnorderedMap.lookup_erase_eq] at hother
    rw [hasked]
    split at hother
    · cases hother
    · rename_i hn
      exact h.waiting_of_ne hnumbered hlookups hcompleted hresolver hopen hn hother hcall

/-- The lookup that a worker has an answer for is open. -/
theorem Phases.notMem_completed {lookup : LookupPtr} {ans : Qanswer} (h : Phases s)
    (hmem : (lookup, .answered ans) ∈ s.workers) : lookup ∉ s.completed :=
  (h.pending lookup (List.mem_filterMap.mpr ⟨_, hmem, rfl⟩)).2

/-- **Step**: in time, every request waits for its open lookups. -/
theorem requested_step (hnumbered : Numbered s) (hphases : Phases s) (h : Requested s)
    (hl : InTime s l) (hstep : s.step decode l = .ok s') : Requested s' := by
  cases moves_of_step hstep with
  | cached | enter | received | notSent | leave | late => exact h.frame rfl rfl rfl rfl rfl
  | uncached hname =>
    exact requested_uncached hnumbered hphases h hname (hl (AList.lookup_eq_none.mp hname)) hstep
  | ignored hmem hresolver hgone =>
    have hfound := (h.uncompleted _ _ hresolver (hphases.notMem_completed hmem)).1
    exact absurd hfound (AList.lookup_eq_none.mp hgone)
  | more hmem hresolver hquery =>
    exact requested_more hnumbered h rfl rfl rfl rfl hresolver (hphases.notMem_completed hmem)
      hquery rfl
  | last hmem hresolver hquery hclients hrest =>
    exact requested_last hnumbered h rfl rfl rfl rfl hresolver (hphases.notMem_completed hmem)
      hquery hrest rfl
  | queryTimedout hdrops =>
    obtain ⟨query, resolver, hquery, -⟩ := hdrops.found _ (List.mem_cons_self ..)
    exact absurd (UnorderedMap.mem_iff_lookup.mpr ⟨query, hquery⟩) hl

theorem requested_init : Requested init :=
  ⟨fun i resolver h => (by cases h), fun call question h => (by cases h),
    fun i resolver h => (by cases h), fun n query call h => (by cases h)⟩

end ResolverSystem

end Epoller
