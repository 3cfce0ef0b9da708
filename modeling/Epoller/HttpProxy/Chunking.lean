import Epoller.HttpProxy
import Epoller.Foundation.Runs

/-!
# Chunks of a Request

The bytes of a client arrive in chunks. Once four bytes have been collected every
buffer without the end of a head makes the proxy disconnect, and the first buffer
with one decides about the host and the port; what stands in later chunks is only
passed on.

## Contents

- `Serving`, `Serving.step`: the proxy, fed with one chunk after the other
- `Service`, `service`: what the calls of a run amount to
- `Decides`: the first buffer of four bytes decides as the whole input would
- `sameService_iff_decides`: chunks are served like the whole exactly then
-/

namespace Epoller

open Foundation

/-! ## Runs -/

/-- The bytes of the chunks. -/
def joined (chunks : List Chunk) : Bytes := chunks.flatMap (·.data)

/-- The proxy, and the calls it has made. -/
structure Serving where
  proxy : HttpProxy
  calls : List ProxyCall
deriving DecidableEq, Repr

/-- What the calls amount to. -/
structure Service where
  connections : List (Bytes × UInt16)
  handed : Bytes
  disconnected : Bool
deriving DecidableEq, Repr

/-- Host and port of a new connection. -/
def ProxyCall.connection? : ProxyCall → Option (Bytes × UInt16)
  | .create host port _ => some (host, port)
  | .doWrite _ | .disconnect | .queueWrite _ => none

def service (calls : List ProxyCall) : Service where
  connections := calls.filterMap ProxyCall.connection?
  handed := calls.flatMap ProxyCall.handed
  disconnected := decide (ProxyCall.disconnect ∈ calls)

namespace Serving

def init : Serving := ⟨.init, []⟩

/-- The client's stream passes a chunk to `received`. -/
def step (s : Serving) (chunk : Chunk) : Except ProxyHalt Serving := do
  let (proxy, calls) ← s.proxy.received chunk.behind chunk.data
  .ok ⟨proxy, s.calls ++ calls⟩

/-- The chunks are served like the whole input in one. -/
def SameService (chunks : List Chunk) (whole : Chunk) : Prop :=
  ∃ s t, runFrom step init chunks = .ok s ∧ runFrom step init [whole] = .ok t ∧
    service s.calls = service t.calls

/-- The buffer, with `rest` still to come, decides as the whole input would. -/
structure Decides (buffer : Bytes) (behind : UInt8) (rest : Bytes) (behindAll : UInt8) : Prop where
  /-- If a head ends in the input, one ends in the buffer. -/
  head : Found (buffer ++ rest) DOUBLE_CR → Found buffer DOUBLE_CR
  /-- If the input is taken for a tunnel, so is the buffer. -/
  tunnel : Found buffer DOUBLE_CR → Found (buffer ++ rest) CONNECT → Found buffer CONNECT
  /-- The last line behind the buffer that names a host names that of the buffer. -/
  host : Found buffer DOUBLE_CR →
    ∀ host ∈ (named (lines (remainder CR buffer ++ rest))).getLast?,
      host = (named (lines buffer)).getLastD []
  /-- Skipping line feeds stops inside the memory. -/
  stays : Found buffer DOUBLE_CR → ¬ Strays behind buffer ∧ ¬ Strays behindAll (buffer ++ rest)

/-- The first buffer of at least four bytes decides. -/
def FirstBufferDecides (chunks : List Chunk) (behindAll : UInt8) : Prop :=
  ∀ before chunk later, chunks = before ++ chunk :: later → (joined before).length < 4 →
    4 ≤ (joined before ++ chunk.data).length →
      Decides (joined before ++ chunk.data) chunk.behind (joined later) behindAll

variable {s t : Serving} {chunk : Chunk} {chunks : List Chunk} {header : Bytes}
  {calls : List ProxyCall} {behind : UInt8} {k : ℕ}

/-- The calls that pass chunks on. -/
def passedOn (later : List Chunk) : List ProxyCall :=
  later.map fun chunk => .doWrite chunk.data

theorem joined_cons (chunk : Chunk) (chunks : List Chunk) :
    joined (chunk :: chunks) = chunk.data ++ joined chunks := List.flatMap_cons

theorem joined_append (before later : List Chunk) :
    joined (before ++ later) = joined before ++ joined later := List.flatMap_append

theorem step_eq (s : Serving) {proxy : HttpProxy}
    (h : s.proxy.received chunk.behind chunk.data = .ok (proxy, calls)) :
    s.step chunk = .ok ⟨proxy, s.calls ++ calls⟩ := by
  rw [step, h]
  rfl

/-! ## Three Phases -/

/-- While less than four bytes have come, they are only collected. -/
theorem run_short (hshort : (header ++ joined chunks).length < 4) :
    runFrom step ⟨⟨header, false⟩, calls⟩ chunks =
      .ok ⟨⟨header ++ joined chunks, false⟩, calls⟩ := by
  induction chunks generalizing header with
  | nil => simp [joined]
  | cons chunk chunks ih =>
    rw [joined_cons, ← List.append_assoc] at hshort ⊢
    have hfirst : (header ++ chunk.data).length < 4 := by
      rw [List.length_append] at hshort
      omega
    rw [runFrom_cons_ok chunks (step_eq _ (HttpProxy.received_short rfl hfirst))]
    rw [List.append_nil]
    exact ih hshort

/-- While no head ends in what was collected, every chunk makes the proxy disconnect. -/
theorem run_headless (hlong : 4 ≤ header.length)
    (hhead : search (header ++ joined chunks) DOUBLE_CR = none) :
    runFrom step ⟨⟨header, false⟩, calls⟩ chunks = .ok ⟨⟨header ++ joined chunks, false⟩,
      calls ++ List.replicate chunks.length .disconnect⟩ := by
  induction chunks generalizing header calls with
  | nil => simp [joined]
  | cons chunk chunks ih =>
    rw [joined_cons, ← List.append_assoc] at hhead ⊢
    have hfirst : search (header ++ chunk.data) DOUBLE_CR = none := by
      by_contra hsome
      obtain ⟨k, hk⟩ := Option.ne_none_iff_exists'.mp hsome
      rw [search, scan_append_of_some hk] at hhead
      cases hhead
    have hlong' : 4 ≤ (header ++ chunk.data).length := by
      rw [List.length_append]
      omega
    rw [runFrom_cons_ok chunks (step_eq _ (HttpProxy.received_headless rfl (by simpa using hlong')
      hfirst)), ih hlong' hhead]
    simp [List.replicate_succ]

/-- Once a `Remote` lives, every chunk is passed on. -/
theorem run_alive : runFrom step ⟨⟨header, true⟩, calls⟩ chunks =
    .ok ⟨⟨header, true⟩, calls ++ passedOn chunks⟩ := by
  induction chunks generalizing calls with
  | nil => simp [passedOn]
  | cons chunk chunks ih =>
    rw [runFrom_cons_ok chunks (step_eq _ (HttpProxy.received_alive rfl)), ih]
    simp [passedOn]

/-- Calls are only added. -/
theorem calls_of_run (hrun : runFrom step s chunks = .ok t) : s.calls <+: t.calls := by
  refine runFrom_invariant (fun x => s.calls <+: x.calls) (fun {x l x'} hx hstep => ?_)
    (List.prefix_refl _) hrun
  obtain ⟨⟨proxy, calls⟩, -, hs'⟩ := bind_eq_ok_iff.mp hstep
  cases hs'
  exact hx.trans (List.prefix_append _ _)

/-! ## The First Buffer -/

/-- The chunk that completes a head. -/
theorem step_request (hhead : search (header ++ chunk.data) DOUBLE_CR = some k) :
    step ⟨⟨header, false⟩, calls⟩ chunk =
      if Strays chunk.behind (header ++ chunk.data) then .error .pastEnd
      else .ok ⟨⟨HttpProxy.forwarded (header ++ chunk.data) k, true⟩,
        calls ++ HttpProxy.openRemote (header ++ chunk.data) k⟩ := by
  have hreceived : HttpProxy.received ⟨header, false⟩ chunk.behind chunk.data = _ :=
    HttpProxy.received_request rfl hhead
  simp only [step, hreceived]
  split <;> rfl

theorem service_append (calls calls' : List ProxyCall) : service (calls ++ calls') =
    ⟨(service calls).connections ++ (service calls').connections,
      (service calls).handed ++ (service calls').handed,
      (service calls).disconnected || (service calls').disconnected⟩ := by
  simp [service, Bool.decide_or]

theorem service_passedOn (later : List Chunk) :
    service (passedOn later) = ⟨[], joined later, false⟩ := by
  induction later with
  | nil => rfl
  | cons chunk later ih =>
    have hcons : passedOn (chunk :: later) = [.doWrite chunk.data] ++ passedOn later := rfl
    rw [hcons, service_append, ih, joined_cons]
    simp [service, ProxyCall.connection?, ProxyCall.handed]

/-- One connection is made, and what is forwarded of the header and the later chunks are handed
over. -/
theorem service_openRemote (header : Bytes) (k : ℕ) (later : List Chunk) :
    service (HttpProxy.openRemote header k ++ passedOn later) =
      ⟨[((named (lines header)).getLastD [],
          if (search header CONNECT).isSome = true then 443 else 80)],
        HttpProxy.forwarded header k ++ joined later, false⟩ := by
  rw [service_append, service_passedOn]
  unfold HttpProxy.openRemote HttpProxy.forwarded
  split <;> simp [service, ProxyCall.connection?, ProxyCall.handed]

/-- Nothing but disconnecting. -/
theorem service_replicate (n : ℕ) :
    service (List.replicate (n + 1) .disconnect) = ⟨[], [], true⟩ := by
  have hconnections := List.filterMap_replicate_of_none (n := n + 1) (a := ProxyCall.disconnect)
    (f := ProxyCall.connection?) rfl
  simp [service, hconnections, ProxyCall.handed]

section FirstBuffer

variable {buffer rest pattern : Bytes} {behindAll : UInt8} {before later : List Chunk}

theorem search_append (h : search buffer pattern = some k) (rest : Bytes) :
    search (buffer ++ rest) pattern = some k := scan_append_of_some h rest

theorem isSome_search_append (h : (search buffer pattern).isSome = true) (rest : Bytes) :
    (search (buffer ++ rest) pattern).isSome = true := by
  obtain ⟨k, hk⟩ := Option.isSome_iff_exists.mp h
  rw [search_append hk]
  rfl

/-- What is forwarded of the buffer and the rest is what is forwarded of the whole. -/
theorem forwarded_append (hk : k ≤ buffer.length)
    (htunnel : (search buffer CONNECT).isSome = (search (buffer ++ rest) CONNECT).isSome) :
    HttpProxy.forwarded buffer k ++ rest = HttpProxy.forwarded (buffer ++ rest) k := by
  rw [HttpProxy.forwarded, HttpProxy.forwarded, htunnel]
  split
  · rw [List.drop_append_of_le_length hk]
  · rfl

/-- The host of the whole input is that of the buffer, unless a later line names another one. -/
theorem host_append :
    (named (lines buffer)).getLastD [] = (named (lines (buffer ++ rest))).getLastD [] ↔
      ∀ host ∈ (named (lines (remainder CR buffer ++ rest))).getLast?,
        host = (named (lines buffer)).getLastD [] := by
  have hlines : named (lines (buffer ++ rest)) =
      named (lines buffer) ++ named (lines (remainder CR buffer ++ rest)) := by
    rw [lines, terminated_append, List.map_append, named, List.filterMap_append]
    rfl
  rw [hlines]
  rcases List.eq_nil_or_concat (named (lines (remainder CR buffer ++ rest))) with
    hnil | ⟨hosts, host, hlast⟩
  · rw [hnil]
    simp
  · rw [hlast]
    simp [eq_comm]

/-- A run from the chunk on that completes a head. -/
theorem run_request (hhead : search (header ++ chunk.data) DOUBLE_CR = some k) :
    runFrom step ⟨⟨header, false⟩, []⟩ (chunk :: later) =
      if Strays chunk.behind (header ++ chunk.data) then .error .pastEnd
      else .ok ⟨⟨HttpProxy.forwarded (header ++ chunk.data) k, true⟩,
        HttpProxy.openRemote (header ++ chunk.data) k ++ passedOn later⟩ := by
  have hstep : step ⟨⟨header, false⟩, []⟩ chunk = _ := step_request hhead
  by_cases hstrays : Strays chunk.behind (header ++ chunk.data)
  · rw [if_pos hstrays] at hstep ⊢
    exact runFrom_cons_error later hstep
  · rw [if_neg hstrays] at hstep ⊢
    rw [runFrom_cons_ok later hstep, run_alive, List.nil_append]

theorem run_whole (hhead : search buffer DOUBLE_CR = some k) :
    runFrom step init [⟨buffer, behind⟩] = if Strays behind buffer then .error .pastEnd
      else .ok ⟨⟨HttpProxy.forwarded buffer k, true⟩,
        HttpProxy.openRemote buffer k ++ passedOn []⟩ := by
  have hhead' : search ([] ++ (⟨buffer, behind⟩ : Chunk).data) DOUBLE_CR = some k := hhead
  exact run_request hhead'

theorem run_whole_headless (hlong : 4 ≤ buffer.length) (hhead : search buffer DOUBLE_CR = none) :
    runFrom step init [⟨buffer, behind⟩] = .ok ⟨⟨buffer, false⟩, [.disconnect]⟩ :=
  runFrom_cons_ok [] (step_eq init (HttpProxy.received_headless rfl (not_lt.mpr hlong) hhead))

theorem joined_split (before later : List Chunk) (chunk : Chunk) :
    joined (before ++ chunk :: later) = joined before ++ chunk.data ++ joined later := by
  rw [joined_append, joined_cons, List.append_assoc]

/-- The chunks before the first buffer of four bytes. -/
theorem run_before (hshort : (joined before).length < 4) :
    runFrom step init (before ++ chunk :: later) =
      runFrom step ⟨⟨joined before, false⟩, []⟩ (chunk :: later) :=
  runFrom_append_ok (run_short hshort) _

/-- If no head ends in the first buffer, the input is served the same way only if none ends in it
at all. -/
theorem sameService_of_headless (hshort : (joined before).length < 4)
    (hlong : 4 ≤ (joined before ++ chunk.data).length)
    (hhead : search (joined before ++ chunk.data) DOUBLE_CR = none) :
    SameService (before ++ chunk :: later) ⟨joined (before ++ chunk :: later), behindAll⟩ ↔
      search (joined before ++ chunk.data ++ joined later) DOUBLE_CR = none := by
  have hchunk : step ⟨⟨joined before, false⟩, []⟩ chunk =
      .ok ⟨⟨joined before ++ chunk.data, false⟩, [.disconnect]⟩ :=
    step_eq _ (HttpProxy.received_headless rfl (not_lt.mpr hlong) hhead)
  rw [SameService, run_before hshort, runFrom_cons_ok later hchunk, joined_split]
  constructor
  · rintro ⟨s, t, hs, ht, hsame⟩
    by_contra hsome
    obtain ⟨k, hk⟩ := Option.ne_none_iff_exists'.mp hsome
    -- the first buffer disconnects the client, the whole input does not
    have hdisconnected : ProxyCall.disconnect ∈ s.calls :=
      (calls_of_run hs).subset (List.mem_singleton_self _)
    rw [run_whole hk] at ht
    split at ht
    · cases ht
    · cases ht
      rw [service_openRemote] at hsame
      have hflag := congrArg Service.disconnected hsame
      exact absurd hdisconnected (by simpa [service] using hflag)
  · intro hnone
    refine ⟨_, _, run_headless hlong hnone,
      run_whole_headless (by rw [List.length_append]; omega) hnone, ?_⟩
    exact (service_replicate _).trans (service_replicate 0).symm

/-- If a head ends in the first buffer, the input is served the same way only if it names the same
host, is taken for a tunnel just as well, and the search for the host stops. -/
theorem sameService_of_head (hshort : (joined before).length < 4)
    (hhead : search (joined before ++ chunk.data) DOUBLE_CR = some k) :
    SameService (before ++ chunk :: later) ⟨joined (before ++ chunk :: later), behindAll⟩ ↔
      Decides (joined before ++ chunk.data) chunk.behind (joined later) behindAll := by
  have hwhole := search_append hhead (joined later)
  have hfound : Found (joined before ++ chunk.data) DOUBLE_CR :=
    (found_iff (by decide)).mpr (by rw [hhead]; rfl)
  rw [SameService, run_before hshort, joined_split, run_request hhead, run_whole hwhole]
  generalize joined before ++ chunk.data = buffer at hhead hwhole hfound
  have hk : k ≤ buffer.length := scan_le hhead
  constructor
  · rintro ⟨s, t, hs, ht, hsame⟩
    split at hs
    · cases hs
    · rename_i hstays
      split at ht
      · cases ht
      · rename_i hstaysAll
        cases hs
        cases ht
        rw [service_openRemote, service_openRemote] at hsame
        obtain ⟨hhost, hport⟩ := Prod.ext_iff.mp
          (List.singleton_inj.mp (congrArg Service.connections hsame))
        refine ⟨fun _ => hfound, fun _ hwhole => ?_, fun _ => host_append.mp hhost,
          fun _ => ⟨hstays, hstaysAll⟩⟩
        -- the ports differ if only the whole input is taken for a tunnel
        rw [found_iff (by decide)] at hwhole ⊢
        by_contra hnone
        simp only [hnone, hwhole] at hport
        exact absurd hport (by decide)
  · intro hdecides
    obtain ⟨hstays, hstaysAll⟩ := hdecides.stays hfound
    have htunnel : (search buffer CONNECT).isSome =
        (search (buffer ++ joined later) CONNECT).isSome := by
      have h := hdecides.tunnel hfound
      rw [found_iff (by decide), found_iff (by decide)] at h
      exact Bool.eq_iff_iff.mpr ⟨fun hbuffer => isSome_search_append hbuffer _, h⟩
    refine ⟨_, _, if_neg hstays, if_neg hstaysAll, ?_⟩
    rw [service_openRemote, service_openRemote, host_append.mpr (hdecides.host hfound), ← htunnel,
      ← forwarded_append hk htunnel]
    rw [show joined [] = [] from rfl, List.append_nil]

end FirstBuffer

/-! ## All Chunkings -/

/-- Four bytes are complete in one of the chunks. -/
theorem exists_first_buffer (n : ℕ) (hn : n < 4) (h : 4 ≤ n + (joined chunks).length) :
    ∃ before chunk later, chunks = before ++ chunk :: later ∧ n + (joined before).length < 4 ∧
      4 ≤ n + (joined before ++ chunk.data).length := by
  induction chunks generalizing n with
  | nil =>
    rw [joined, List.flatMap_nil, List.length_nil] at h
    omega
  | cons chunk chunks ih =>
    by_cases hfirst : n + chunk.data.length < 4
    · rw [joined_cons, List.length_append, ← Nat.add_assoc] at h
      obtain ⟨before, next, later, rfl, hshort, hlong⟩ := ih _ hfirst h
      refine ⟨chunk :: before, next, later, rfl, ?_, ?_⟩
      · rwa [joined_cons, List.length_append, ← Nat.add_assoc]
      · rwa [joined_cons, List.append_assoc, List.length_append, ← Nat.add_assoc]
    · exact ⟨[], chunk, chunks, rfl, hn, not_lt.mp hfirst⟩

/-- The buffer with which the request line is there decides. -/
theorem sameService_split_iff {before later : List Chunk} {chunk : Chunk} (behindAll : UInt8)
    (hshort : (joined before).length < 4) (hlong : 4 ≤ (joined before ++ chunk.data).length) :
    SameService (before ++ chunk :: later) ⟨joined (before ++ chunk :: later), behindAll⟩ ↔
      Decides (joined before ++ chunk.data) chunk.behind (joined later) behindAll := by
  cases hhead : search (joined before ++ chunk.data) DOUBLE_CR with
  | some k => exact sameService_of_head hshort hhead
  | none =>
    have hnot : ¬ Found (joined before ++ chunk.data) DOUBLE_CR := by
      rw [found_iff (by decide), hhead]
      exact Bool.false_ne_true
    rw [sameService_of_headless hshort hlong hhead]
    constructor
    · intro hwhole
      refine ⟨fun hfound => ?_, fun h => absurd h hnot, fun h => absurd h hnot,
        fun h => absurd h hnot⟩
      rw [found_iff (by decide), hwhole] at hfound
      exact absurd hfound Bool.false_ne_true
    · intro hdecides
      by_contra hsome
      have hwhole := (found_iff (by decide)).mpr (Option.isSome_iff_ne_none.mpr hsome)
      exact hnot (hdecides.head hwhole)

/-- Nothing is done with less than four bytes. -/
theorem sameService_of_short {chunks : List Chunk} (behindAll : UInt8)
    (h : (joined chunks).length < 4) : SameService chunks ⟨joined chunks, behindAll⟩ := by
  have hwhole : joined [⟨joined chunks, behindAll⟩] = joined chunks := List.append_nil _
  refine ⟨_, _, run_short h, run_short ?_, rfl⟩
  rw [hwhole]
  exact h

/-- **Chunking**: the chunks are served like the whole input exactly if the first buffer of at
least four bytes decides as the whole input would. -/
theorem sameService_iff_decides (chunks : List Chunk) (behindAll : UInt8) :
    SameService chunks ⟨joined chunks, behindAll⟩ ↔ FirstBufferDecides chunks behindAll := by
  by_cases hlong : 4 ≤ (joined chunks).length
  · constructor
    · rintro hsame before chunk later rfl hshort hlong'
      exact (sameService_split_iff behindAll hshort hlong').mp hsame
    · intro hdecides
      obtain ⟨before, chunk, later, rfl, hshort, hlong'⟩ :=
        exists_first_buffer 0 (by decide) (by simpa using hlong)
      rw [Nat.zero_add] at hshort hlong'
      have hfirst := hdecides before chunk later rfl hshort hlong'
      exact (sameService_split_iff behindAll hshort hlong').mpr hfirst
  · constructor
    · -- there is no first buffer
      rintro - before chunk later rfl - hlong'
      rw [joined_split, List.length_append] at hlong
      omega
    · intro _
      exact sameService_of_short behindAll (not_le.mp hlong)

/-- The request line comes first: the client is disconnected, though the head is complete with the
second chunk. -/
theorem not_sameService_split_head : ¬ ∀ chunks behindAll,
    (∀ chunk ∈ chunks, chunk.data ≠ []) →
      (∃ head body, joined chunks = head ++ DOUBLE_CR ++ body) →
        SameService chunks ⟨joined chunks, behindAll⟩ := by
  intro h
  have hsame := h ([] ++ ⟨plainRequest.take 16, 0⟩ :: [⟨plainRequest.drop 16, 0⟩]) 0 (by decide)
    ⟨plainRequest.take 23, [], by decide⟩
  rw [sameService_of_headless (by decide) (by decide) (by decide)] at hsame
  exact absurd hsame (by decide)

end Serving

end Epoller
