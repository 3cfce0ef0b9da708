import Epoller.HttpProxy
import Epoller.Foundation.Runs

/-!
# What Successive Remotes Are Given

When a `Remote` has ceased to exist, the next chunk is collected again, behind
what the header still holds; if a head ends in it, a new `Remote` is created. The
header is copied into a `Remote` and not cleared, so it can hold bytes that an
earlier one was given.

## Contents

- `Replaying`, `ReplayStep`: the proxy with the positions of the bytes it has received
- `Tracked`: the positions are those of the bytes in the header and in the calls
- `InOrder`: every byte is handed over at most once, in the order of the client's stream
- `inOrder_iff_leavesNothing`: when it is
-/

namespace Epoller

open Foundation

/-! ## The Machine -/

/-- The proxy, and the positions in the client's stream of the bytes it holds and has handed
over. -/
structure Replaying where
  proxy : HttpProxy
  /-- Everything the client has sent -/
  stream : Bytes
  /-- The positions of the bytes of `header` -/
  headerAt : List ℕ
  /-- The positions of the bytes that were handed to a `Remote`, in order -/
  handedAt : List ℕ
  /-- The bytes that were handed to a `Remote`, in order -/
  handed : Bytes
  /-- How many bytes the header held when the last `Remote` had been created -/
  left : ℕ
deriving DecidableEq, Repr

inductive ReplayStep where
  | received (chunk : Chunk)
  /-- The `Remote` ceases to exist. -/
  | expire
deriving DecidableEq, Repr

namespace Replaying

def init : Replaying := ⟨.init, [], [], [], [], 0⟩

def step (s : Replaying) : ReplayStep → Except ProxyHalt Replaying
  | .received chunk => do
    let (proxy, calls) ← s.proxy.received chunk.behind chunk.data
    let arrived := List.range' s.stream.length chunk.data.length
    let s' : Replaying := { s with
      proxy
      stream := s.stream ++ chunk.data
      handed := s.handed ++ calls.flatMap ProxyCall.handed }
    if s.proxy.ep = true then .ok { s' with handedAt := s.handedAt ++ arrived }
    else
      -- `erase` takes the front of the header away
      let headerAt := (s.headerAt ++ arrived).rtake proxy.header.length
      if proxy.ep = true then
        .ok { s' with headerAt, handedAt := s.handedAt ++ headerAt, left := proxy.header.length }
      else .ok { s' with headerAt }
  | .expire => .ok { s with proxy := { s.proxy with ep := false } }

/-- The positions are those of the bytes. -/
structure Tracked (s : Replaying) : Prop where
  header : s.headerAt.map (s.stream[·]?) = s.proxy.header.map some
  handed : s.handedAt.map (s.stream[·]?) = s.handed.map some

/-- Every byte is handed over at most once, in the order of the client's stream. -/
def InOrder (s : Replaying) : Prop := s.handedAt.Pairwise (· < ·)

/-- How many bytes `erase` takes away from a header that is complete. -/
def erased (header : Bytes) : ℕ :=
  if Found header CONNECT then (findFirstPattern header DOUBLE_CR).2 + 1 else 0

/-- If a `Remote` is created, what the last one left in the header is taken away. -/
def LeavesNothing (s : Replaying) : ReplayStep → Prop
  | .received chunk => s.proxy.ep = false → Found (s.proxy.header ++ chunk.data) DOUBLE_CR →
    s.left ≤ erased (s.proxy.header ++ chunk.data)
  | .expire => True

instance (s : Replaying) (l : ReplayStep) : Decidable (LeavesNothing s l) :=
  match l with
  | .received chunk => inferInstanceAs (Decidable (s.proxy.ep = false →
      Found (s.proxy.header ++ chunk.data) DOUBLE_CR →
        s.left ≤ erased (s.proxy.header ++ chunk.data)))
  | .expire => inferInstanceAs (Decidable True)

variable {s s' t : Replaying} {l : ReplayStep} {ls : List ReplayStep}

/-! ## What a Step Can Do -/

/-- The positions of an arriving chunk. -/
def arrived (s : Replaying) (x : Bytes) : List ℕ := List.range' s.stream.length x.length

/-- What a step can do. -/
inductive Moves (s : Replaying) : ReplayStep → Replaying → Prop where
  | passedOn {chunk : Chunk} (halive : s.proxy.ep = true) :
      Moves s (.received chunk) { s with
        stream := s.stream ++ chunk.data
        handedAt := s.handedAt ++ s.arrived chunk.data
        handed := s.handed ++ chunk.data }
  | collected {chunk : Chunk} (hgone : s.proxy.ep = false)
      (hhead : ¬ Found (s.proxy.header ++ chunk.data) DOUBLE_CR) :
      Moves s (.received chunk) { s with
        proxy := ⟨s.proxy.header ++ chunk.data, false⟩
        stream := s.stream ++ chunk.data
        headerAt := s.headerAt ++ s.arrived chunk.data }
  | created {chunk : Chunk} (hgone : s.proxy.ep = false)
      (hhead : Found (s.proxy.header ++ chunk.data) DOUBLE_CR) :
      Moves s (.received chunk) { s with
        proxy := ⟨(s.proxy.header ++ chunk.data).drop (erased (s.proxy.header ++ chunk.data)), true⟩
        stream := s.stream ++ chunk.data
        headerAt := (s.headerAt ++ s.arrived chunk.data).drop
          (erased (s.proxy.header ++ chunk.data))
        handedAt := s.handedAt ++ (s.headerAt ++ s.arrived chunk.data).drop
          (erased (s.proxy.header ++ chunk.data))
        handed := s.handed ++
          (s.proxy.header ++ chunk.data).drop (erased (s.proxy.header ++ chunk.data))
        left := ((s.proxy.header ++ chunk.data).drop
          (erased (s.proxy.header ++ chunk.data))).length }
  | expire : Moves s .expire { s with proxy := { s.proxy with ep := false } }

/-- One position for each byte of the header. -/
def Sized (s : Replaying) : Prop := s.headerAt.length = s.proxy.header.length

theorem Sized.collect (h : Sized s) (x : Bytes) :
    (s.headerAt ++ s.arrived x).length = (s.proxy.header ++ x).length := by
  rw [List.length_append, List.length_append, h, arrived, List.length_range']

/-- What is forwarded is what `erase` leaves. -/
theorem drop_erased {header : Bytes} {k : ℕ} (h : search header DOUBLE_CR = some k) :
    HttpProxy.forwarded header k = header.drop (erased header) := by
  unfold HttpProxy.forwarded erased
  simp only [found_iff (show 2 ≤ CONNECT.length by decide),
    second_of_search (show 2 ≤ DOUBLE_CR.length by decide) h]
  split <;> rfl

theorem handed_openRemote (header : Bytes) (k : ℕ) :
    (HttpProxy.openRemote header k).flatMap ProxyCall.handed = HttpProxy.forwarded header k := by
  unfold HttpProxy.openRemote HttpProxy.forwarded
  split <;> simp [ProxyCall.handed]

/-- The positions of what is left when the front is taken away. -/
theorem rtake_length_drop {positions : List ℕ} {data : Bytes} (h : positions.length = data.length)
    (n : ℕ) : positions.rtake (data.drop n).length = positions.drop n := by
  rw [List.rtake, List.length_drop, h]
  by_cases hn : n ≤ data.length
  · rw [Nat.sub_sub_self hn]
  · rw [List.drop_eq_nil_of_le (by omega), List.drop_eq_nil_of_le (by omega)]

/-- **Inversion** of the step function. -/
theorem moves_of_step (hsized : Sized s) (hstep : s.step l = .ok s') : Moves s l s' := by
  cases l with
  | expire =>
    cases hstep
    exact .expire
  | received chunk =>
    obtain ⟨⟨proxy, calls⟩, hreceived, hs'⟩ := bind_eq_ok_iff.mp hstep
    cases hep : s.proxy.ep with
    | true =>
      rw [HttpProxy.received_alive hep] at hreceived
      cases hreceived
      simp only [hep, if_true, List.flatMap_singleton, ProxyCall.handed] at hs'
      cases hs'
      exact .passedOn hep
    | false =>
      simp only [hep, Bool.false_eq_true, if_false] at hs'
      have hlength := hsized.collect chunk.data
      cases hhead : search (s.proxy.header ++ chunk.data) DOUBLE_CR with
      | none =>
        have hfound : ¬ Found (s.proxy.header ++ chunk.data) DOUBLE_CR := by
          rw [found_iff (by decide), hhead]
          exact Bool.false_ne_true
        -- too short or without the end of a head
        have hcollected : proxy = ⟨s.proxy.header ++ chunk.data, false⟩ ∧
            calls.flatMap ProxyCall.handed = [] := by
          by_cases hshort : (s.proxy.header ++ chunk.data).length < 4
          · rw [HttpProxy.received_short hep hshort] at hreceived
            cases hreceived
            exact ⟨rfl, rfl⟩
          · rw [HttpProxy.received_headless hep hshort hhead] at hreceived
            cases hreceived
            exact ⟨rfl, rfl⟩
        obtain ⟨rfl, hnothing⟩ := hcollected
        have hkept := rtake_length_drop hlength 0
        rw [arrived, List.drop_zero, List.drop_zero] at hkept
        simp only [hkept, hnothing, List.append_nil, Bool.false_eq_true, if_false] at hs'
        cases hs'
        exact .collected hep hfound
      | some k =>
        have hfound : Found (s.proxy.header ++ chunk.data) DOUBLE_CR := by
          rw [found_iff (by decide), hhead]
          rfl
        rw [HttpProxy.received_request hep hhead] at hreceived
        split at hreceived
        · cases hreceived
        · cases hreceived
          have hkept := rtake_length_drop hlength (erased (s.proxy.header ++ chunk.data))
          rw [← drop_erased hhead, arrived] at hkept
          simp only [hkept, handed_openRemote, if_true] at hs'
          cases hs'
          have hcreated := Moves.created hep hfound
          rw [← drop_erased hhead] at hcreated
          exact hcreated

/-! ## Positions -/

/-- What is known of the positions in the header and of those handed over. -/
structure Ordered (s : Replaying) : Prop where
  sized : Sized s
  sorted : s.headerAt.Pairwise (· < ·)
  headerBelow : ∀ i ∈ s.headerAt, i < s.stream.length
  handedBelow : ∀ i ∈ s.handedAt, i < s.stream.length
  left_le : s.left ≤ s.headerAt.length
  /-- What the last `Remote` left in the header was handed to it. -/
  leftHanded : ∀ i ∈ s.headerAt.take s.left, i ∈ s.handedAt
  /-- What was collected since is new. -/
  fresh : ∀ i ∈ s.headerAt.drop s.left, ∀ j ∈ s.handedAt, j < i
  /-- Nothing is collected while the `Remote` lives. -/
  alive : s.proxy.ep = true → s.left = s.headerAt.length

theorem mem_arrived {x : Bytes} {i : ℕ} :
    i ∈ s.arrived x ↔ s.stream.length ≤ i ∧ i < (s.stream ++ x).length := by
  rw [arrived, List.mem_range'_1, List.length_append]

theorem arrived_sorted (s : Replaying) (x : Bytes) : (s.arrived x).Pairwise (· < ·) :=
  List.pairwise_lt_range'

theorem lt_stream_append {i : ℕ} (hi : i < s.stream.length) (x : Bytes) :
    i < (s.stream ++ x).length := by
  rw [List.length_append]
  exact hi.trans_le (Nat.le_add_right ..)

/-- The header with an arriving chunk. -/
theorem Ordered.collect (h : Ordered s) (x : Bytes) :
    (s.headerAt ++ s.arrived x).Pairwise (· < ·) ∧
      (∀ i ∈ s.headerAt ++ s.arrived x, i < (s.stream ++ x).length) ∧
        ∀ i ∈ (s.headerAt ++ s.arrived x).drop s.left, ∀ j ∈ s.handedAt, j < i := by
  refine ⟨List.pairwise_append.mpr ⟨h.sorted, s.arrived_sorted x, fun i hi j hj => ?_⟩,
    fun i hi => ?_, fun i hi j hj => ?_⟩
  · exact (h.headerBelow i hi).trans_le (mem_arrived.mp hj).1
  · rcases List.mem_append.mp hi with hi | hi
    · exact lt_stream_append (h.headerBelow i hi) x
    · exact (mem_arrived.mp hi).2
  · rw [List.drop_append_of_le_length h.left_le] at hi
    rcases List.mem_append.mp hi with hi | hi
    · exact h.fresh i hi j hj
    · exact (h.handedBelow j hj).trans_le (mem_arrived.mp hi).1

/-- **Step**: the positions stay ordered. -/
theorem ordered_step (h : Ordered s) (hstep : s.step l = .ok s') : Ordered s' := by
  have hmoves := moves_of_step h.sized hstep
  cases hmoves with
  | expire => exact { h with alive := fun hep => (by cases hep) }
  | @passedOn chunk halive =>
    refine { h with
      headerBelow := fun i hi => lt_stream_append (h.headerBelow i hi) _
      handedBelow := fun i hi => ?_
      leftHanded := fun i hi => List.mem_append_left _ (h.leftHanded i hi)
      fresh := fun i hi => ?_ }
    · rcases List.mem_append.mp hi with hi | hi
      · exact lt_stream_append (h.handedBelow i hi) _
      · exact (mem_arrived.mp hi).2
    · rw [h.alive halive, List.drop_length] at hi
      cases hi
  | @collected chunk hgone hhead =>
    obtain ⟨hsorted, hbelow, hfresh⟩ := h.collect chunk.data
    constructor
    case sized => exact h.sized.collect chunk.data
    case sorted => exact hsorted
    case headerBelow => exact hbelow
    case handedBelow => exact fun i hi => lt_stream_append (h.handedBelow i hi) _
    case left_le =>
      rw [List.length_append]
      exact h.left_le.trans (Nat.le_add_right ..)
    case leftHanded =>
      rw [List.take_append_of_le_length h.left_le]
      exact h.leftHanded
    case fresh => exact hfresh
    case alive => exact fun hep => (by cases hep)
  | @created chunk hgone hhead =>
    obtain ⟨hsorted, hbelow, -⟩ := h.collect chunk.data
    have hlength := h.sized.collect chunk.data
    have hkept : ((s.headerAt ++ s.arrived chunk.data).drop
        (erased (s.proxy.header ++ chunk.data))).length = ((s.proxy.header ++ chunk.data).drop
          (erased (s.proxy.header ++ chunk.data))).length := by
      rw [List.length_drop, List.length_drop, hlength]
    constructor
    case sized => exact hkept
    case sorted => exact hsorted.sublist (List.drop_sublist ..)
    case headerBelow => exact fun i hi => hbelow i (List.mem_of_mem_drop hi)
    case handedBelow =>
      intro i hi
      rcases List.mem_append.mp hi with hi | hi
      · exact lt_stream_append (h.handedBelow i hi) _
      · exact hbelow i (List.mem_of_mem_drop hi)
    case left_le => exact hkept.ge
    case leftHanded => exact fun i hi => List.mem_append_right _ (List.mem_of_mem_take hi)
    case fresh =>
      -- all that the header holds was handed over
      intro i hi
      rw [← hkept, List.drop_length] at hi
      cases hi
    case alive => exact fun _ => hkept.symm

/-- **Step**: the order is kept exactly if nothing is left. -/
theorem inOrder_step_iff (h : Ordered s) (hstep : s.step l = .ok s') :
    InOrder s' ↔ InOrder s ∧ LeavesNothing s l := by
  have hmoves := moves_of_step h.sized hstep
  cases hmoves with
  | expire => exact (and_iff_left trivial).symm
  | @passedOn chunk halive =>
    have hnothing : LeavesNothing s (.received chunk) := fun hgone => by
      rw [halive] at hgone
      cases hgone
    rw [InOrder, List.pairwise_append, and_iff_left hnothing]
    refine ⟨fun h' => h'.1, fun h' => ⟨h', s.arrived_sorted _, fun i hi j hj => ?_⟩⟩
    exact (h.handedBelow i hi).trans_le (mem_arrived.mp hj).1
  | @collected chunk hgone hhead =>
    exact (and_iff_left fun _ hfound => absurd hfound hhead).symm
  | @created chunk hgone hhead =>
    obtain ⟨hsorted, -, hfresh⟩ := h.collect chunk.data
    generalize hn : erased (s.proxy.header ++ chunk.data) = n
    rw [InOrder, List.pairwise_append]
    constructor
    · rintro ⟨horder, -, hbefore⟩
      refine ⟨horder, fun _ _ => hn ▸ ?_⟩
      by_contra hlt
      rw [not_le] at hlt
      -- the byte at index `n` was left by the last `Remote`, and is handed over again
      have hlen : n < (s.headerAt ++ s.arrived chunk.data).length := by
        have := h.left_le
        rw [List.length_append]
        omega
      have hagain : (s.headerAt ++ s.arrived chunk.data)[n] ∈
          (s.headerAt ++ s.arrived chunk.data).drop n := by
        rw [List.drop_eq_getElem_cons hlen]
        exact List.mem_cons_self ..
      have hleft : (s.headerAt ++ s.arrived chunk.data)[n] ∈ s.headerAt.take s.left := by
        rw [List.getElem_append_left (hlt.trans_le h.left_le)]
        exact List.mem_take_iff_getElem.mpr ⟨n, lt_min hlt (hlt.trans_le h.left_le), rfl⟩
      exact lt_irrefl _ (hbefore _ (h.leftHanded _ hleft) _ hagain)
    · rintro ⟨horder, hnothing⟩
      have hle : s.left ≤ n := hn ▸ hnothing hgone hhead
      refine ⟨horder, hsorted.sublist (List.drop_sublist ..), fun j hj i hi => ?_⟩
      exact hfresh i ((List.drop_sublist_drop_left _ hle).subset hi) j hj

/-! ## Bytes -/

/-- Positions keep their bytes when the stream grows. -/
theorem map_stream_append {positions : List ℕ} (h : ∀ i ∈ positions, i < s.stream.length)
    (x : Bytes) : positions.map ((s.stream ++ x)[·]?) = positions.map (s.stream[·]?) :=
  List.map_congr_left fun i hi => List.getElem?_append_left (h i hi)

theorem map_arrived (s : Replaying) (x : Bytes) :
    (s.arrived x).map ((s.stream ++ x)[·]?) = x.map some := by
  refine List.ext_getElem (by simp [arrived]) fun i hi hi' => ?_
  rw [List.length_map] at hi'
  simp [arrived, hi']

/-- **Step**: the positions stay those of the bytes. -/
theorem tracked_step (h : Ordered s) (ht : Tracked s) (hstep : s.step l = .ok s') : Tracked s' := by
  have hmoves := moves_of_step h.sized hstep
  cases hmoves with
  | expire => exact ⟨ht.header, ht.handed⟩
  | @passedOn chunk halive =>
    constructor
    case header => exact (map_stream_append h.headerBelow _).trans ht.header
    case handed =>
      rw [List.map_append, map_stream_append h.handedBelow, map_arrived, ht.handed,
        List.map_append]
  | @collected chunk hgone hhead =>
    constructor
    case header =>
      rw [List.map_append, map_stream_append h.headerBelow, map_arrived, ht.header,
        List.map_append]
    case handed => exact (map_stream_append h.handedBelow _).trans ht.handed
  | @created chunk hgone hhead =>
    have hheader : (s.headerAt ++ s.arrived chunk.data).map ((s.stream ++ chunk.data)[·]?) =
        (s.proxy.header ++ chunk.data).map some := by
      rw [List.map_append, map_stream_append h.headerBelow, map_arrived, ht.header,
        List.map_append]
    constructor
    case header => rw [List.map_drop, hheader, List.map_drop]
    case handed =>
      rw [List.map_append, map_stream_append h.handedBelow, ht.handed, List.map_drop, hheader,
        ← List.map_drop, List.map_append]

/-! ## Runs -/

theorem ordered_init : Ordered init where
  sized := rfl
  sorted := .nil
  headerBelow i hi := by cases hi
  handedBelow i hi := by cases hi
  left_le := le_refl _
  leftHanded i hi := by cases hi
  fresh i hi := by cases hi
  alive hep := by cases hep

/-- In every run the positions are those of the bytes. -/
theorem tracked_of_run (hrun : runFrom step init ls = .ok t) : Tracked t :=
  (runFrom_invariant (fun s => Ordered s ∧ Tracked s)
    (fun h hstep => ⟨ordered_step h.1 hstep, tracked_step h.1 h.2 hstep⟩)
    ⟨ordered_init, rfl, rfl⟩ hrun).2

theorem inOrder_run_iff (h : Ordered s) (hrun : runFrom step s ls = .ok t) :
    InOrder t ↔ InOrder s ∧ AllSteps step LeavesNothing s ls := by
  induction ls generalizing s with
  | nil =>
    cases hrun
    exact (and_iff_left trivial).symm
  | cons l ls ih =>
    obtain ⟨s', hs', hrun'⟩ := runFrom_cons_eq_ok.mp hrun
    rw [ih (ordered_step h hs') hrun', inOrder_step_iff h hs', and_assoc, AllSteps, hs']

/-- **No replay**: every byte is handed over at most once, and in order, exactly if, whenever a
`Remote` is created, what the last one left in the header is taken away. -/
theorem inOrder_iff_leavesNothing (hrun : runFrom step init ls = .ok t) :
    InOrder t ↔ AllSteps step LeavesNothing init ls := by
  rw [inOrder_run_iff ordered_init hrun]
  exact and_iff_right .nil

/-- A request, and another one when its `Remote` has ceased to exist. -/
def requestsAfter (first : Bytes) : List ReplayStep :=
  [.received ⟨first, 0⟩, .expire, .received ⟨plainRequest, 0⟩]

/-- Nothing of a tunnel's head is left for the next `Remote`. -/
theorem inOrder_after_tunnel : ∃ t,
    runFrom step init (requestsAfter (CONNECT ++ plainRequest.drop 4)) = .ok t ∧
      t.handed = plainRequest ∧ InOrder t := by
  obtain ⟨t, hrun, hhanded⟩ : ∃ t,
      runFrom step init (requestsAfter (CONNECT ++ plainRequest.drop 4)) = .ok t ∧
        t.handed = plainRequest := by decide +kernel
  exact ⟨t, hrun, hhanded, (inOrder_iff_leavesNothing hrun).mpr (by decide +kernel)⟩

/-- The second `Remote` is given the first request again. -/
theorem not_inOrder_second_request :
    ¬ ∀ ls t, runFrom step init ls = .ok t → InOrder t := by
  intro h
  obtain ⟨t, hrun, hhanded⟩ : ∃ t, runFrom step init (requestsAfter plainRequest) = .ok t ∧
      ¬ t.handedAt.Pairwise (· < ·) := by decide +kernel
  exact hhanded (h _ t hrun)

end Replaying

end Epoller
