import Epoller.TcpStream.Conservation

/-!
# Reading, and an Echo

`TcpStream::handleRead` with `Socket::read`, for the client `TcpEcho`, which queues
what it receives on the stream it came from. The loop holds `readLock`, so one worker
reads at a time; others write meanwhile. `Counters` adds up what both directions
report. The `initWrite` of a `TcpEcho` is empty: `writeComplete` queues nothing.

## Contents

- `Socket.read`, `Counters`: one read, and the totals
- `EchoServer`, `EchoStep`, `EchoServer.step`: the machine
- `writeLoop_wire_length`: what the loop of `handleWrite` reports
- `echoed_of_run`: the peer gets back what it has sent, and the counters agree
-/

namespace Epoller

open Foundation

/-! ## Reading from the Socket -/

/-- What `::read` returned, the error number, and the bytes it has stored. -/
structure ReadResult where
  ret : ℤ
  errno : Errno
  bytes : Bytes
deriving DecidableEq, Repr

/-- `Socket::read`: the buffer afterwards, and the result -/
def Socket.read (data : Bytes) (r : ReadResult) : Bytes × ℤ :=
  let numRead := r.ret
  -- the kernel stores the bytes at the front of the buffer
  let data := r.bytes ++ data.drop r.bytes.length
  let data :=
    if 0 ≤ numRead ∧ 0 < (data.length : ℤ) - numRead then data.take numRead.toNat else data
  (data, convertFromStdError r.ret r.errno)

/-- What `::read` can return for a buffer of `size` bytes, if `kernel` has arrived: the first bytes
of it, the end of the stream, or an error. -/
def ReadResult.Answers (r : ReadResult) (size : ℕ) (kernel : Bytes) : Prop :=
  r.ret ≤ size ∧ r.ret ≤ kernel.length ∧ -1 ≤ r.ret ∧ r.bytes = kernel.take r.ret.toNat

instance (r : ReadResult) (size : ℕ) (kernel : Bytes) : Decidable (r.Answers size kernel) :=
  inferInstanceAs (Decidable (_ ∧ _ ∧ _ ∧ _))

/-- `Counters`: the totals. They are `ssize_t` in the source, which says nothing of what happens
beyond its range. -/
structure Counters where
  ingress : ℤ
  egress : ℤ
deriving DecidableEq, Repr

def Counters.notifyIngress (c : Counters) (count : ℤ) : Counters :=
  if 0 < count then { c with ingress := c.ingress + count } else c

def Counters.notifyEgress (c : Counters) (count : ℤ) : Counters :=
  if 0 < count then { c with egress := c.egress + count } else c

/-- What the rounds of the loop of `handleWrite` report -/
def Counters.notifyWrites (c : Counters) (ws : List WriteCall) : Counters :=
  ws.foldl (fun c w => if 0 ≤ w.actuallySent then c.notifyEgress w.actuallySent else c) c

/-! ## The Machine -/

/-- What the holder of `readLock` does next. -/
inductive Reader where
  /-- the next round of the loop -/
  | round
  /-- `client->received(data)` -/
  | received (data : Bytes)
deriving DecidableEq, Repr

/-- A stream whose client is a `TcpEcho` -/
structure EchoServer where
  stream : Sending
  counters : Counters
  /-- What has arrived at the socket and was not read -/
  kernel : Bytes
  /-- The holder of `readLock` -/
  reader : Option Reader
  /-- Everything that has arrived -/
  sent : Bytes
deriving DecidableEq, Repr

inductive EchoStep where
  /-- Bytes of the peer arrive. -/
  | arrive (x : Bytes)
  /-- A worker enters `handleRead`. -/
  | handleRead
  /-- A round of its loop, with the result of `::read` -/
  | read (r : ReadResult)
  /-- `TcpEcho::received` -/
  | received
  | handleWrite (start : TimePointNs) (ws : List WriteCall)
  | disconnect
deriving DecidableEq, Repr

namespace EchoServer

/-- A stream that was accepted -/
def init : EchoServer where
  stream := .init true TcpStream.ACCEPTED_EGRESS_RATE
  counters := ⟨0, 0⟩
  kernel := []
  reader := none
  sent := []

def step (s : EchoServer) : EchoStep → Except StreamHalt EchoServer
  | .arrive x => .ok { s with kernel := s.kernel ++ x, sent := s.sent ++ x }
  | .handleRead =>
    if s.reader = none then .ok { s with reader := some .round } else .error .disabled
  | .read r =>
    if s.reader = some .round ∧ r.Answers MAX_PACKET_SIZE s.kernel then
      let (data, actuallyRead) := Socket.read (List.replicate MAX_PACKET_SIZE 0) r
      if 0 < actuallyRead then
        .ok { s with
          kernel := s.kernel.drop r.ret.toNat
          counters := s.counters.notifyIngress actuallyRead
          reader := some (.received data) }
      -- nothing is left, the end of the stream, or an error
      else .ok { s with reader := none }
    else .error .disabled
  | .received =>
    match s.reader with
    | some (.received data) => do
      let stream ← s.stream.step (.queueWrite data)
      .ok { s with stream, reader := some .round }
    | _ => .error .disabled
  | .handleWrite start ws => do
    let stream ← s.stream.step (.handleWrite start ws)
    .ok { s with stream, counters := s.counters.notifyWrites ws }
  | .disconnect => do
    let stream ← s.stream.step .disconnect
    .ok { s with stream }

/-- The step makes a write that neither succeeds nor would block. -/
def Fails : EchoStep → Prop
  | .handleWrite _ ws => ∃ w ∈ ws, w.actuallySent = -2
  | _ => False

/-- The chunk that was read and not passed to `received` yet -/
def chunk (s : EchoServer) : Bytes :=
  match s.reader with
  | some (.received data) => data
  | _ => []

end EchoServer

/-! ## One Read -/

theorem convertFromStdError_pos {ret : ℤ} {errno : Errno}
    (h : 0 < convertFromStdError ret errno) : convertFromStdError ret errno = ret ∧ 0 < ret := by
  unfold convertFromStdError at h ⊢
  split at h
  · rename_i hret
    rw [if_pos hret]
    exact ⟨rfl, h⟩
  · split at h <;> omega

/-- **`Socket::read`**: a positive result is the number of bytes that were read, and they are what
is left of the buffer. -/
theorem Socket.read_of_pos {size : ℕ} {kernel : Bytes} {r : ReadResult}
    (hanswers : r.Answers size kernel)
    (hpos : 0 < (Socket.read (List.replicate size 0) r).2) :
    (Socket.read (List.replicate size 0) r).2 = r.ret ∧ 0 < r.ret ∧
      (Socket.read (List.replicate size 0) r).1 = kernel.take r.ret.toNat := by
  obtain ⟨hsize, hkernel, -, hbytes⟩ := hanswers
  obtain ⟨hret, hread⟩ := convertFromStdError_pos hpos
  have hlength : r.bytes.length = r.ret.toNat := by
    rw [hbytes, List.length_take]
    omega
  refine ⟨hret, hread, ?_⟩
  simp only [Socket.read]
  split
  · rw [← hlength, List.take_left, hlength, hbytes]
  -- the buffer is full
  · rename_i hfull
    have hall : size ≤ r.bytes.length := by
      simp only [List.length_append, List.length_drop, List.length_replicate, hlength] at hfull ⊢
      omega
    rw [List.drop_eq_nil_of_le (by simpa using hall), List.append_nil, hbytes]

/-! ## What `handleWrite` Reports -/

theorem Counters.notifyIngress_egress (c : Counters) (count : ℤ) :
    (c.notifyIngress count).egress = c.egress := by
  unfold notifyIngress
  split <;> rfl

theorem Counters.notifyWrites_eq (c : Counters) (ws : List WriteCall) :
    c.notifyWrites ws = { c with egress := c.egress + (ws.map TcpStream.sentBy).sum } := by
  induction ws generalizing c with
  | nil => simp [notifyWrites]
  | cons w ws ih =>
    have hfirst : (if 0 ≤ w.actuallySent then c.notifyEgress w.actuallySent else c) =
        { c with egress := c.egress + TcpStream.sentBy w } := by
      unfold notifyEgress TcpStream.sentBy
      split
      · split
        · rw [Int.toNat_of_nonneg (by omega)]
        · rw [show w.actuallySent.toNat = 0 by omega]
          simp
      · rw [show w.actuallySent.toNat = 0 by omega]
        simp
    have hrest := ih { c with egress := c.egress + TcpStream.sentBy w }
    rw [notifyWrites] at hrest ⊢
    rw [List.foldl_cons, hfirst, hrest, List.map_cons, List.sum_cons]
    simp [add_assoc]

/-! ## What a Step Does -/

namespace EchoServer

variable {s s' : EchoServer} {l : EchoStep} {ls : List EchoStep}

/-- From the peer to the write queue -/
def channel (s : EchoServer) : Channel UInt8 where
  accepted := s.sent
  inside := s.chunk ++ s.kernel
  delivered := s.stream.queued

/-- What is read goes to `received` before anything else is read, and is counted. -/
structure Echoes (s : EchoServer) : Prop where
  sound : s.channel.Sound
  chunk : s.chunk.length ≤ MAX_PACKET_SIZE
  ingress : s.counters.ingress = s.stream.queued.length + s.chunk.length
  egress : s.counters.egress = s.stream.wire.length

theorem echoes_init : Echoes init := ⟨rfl, Nat.zero_le _, rfl, rfl⟩

/-- **Step** -/
theorem echoes_step (h : Echoes s) (hstep : s.step l = .ok s') : Echoes s' := by
  cases l with
  | arrive x =>
    cases hstep
    have hchannel : s.channel.Step x [] { s with
        kernel := s.kernel ++ x, sent := s.sent ++ x }.channel :=
      ⟨rfl, (List.append_nil _).symm, by simp [channel, chunk]⟩
    exact ⟨h.sound.step hchannel, h.chunk, h.ingress, h.egress⟩
  | handleRead =>
    simp only [step] at hstep
    split at hstep <;> cases hstep
    rename_i hfree
    have hchunk : s.chunk = [] := by rw [chunk, hfree]
    have hchannel : s.channel = { s with reader := some .round }.channel := by
      simp only [channel, hchunk]
      rfl
    refine ⟨hchannel ▸ h.sound, Nat.zero_le _, ?_, h.egress⟩
    have hingress := h.ingress
    rw [hchunk] at hingress
    exact hingress
  | read r =>
    simp only [step] at hstep
    split at hstep
    · rename_i hready
      obtain ⟨hround, hanswers⟩ := hready
      have hchunk : s.chunk = [] := by rw [chunk, hround]
      have hsound := h.sound
      have hingress := h.ingress
      rw [Channel.Sound, channel, hchunk] at hsound
      rw [hchunk, List.length_nil] at hingress
      split at hstep <;> cases hstep
      · rename_i hpos
        obtain ⟨hread, hret, hdata⟩ := Socket.read_of_pos hanswers hpos
        have hlength : (s.kernel.take r.ret.toNat).length = r.ret.toNat := by
          rw [List.length_take]
          have := hanswers.2.1
          omega
        refine ⟨?_, ?_, ?_, (s.counters.notifyIngress_egress _).trans h.egress⟩
        · simp only [Channel.Sound, channel, chunk, hdata, List.take_append_drop]
          exact hsound
        · simp only [chunk, hdata, hlength]
          have := hanswers.1
          omega
        · simp only [chunk, hdata, hlength, Counters.notifyIngress, hread, if_pos hret, hingress]
          omega
      · exact ⟨hsound, Nat.zero_le _, hingress, h.egress⟩
    · cases hstep
  | received =>
    simp only [step] at hstep
    split at hstep
    · rename_i data hreader
      cases hstep
      have hchunk : s.chunk = data := by rw [chunk, hreader]
      have hchannel : s.channel.Step [] data { s with
          stream := { s.stream with
            stream := (s.stream.stream.queueWrite data).1
            queued := s.stream.queued ++ data }
          reader := some .round }.channel :=
        ⟨(List.append_nil _).symm, rfl, by simp [channel, chunk, hreader]⟩
      refine ⟨h.sound.step hchannel, Nat.zero_le _, ?_, h.egress⟩
      have hingress := h.ingress
      rw [hchunk] at hingress
      simp only [chunk, List.length_append, List.length_nil, hingress]
      push_cast
      omega
    · cases hstep
  | handleWrite start ws =>
    obtain ⟨stream, hstream, hs'⟩ := bind_eq_ok_iff.mp hstep
    cases hs'
    obtain ⟨p, hp, hstream'⟩ := bind_eq_ok_iff.mp hstream
    cases hstream'
    have hwire := TcpStream.handleWrite_wire_length hp
    refine ⟨h.sound, h.chunk, ?_, ?_⟩
    · rw [Counters.notifyWrites_eq]
      exact h.ingress
    · simp only [Counters.notifyWrites_eq, h.egress, List.length_append, hwire]
      push_cast
      rfl
  | disconnect =>
    cases hstep
    exact ⟨h.sound, h.chunk, h.ingress, h.egress⟩

/-- Without a failed write the stream loses nothing. -/
def Conserves (s : EchoServer) : Prop :=
  TcpStream.NonEmptyChunks s.stream.stream.writeQueue ∧ s.stream.Conserved

theorem conserves_init : Conserves init := ⟨fun chunk hc => (by cases hc), rfl⟩

theorem conserves_step (h : Conserves s) (hfails : ¬ Fails l) (hstep : s.step l = .ok s') :
    Conserves s' := by
  cases l with
  | arrive x =>
    cases hstep
    exact h
  | handleRead =>
    simp only [step] at hstep
    split at hstep <;> cases hstep
    exact h
  | read r =>
    simp only [step] at hstep
    split at hstep
    · split at hstep <;> cases hstep <;> exact h
    · cases hstep
  | received =>
    simp only [step] at hstep
    split at hstep
    · obtain ⟨stream, hm, hs'⟩ := bind_eq_ok_iff.mp hstep
      cases hs'
      exact Sending.conserved_step h hm fun hf => hf
    · cases hstep
  | handleWrite start ws =>
    obtain ⟨stream, hm, hs'⟩ := bind_eq_ok_iff.mp hstep
    cases hs'
    exact Sending.conserved_step h hm hfails
  | disconnect =>
    obtain ⟨stream, hm, hs'⟩ := bind_eq_ok_iff.mp hstep
    cases hs'
    exact Sending.conserved_step h hm fun hf => hf

/-- **Run**: however the workers take turns, what was read and what was written add up to the
counters, and as long as no write has failed, the peer has got back the first of the bytes that it
has sent, and the others are on their way in order. -/
theorem echoed_of_run (hrun : runFrom step init ls = .ok s) :
    s.counters.ingress + s.kernel.length = s.sent.length ∧
      s.counters.egress = s.stream.wire.length ∧
      ((∀ l ∈ ls, ¬ Fails l) →
        s.stream.wire ++ (s.stream.stream.writeQueue.flatten ++ (s.chunk ++ s.kernel)) =
          s.sent) := by
  have h := runFrom_invariant Echoes echoes_step echoes_init hrun
  have hsound : s.stream.queued ++ (s.chunk ++ s.kernel) = s.sent := h.sound
  refine ⟨?_, h.egress, fun hfails => ?_⟩
  · rw [h.ingress, ← hsound]
    simp only [List.length_append]
    push_cast
    omega
  · have hconserves : Conserves s := AllSteps.invariant Conserves
      (fun h hC hstep => conserves_step h hC hstep) conserves_init
      (AllSteps.of_forall_mem (P := fun l => ¬ Fails l) hfails) hrun
    have hstream : s.stream.channel.Sound := hconserves.2
    exact h.sound.series hstream rfl

/-- Two workers: one reads while the other writes, and a write is partial. -/
theorem echoed_two_workers : ∃ s,
    runFrom step init [.arrive [1, 2, 3], .handleRead, .read ⟨3, .other 0, [1, 2, 3]⟩, .received,
      .arrive [4], .handleWrite 0 [⟨2, .other 0, 1000000⟩, ⟨-1, .EAGAIN, 1000001⟩],
      .read ⟨1, .other 0, [4]⟩] = .ok s ∧
    s.stream.wire = [1, 2] ∧ s.counters.ingress + s.kernel.length = s.sent.length := by
  obtain ⟨s, hrun, hwire⟩ : ∃ s,
      runFrom step init [.arrive [1, 2, 3], .handleRead, .read ⟨3, .other 0, [1, 2, 3]⟩, .received,
        .arrive [4], .handleWrite 0 [⟨2, .other 0, 1000000⟩, ⟨-1, .EAGAIN, 1000001⟩],
        .read ⟨1, .other 0, [4]⟩] = .ok s ∧ s.stream.wire = [1, 2] := by
    decide +kernel
  exact ⟨s, hrun, hwire, (echoed_of_run hrun).1⟩

end EchoServer

end Epoller
