import Epoller.Types

/-!
# The TCP Stream

`TcpStream` of `tcpstream.cpp` with `Socket::write` of `socket.cpp`. Each member
function runs under `writeLock`. Answers of the kernel and readings of the clock
are arguments; calls into the engine are returned in the order they are made.

- `convertFromStdError`, `WriteCall`: one `write` of the socket
- `TcpStream`: the write queue and the flags
- `writeOnce`, `writeLoop`, `handleWrite`: sending
- `waitingOutEvent`, `queueWrite`: the other users of the flags
-/

namespace Epoller

/-! ## Writing to the Socket -/

/-- The error numbers that `convertFromStdError` tells apart. -/
inductive Errno where
  | EINTR
  | EAGAIN
  | EWOULDBLOCK
  | EINPROGRESS
  | other (code : ℕ)
deriving DecidableEq, Repr

/-- `Socket::convertFromStdError` -/
def convertFromStdError (error : ℤ) (errno : Errno) : ℤ :=
  if 0 ≤ error then error
  else if error = -1 ∧
      (errno = .EINTR ∨ errno = .EAGAIN ∨ errno = .EWOULDBLOCK ∨ errno = .EINPROGRESS) then -1
  else -2

/-- One call of `::write`: what it returned, the error number, and the reading of the clock after
it. -/
structure WriteCall where
  ret : ℤ
  errno : Errno
  sentAt : TimePointNs
deriving DecidableEq, Repr

/-- `Socket::write` -/
def WriteCall.actuallySent (w : WriteCall) : ℤ := convertFromStdError w.ret w.errno

theorem convertFromStdError_cases (error : ℤ) (errno : Errno) :
    0 ≤ convertFromStdError error errno ∨ convertFromStdError error errno = -1 ∨
      convertFromStdError error errno = -2 := by
  unfold convertFromStdError
  split
  · exact Or.inl ‹_›
  · split
    · exact Or.inr (Or.inl rfl)
    · exact Or.inr (Or.inr rfl)

/-! ## The Stream -/

/-- `TcpStream`: the members that the functions below read and write -/
structure TcpStream where
  writeQueue : List Bytes
  blocked : Bool
  once : Bool
  writeTriggered : Bool
  connected : Bool
  disconnecting : Bool
  egressRate : ℕ
deriving DecidableEq, Repr

/-- A call into the engine. -/
inductive EngineCall where
  /-- `setTimer(activity, inactivityTimeout)` -/
  | setActivity
  /-- `setTimer(egress, delay)` -/
  | setEgress (delay : NanoSecs)
  /-- `triggerWrites(this)` -/
  | triggerWrites
  /-- `runAsync(notifyWriteComplete)` -/
  | runWriteComplete
deriving DecidableEq, Repr

/-- Why a step is refused. -/
inductive StreamHalt where
  /-- "Cannot run without being triggered" -/
  | notTriggered
  /-- "Not found for removal" -/
  | notFoundForRemoval
  /-- The step is not possible now. -/
  | disabled
deriving DecidableEq, Repr

namespace TcpStream

/-- The rate that `create` gives an accepted stream. -/
def ACCEPTED_EGRESS_RATE : ℕ := 4096 * 1024

/-- The stream as its constructor leaves it. -/
def fresh : TcpStream where
  writeQueue := []
  blocked := false
  once := false
  writeTriggered := false
  connected := false
  disconnecting := false
  egressRate := 0

/-- The loop of `handleWrite` in progress: `wire` are the bytes the kernel has accepted. -/
structure Progress where
  stream : TcpStream
  totalWritten : ℕ
  wire : Bytes
  calls : List EngineCall
deriving DecidableEq, Repr

/-- The rate `handleWrite` compares with `egressRate`, in 64-bit unsigned arithmetic. -/
def currentRate (totalWritten : ℕ) (start sentAt : TimePointNs) : ℕ :=
  let elapsedNs := ((sentAt - start) % 2 ^ 64).toNat
  let elapsedNs := if elapsedNs ≤ 0 then 1 else elapsedNs
  totalWritten * ONE_SEC_IN_NS % 2 ^ 64 / elapsedNs

/-- The delay that `handleWrite` asks of the egress timer. -/
def nextWriteAt (egressRate : ℕ) : ℕ := MAX_PACKET_SIZE * ONE_SEC_IN_NS / egressRate

/-- One round of the loop on the popped chunk `data`, with `rest` left in the queue; the second
component says whether the loop goes on. -/
def writeOnce (start : TimePointNs) (w : WriteCall) (data : Bytes) (rest : List Bytes)
    (p : Progress) : Progress × Bool :=
  if 0 ≤ w.actuallySent then
    let sent := w.actuallySent.toNat
    let writeQueue := if sent ≠ data.length then data.drop sent :: rest else rest
    let p : Progress :=
      { stream := { p.stream with writeQueue }
        totalWritten := p.totalWritten + sent
        wire := p.wire ++ data.take sent
        calls := p.calls ++ [.setActivity] }
    if p.stream.egressRate ≠ 0 ∧
        p.stream.egressRate < currentRate p.totalWritten start w.sentAt then
      ({ p with
        stream := { p.stream with writeTriggered := true, blocked := true }
        calls := p.calls ++ [.setEgress (nextWriteAt p.stream.egressRate)] }, false)
    else (p, true)
  else if w.actuallySent = -1 then
    ({ p with stream := { p.stream with writeQueue := data :: rest, blocked := true } }, false)
  else
    -- the chunk was popped and is not put back
    ({ p with stream := { p.stream with writeQueue := rest } }, false)

/-- The loop of `handleWrite`, answered by the calls `ws` of `::write`: one for each round, none of
which accepts more than it was given. -/
def writeLoop (start : TimePointNs) : List WriteCall → Progress → Except StreamHalt Progress
  | [], p => if p.stream.writeQueue = [] then .ok p else .error .disabled
  | w :: ws, p =>
    match p.stream.writeQueue with
    | [] => .error .disabled
    | data :: rest =>
      if w.actuallySent ≤ data.length then
        match writeOnce start w data rest p with
        | (p', true) => writeLoop start ws p'
        | (p', false) => if ws = [] then .ok p' else .error .disabled
      else .error .disabled

theorem writeLoop_nil {start : TimePointNs} {p p' : Progress}
    (h : writeLoop start [] p = .ok p') : p.stream.writeQueue = [] ∧ p' = p := by
  simp only [writeLoop] at h
  split at h
  · rename_i hqueue
    cases h
    exact ⟨hqueue, rfl⟩
  · cases h

/-- The first round of the loop either goes on or is the only one. -/
theorem writeLoop_cons {start : TimePointNs} {w : WriteCall} {ws : List WriteCall}
    {p p' : Progress} (h : writeLoop start (w :: ws) p = .ok p') :
    ∃ data rest, p.stream.writeQueue = data :: rest ∧ w.actuallySent ≤ data.length ∧
      ((∃ p₁, writeOnce start w data rest p = (p₁, true) ∧ writeLoop start ws p₁ = .ok p') ∨
        (writeOnce start w data rest p = (p', false) ∧ ws = [])) := by
  cases hqueue : p.stream.writeQueue with
  | nil => simp [writeLoop, hqueue] at h
  | cons data rest =>
    simp only [writeLoop, hqueue] at h
    split at h
    · rename_i hle
      refine ⟨data, rest, rfl, hle, ?_⟩
      split at h
      · rename_i p₁ hround
        exact Or.inl ⟨p₁, hround, h⟩
      · rename_i p₁ hround
        split at h <;> cases h
        rename_i hlast
        exact Or.inr ⟨hround, hlast⟩
    · cases h

/-- `handleWrite`; `start` is its first reading of the clock. -/
def handleWrite (s : TcpStream) (start : TimePointNs) (ws : List WriteCall) :
    Except StreamHalt Progress :=
  let s := { s with writeTriggered := false, blocked := false }
  if s.connected = true then do
    let wasEmpty := s.writeQueue = []
    let p ← writeLoop start ws ⟨s, 0, [], []⟩
    let isEmpty := p.stream.writeQueue = []
    if p.stream.once = false ∨ (¬ wasEmpty ∧ isEmpty) then
      .ok { p with
        stream := { p.stream with once := true }
        calls := p.calls ++ [.runWriteComplete] }
    else .ok p
  -- the first event of a stream that was connecting: it only changes the flags
  else if ws = [] then
    let s := { s with connected := true }
    if s.writeQueue ≠ [] then
      .ok ⟨{ s with writeTriggered := true }, 0, [], [.setActivity, .triggerWrites]⟩
    else .ok ⟨s, 0, [], [.setActivity, .runWriteComplete]⟩
  else .error .disabled

/-- `waitingOutEvent` -/
def waitingOutEvent (s : TcpStream) : Bool :=
  (s.blocked || !s.once || !s.connected) && !s.disconnecting &&
    (!s.connected || s.egressRate == 0)

/-- `queueWrite` -/
def queueWrite (s : TcpStream) (data : Bytes) : TcpStream × List EngineCall :=
  if data = [] then (s, [])
  else
    let s := { s with writeQueue := s.writeQueue ++ [data] }
    if s.connected = true ∧ s.blocked = false ∧ s.writeTriggered = false then
      ({ s with writeTriggered := true }, [.triggerWrites])
    else (s, [])

end TcpStream

end Epoller
