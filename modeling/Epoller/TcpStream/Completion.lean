import Epoller.TcpStream.Conservation
import Epoller.TcpStream.WakeUp

/-!
# Write Completions

`handleWrite` schedules the callback `writeComplete` when it has emptied the write
queue, and also the first time it runs on a connected stream, whatever is left in
the queue then. A scheduled callback runs at any later time.

## Contents

- `Notifying`: a stream with the callbacks that are scheduled
- `runWriteComplete_of_drained`, `cause_of_runWriteComplete`: when one is scheduled
- `Notifying.Sends`: what `handleWrite` does to the bytes and the callbacks
- `Notifying.Conserves`: what is queued is accepted in order
-/

namespace Epoller

open Foundation

namespace TcpStream

variable {s : TcpStream} {start : TimePointNs} {ws : List WriteCall} {p p' : Progress}

/-! ## When a Callback Is Scheduled -/

/-- One round of the loop only sets timers. -/
theorem writeOnce_calls (start : TimePointNs) (w : WriteCall) (data : Bytes) (rest : List Bytes)
    (h : EngineCall.runWriteComplete ∉ p.calls) :
    EngineCall.runWriteComplete ∉ (writeOnce start w data rest p).1.calls ∧
      (writeOnce start w data rest p).1.stream.once = p.stream.once := by
  unfold writeOnce
  split
  · simp only
    split <;> exact ⟨by simpa using h, rfl⟩
  · split <;> exact ⟨h, rfl⟩

theorem writeLoop_calls (h : EngineCall.runWriteComplete ∉ p.calls)
    (hloop : writeLoop start ws p = .ok p') :
    EngineCall.runWriteComplete ∉ p'.calls ∧ p'.stream.once = p.stream.once := by
  -- on the answers: no round touches `once`, and none schedules a callback
  induction ws generalizing p with
  | nil =>
    obtain ⟨-, rfl⟩ := writeLoop_nil hloop
    exact ⟨h, rfl⟩
  | cons w ws ih =>
    obtain ⟨data, rest, -, -, hloop⟩ := writeLoop_cons hloop
    obtain ⟨hcalls, honce⟩ := writeOnce_calls start w data rest h
    rcases hloop with ⟨p₁, hround, hloop⟩ | ⟨hround, -⟩
    · rw [hround] at hcalls honce
      obtain ⟨hcalls', honce'⟩ := ih hcalls hloop
      exact ⟨hcalls', honce'.trans honce⟩
    · rw [hround] at hcalls honce
      exact ⟨hcalls, honce⟩

/-- A queue that is emptied schedules a callback. -/
theorem runWriteComplete_of_drained (h : s.handleWrite start ws = .ok p)
    (hqueue : s.writeQueue ≠ []) (hdrained : p.stream.writeQueue = []) :
    EngineCall.runWriteComplete ∈ p.calls := by
  simp only [handleWrite] at h
  split at h
  · obtain ⟨p₁, -, h⟩ := bind_eq_ok_iff.mp h
    split at h
    · cases h
      exact List.mem_append_right _ (List.mem_singleton_self _)
    -- it is scheduled whenever the loop has emptied a queue that was not empty
    · rename_i hnot
      cases h
      exact absurd (.inr ⟨hqueue, hdrained⟩) hnot
  · split at h
    · cases h
      exact absurd hdrained hqueue
    · cases h

/-- A call schedules one callback at most. -/
theorem count_runWriteComplete_le (h : s.handleWrite start ws = .ok p) :
    p.calls.count .runWriteComplete ≤ 1 := by
  simp only [handleWrite] at h
  split at h
  · obtain ⟨p₁, hloop, h⟩ := bind_eq_ok_iff.mp h
    have hloopCalls : p₁.calls.count .runWriteComplete = 0 :=
      List.count_eq_zero.mpr (writeLoop_calls (by simp) hloop).1
    split at h <;> cases h
    · rw [List.count_append, hloopCalls]
      decide
    · omega
  · split at h
    · split at h <;> cases h <;> simp
    · cases h

/-- A callback is scheduled for a queue that is emptied, and by the first two calls: the one that
connects the stream, if there is nothing to write, and the one behind it. -/
theorem cause_of_runWriteComplete (h : s.handleWrite start ws = .ok p)
    (hcall : EngineCall.runWriteComplete ∈ p.calls) :
    (s.writeQueue ≠ [] ∧ p.stream.writeQueue = []) ∨
      (s.connected = false ∧ s.writeQueue = []) ∨ (s.connected = true ∧ s.once = false) := by
  simp only [handleWrite] at h
  split at h
  · rename_i hconnected
    obtain ⟨p₁, hloop, h⟩ := bind_eq_ok_iff.mp h
    obtain ⟨hcalls, honce⟩ := writeLoop_calls (by simp) hloop
    split at h
    · rename_i hschedules
      cases h
      rcases hschedules with hfirst | hdrained
      · exact .inr (.inr ⟨hconnected, honce ▸ hfirst⟩)
      · exact .inl hdrained
    · cases h
      exact absurd hcall hcalls
  · rename_i hconnecting
    split at h
    · split at h
      -- a stream that connects with data in its queue triggers a write instead
      · cases h
        simp at hcall
      · rename_i hqueue
        cases h
        exact .inr (.inl ⟨Bool.eq_false_iff.mpr hconnecting, not_not.mp hqueue⟩)
    · cases h

end TcpStream

/-! ## Streams with Callbacks -/

/-- A stream with the bytes passed to `queueWrite` and accepted by the kernel, and the number of
`writeComplete` callbacks that are scheduled. -/
structure Notifying where
  sending : Sending
  pending : ℕ
deriving DecidableEq, Repr

namespace Notifying

abbrev stream (s : Notifying) : TcpStream := s.sending.stream

abbrev writeQueue (s : Notifying) : List Bytes := s.sending.stream.writeQueue

/-- `TcpStream::handleWrite` -/
def handleWrite (s : Notifying) (start : TimePointNs) (ws : List WriteCall) :
    Except StreamHalt Notifying := do
  let p ← s.stream.handleWrite start ws
  .ok ⟨{ s.sending with stream := p.stream, wire := s.sending.wire ++ p.wire },
    s.pending + p.calls.count .runWriteComplete⟩

/-- `TcpStream::queueWrite` -/
def queueWrite (s : Notifying) (data : Bytes) : Notifying :=
  { s with sending := { s.sending with
      stream := (s.stream.queueWrite data).1
      queued := s.sending.queued ++ data } }

/-- `TcpStream::disconnect` -/
def disconnect (s : Notifying) : Notifying :=
  { s with sending := { s.sending with stream := { s.stream with disconnecting := true } } }

/-- If the kernel answers with `ws`, it has accepted `before` bytes behind the call. -/
def Accepts (s : Notifying) (start : TimePointNs) (ws : List WriteCall) (before : ℕ) : Prop :=
  ∀ s', s.handleWrite start ws = .ok s' → before ≤ s'.sending.wire.length

instance (s : Notifying) (start : TimePointNs) (ws : List WriteCall) (before : ℕ) :
    Decidable (Accepts s start ws before) :=
  match h : s.handleWrite start ws with
  | .ok s' => decidable_of_iff (before ≤ s'.sending.wire.length)
      ⟨fun hle t ht => by cases h.symm.trans ht; exact hle, fun hall => hall s' h⟩
  | .error _ => .isTrue fun t ht => by cases h.symm.trans ht

/-- What is queued is accepted in order, and nothing is lost. -/
structure Conserves (s : Notifying) : Prop where
  chunks : TcpStream.NonEmptyChunks s.writeQueue
  content : s.sending.Conserved

variable {s s' : Notifying} {start : TimePointNs} {ws : List WriteCall} {data : Bytes}

/-- What `handleWrite` does to the bytes, and when it schedules a callback. -/
structure Sends (s s' : Notifying) : Prop where
  queued : s'.sending.queued = s.sending.queued
  wire : s.sending.wire <+: s'.sending.wire
  disconnecting : s'.stream.disconnecting = s.stream.disconnecting
  pending : s'.pending = s.pending ∨ s'.pending = s.pending + 1
  /-- A queue that is emptied schedules a callback. -/
  schedules : s.writeQueue ≠ [] → s'.writeQueue = [] → s.pending < s'.pending
  /-- So do the first two calls, whatever they leave in the queue. -/
  cause : s.pending < s'.pending → (s.writeQueue ≠ [] ∧ s'.writeQueue = []) ∨
    (s.stream.connected = false ∧ s.writeQueue = []) ∨
      (s.stream.connected = true ∧ s.stream.once = false)

theorem sends_of_handleWrite (h : s.handleWrite start ws = .ok s') : Sends s s' := by
  obtain ⟨p, hp, hs'⟩ := bind_eq_ok_iff.mp h
  cases hs'
  constructor
  case queued => rfl
  case wire => exact List.prefix_append _ _
  case disconnecting => exact (TcpStream.handleWrite_link hp).2.1
  case pending =>
    have hle := TcpStream.count_runWriteComplete_le hp
    simp only
    omega
  case schedules =>
    intro hqueue hdrained
    have hcall := TcpStream.runWriteComplete_of_drained hp hqueue hdrained
    exact Nat.lt_add_of_pos_right (List.count_pos_iff.mpr hcall)
  case cause =>
    intro hpending
    exact TcpStream.cause_of_runWriteComplete hp
      (List.count_pos_iff.mp (Nat.pos_of_lt_add_right hpending))

theorem Conserves.handleWrite (h : Conserves s) (hstep : s.handleWrite start ws = .ok s')
    (hsucceeds : ∀ w ∈ ws, w.actuallySent ≠ -2) : Conserves s' := by
  obtain ⟨p, hp, hs'⟩ := bind_eq_ok_iff.mp hstep
  cases hs'
  obtain ⟨hchunks, hkept, -⟩ := TcpStream.handleWrite_content h.chunks hp
  refine ⟨hchunks, ?_⟩
  have hcontent : (s.sending.wire ++ p.wire) ++ p.stream.writeQueue.flatten =
      s.sending.wire ++ p.content := by rw [List.append_assoc, TcpStream.Progress.content]
  rw [Sending.Conserved, Sending.content, hcontent, hkept hsucceeds]
  exact h.content

theorem queueWrite_disconnecting (s : Notifying) (data : Bytes) :
    (s.queueWrite data).stream.disconnecting = s.stream.disconnecting := by
  rcases StreamSystem.queueWrite_cases s.stream data with ⟨heq, -⟩ | ⟨heq, -⟩ | ⟨heq, -⟩ <;>
    simp only [queueWrite, heq]

/-- Data does not leave the queue by `queueWrite`. -/
theorem queueWrite_ne_nil (h : s.writeQueue ≠ []) (data : Bytes) :
    (s.queueWrite data).writeQueue ≠ [] := by
  intro hnil
  have hqueue := TcpStream.queueWrite_writeQueue s.stream data
  rw [show (s.stream.queueWrite data).1.writeQueue = [] from hnil] at hqueue
  split at hqueue
  · exact h hqueue.symm
  · exact List.append_ne_nil_of_right_ne_nil _ (List.cons_ne_nil _ _) hqueue.symm

theorem Conserves.queueWrite (h : Conserves s) (data : Bytes) : Conserves (s.queueWrite data) := by
  have hstep : s.sending.step (.queueWrite data) = .ok (s.queueWrite data).sending := rfl
  obtain ⟨hchunks, new, hqueued, hkept, -⟩ := Sending.content_step h.chunks hstep
  exact ⟨hchunks, by rw [Sending.Conserved, hkept id, hqueued, h.content]⟩

/-- Once as much is accepted as was handed over at some time, it is accepted. -/
theorem Conserves.prefix_wire (h : Conserves s) {before : Bytes}
    (hbefore : before <+: s.sending.queued) (hle : before.length ≤ s.sending.wire.length) :
    before <+: s.sending.wire :=
  List.prefix_of_prefix_length_le hbefore h.content.wire_prefix hle

/-- With nothing in the queue everything is accepted, and only then. -/
theorem Conserves.writeQueue_eq_nil_iff (h : Conserves s) :
    s.writeQueue = [] ↔ s.sending.queued.length ≤ s.sending.wire.length := by
  have hcontent : s.sending.wire ++ s.writeQueue.flatten = s.sending.queued := h.content
  rw [← hcontent, List.length_append]
  constructor
  · intro hnil
    rw [hnil, List.flatten_nil, List.length_nil, Nat.add_zero]
  · intro hle
    -- no chunk is empty, so the queue is empty once it holds no byte
    have hflat : s.writeQueue.flatten = [] := List.eq_nil_of_length_eq_zero (by omega)
    refine List.eq_nil_iff_forall_not_mem.mpr fun chunk hchunk => ?_
    exact h.chunks chunk hchunk (List.flatten_eq_nil_iff.mp hflat chunk hchunk)

/-- With nothing in the queue what was handed over at some time is accepted. -/
theorem Conserves.length_le_wire (h : Conserves s) {before : Bytes}
    (hbefore : before <+: s.sending.queued) (hqueue : s.writeQueue = []) :
    before.length ≤ s.sending.wire.length :=
  hbefore.length_le.trans (h.writeQueue_eq_nil_iff.mp hqueue)

/-- A call that has nothing to write leaves nothing to write. -/
theorem Sends.writeQueue_eq_nil (h : Sends s s') (hs : Conserves s) (hs' : Conserves s')
    (hqueue : s.writeQueue = []) : s'.writeQueue = [] := by
  rw [hs'.writeQueue_eq_nil_iff, h.queued]
  exact (hs.length_le_wire List.prefix_rfl hqueue).trans h.wire.length_le

end Notifying

end Epoller
