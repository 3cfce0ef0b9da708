import Epoller.TcpStream
import Epoller.Foundation.Runs
import Epoller.Foundation.Channel

/-!
# Nothing Is Lost on the Way to the Kernel

The bytes the kernel has accepted, followed by the write queue, are the bytes
that were queued. A write that would block puts its chunk back and a partial
write puts back the rest; a write that fails in any other way has popped its
chunk and puts nothing back.

## Contents

- `Sending`, `Sending.step`: a stream with what was queued and what was accepted
- `writeOnce_content`, `writeLoop_content`: one round, and the loop
- `handleWrite_wire_length`: how many bytes are put on the wire
- `conserved_iff_no_failure`: when nothing is lost
-/

namespace Epoller

open Foundation

namespace TcpStream

/-! ## The Loop -/

/-- What the kernel has accepted in this loop, and then the queue. -/
def Progress.content (p : Progress) : Bytes := p.wire ++ p.stream.writeQueue.flatten

/-- The queue holds no empty chunk. -/
def NonEmptyChunks (queue : List Bytes) : Prop := ∀ chunk ∈ queue, chunk ≠ []

variable {start : TimePointNs} {w : WriteCall} {ws : List WriteCall} {data : Bytes}
  {rest : List Bytes} {p p' : Progress}

/-- A partial write leaves the unsent bytes at the front of the queue. -/
theorem take_append_flatten_drop (sent : ℕ) (data : Bytes) (rest : List Bytes) :
    data.take sent ++ (if sent ≠ data.length then data.drop sent :: rest else rest).flatten =
      (data :: rest).flatten := by
  split
  · rw [List.flatten_cons, List.flatten_cons, ← List.append_assoc, List.take_append_drop]
  · rename_i hall
    rw [not_not.mp hall, List.take_length, List.flatten_cons]

theorem nonEmptyChunks_drop (sent : ℕ) (hsent : sent ≤ data.length)
    (h : NonEmptyChunks (data :: rest)) :
    NonEmptyChunks (if sent ≠ data.length then data.drop sent :: rest else rest) := by
  have hrest : NonEmptyChunks rest := fun chunk hc => h chunk (List.mem_cons_of_mem _ hc)
  split
  · rename_i hpart
    intro chunk hc
    rcases List.mem_cons.mp hc with rfl | hc
    · rw [Ne, List.drop_eq_nil_iff]
      omega
    · exact hrest chunk hc
  · exact hrest

/-- **One round of the loop**: a write that is accepted or would block keeps the content, any other
write loses the popped chunk; no empty chunk is left behind. -/
theorem writeOnce_content (start : TimePointNs) (hle : w.actuallySent ≤ data.length)
    (hqueue : p.stream.writeQueue = data :: rest) (hchunks : NonEmptyChunks (data :: rest)) :
    NonEmptyChunks (writeOnce start w data rest p).1.stream.writeQueue ∧
      (w.actuallySent ≠ -2 → (writeOnce start w data rest p).1.content = p.content) ∧
      (w.actuallySent = -2 →
        (writeOnce start w data rest p).1.content.length < p.content.length ∧
          (writeOnce start w data rest p).2 = false) := by
  have hcontent : p.content = p.wire ++ (data :: rest).flatten := by rw [Progress.content, hqueue]
  rw [hcontent]
  unfold writeOnce
  split
  · rename_i hsent
    -- accepted: the remainder goes back to the front
    have hchunks' := nonEmptyChunks_drop w.actuallySent.toNat (by omega) hchunks
    have hkept : (p.wire ++ data.take w.actuallySent.toNat) ++
        (if w.actuallySent.toNat ≠ data.length then data.drop w.actuallySent.toNat :: rest
          else rest).flatten = p.wire ++ (data :: rest).flatten := by
      rw [List.append_assoc, take_append_flatten_drop]
    simp only
    split <;> exact ⟨hchunks', fun _ => hkept, fun herror => by omega⟩
  · split
    -- would block: the whole chunk goes back
    · rename_i hblock
      exact ⟨hchunks, fun _ => rfl, fun herror => by omega⟩
    -- failed: the chunk is gone, and it was not empty
    · rename_i hneg hnblock
      refine ⟨fun chunk hc => hchunks chunk (List.mem_cons_of_mem _ hc), fun hne => ?_,
        fun _ => ⟨?_, rfl⟩⟩
      · rcases convertFromStdError_cases w.ret w.errno with hok | hblock | herror
        · exact absurd hok hneg
        · exact absurd hblock hnblock
        · exact absurd herror hne
      · have hpos := List.length_pos_iff.mpr (hchunks data (List.mem_cons_self ..))
        simp only [Progress.content, List.length_append, List.flatten_cons]
        omega

/-- **The loop**: without a failed write the content is kept, with one it gets shorter. -/
theorem writeLoop_content (hchunks : NonEmptyChunks p.stream.writeQueue)
    (h : writeLoop start ws p = .ok p') :
    NonEmptyChunks p'.stream.writeQueue ∧
      ((∀ w ∈ ws, w.actuallySent ≠ -2) → p'.content = p.content) ∧
      ((∃ w ∈ ws, w.actuallySent = -2) → p'.content.length < p.content.length) := by
  -- one answer of the kernel for each round
  induction ws generalizing p with
  | nil =>
    obtain ⟨-, rfl⟩ := writeLoop_nil h
    exact ⟨hchunks, fun _ => rfl, fun ⟨w, hw, _⟩ => (by cases hw)⟩
  | cons w ws ih =>
    obtain ⟨data, rest, hqueue, hle, hloop⟩ := writeLoop_cons h
    obtain ⟨hchunks', hkept, hlost⟩ := writeOnce_content start hle hqueue (hqueue ▸ hchunks)
    rcases hloop with ⟨p₁, hround, hloop⟩ | ⟨hround, rfl⟩
    · rw [hround] at hchunks' hkept hlost
      obtain ⟨hchunks'', hkept', hlost'⟩ := ih hchunks' hloop
      -- the loop went on, so this write did not fail
      have hgoes : w.actuallySent ≠ -2 := fun herror => by simpa using (hlost herror).2
      refine ⟨hchunks'', fun hall => ?_, fun hex => ?_⟩
      · rw [hkept' fun w' hw' => hall w' (List.mem_cons_of_mem _ hw'), hkept hgoes]
      · obtain ⟨w', hw', herror⟩ := hex
        rcases List.mem_cons.mp hw' with rfl | hw'
        · exact absurd herror hgoes
        · rw [← hkept hgoes]
          exact hlost' ⟨w', hw', herror⟩
    · rw [hround] at hchunks' hkept hlost
      refine ⟨hchunks', fun hall => hkept (hall w (List.mem_cons_self ..)), fun hex => ?_⟩
      obtain ⟨w', hw', herror⟩ := hex
      rw [List.mem_singleton.mp hw'] at herror
      exact (hlost herror).1

/-! ## `handleWrite` -/

/-- **`handleWrite`** keeps the content, or loses bytes of it if a write fails. -/
theorem handleWrite_content {s : TcpStream} (hchunks : NonEmptyChunks s.writeQueue)
    (h : s.handleWrite start ws = .ok p') :
    NonEmptyChunks p'.stream.writeQueue ∧
      ((∀ w ∈ ws, w.actuallySent ≠ -2) → p'.content = s.writeQueue.flatten) ∧
      ((∃ w ∈ ws, w.actuallySent = -2) → p'.content.length < s.writeQueue.flatten.length) := by
  simp only [handleWrite] at h
  split at h
  · obtain ⟨p, hp, h⟩ := bind_eq_ok_iff.mp h
    have hloop := writeLoop_content (p := ⟨{ s with writeTriggered := false, blocked := false },
      0, [], []⟩) hchunks hp
    -- the completion event leaves the queue alone
    split at h <;> cases h <;> exact hloop
  · split at h
    · rename_i hws
      subst hws
      split at h <;> cases h <;> exact ⟨hchunks, fun _ => rfl, fun ⟨w, hw, _⟩ => (by cases hw)⟩
    · cases h

/-! ## What Is Put on the Wire -/

/-- The bytes that a call of `::write` accepts -/
def sentBy (w : WriteCall) : ℕ := w.actuallySent.toNat

theorem writeOnce_wire_length (start : TimePointNs) (rest : List Bytes) (p : Progress)
    (hle : w.actuallySent ≤ data.length) :
    (writeOnce start w data rest p).1.wire.length = p.wire.length + sentBy w := by
  unfold writeOnce sentBy
  split
  · rename_i hsent
    have hlength : (data.take w.actuallySent.toNat).length = w.actuallySent.toNat := by
      rw [List.length_take]
      omega
    simp only
    split <;> simp only [List.length_append, hlength]
  · rename_i hneg
    have hzero : w.actuallySent.toNat = 0 := by omega
    rw [hzero]
    split <;> rfl

/-- **The loop** puts on the wire what its calls of `::write` have accepted. -/
theorem writeLoop_wire_length (h : writeLoop start ws p = .ok p') :
    p'.wire.length = p.wire.length + (ws.map sentBy).sum := by
  induction ws generalizing p with
  | nil =>
    obtain ⟨-, rfl⟩ := writeLoop_nil h
    simp
  | cons w ws ih =>
    obtain ⟨data, rest, -, hle, hloop⟩ := writeLoop_cons h
    have hround := writeOnce_wire_length start rest p hle
    rw [List.map_cons, List.sum_cons]
    rcases hloop with ⟨p₁, hmore, hloop⟩ | ⟨hlast, rfl⟩
    · rw [hmore] at hround
      rw [ih hloop, hround]
      omega
    · rw [hlast] at hround
      simpa using hround

theorem handleWrite_wire_length {s : TcpStream} (h : s.handleWrite start ws = .ok p) :
    p.wire.length = (ws.map sentBy).sum := by
  simp only [handleWrite] at h
  split at h
  · obtain ⟨p₁, hloop, h⟩ := bind_eq_ok_iff.mp h
    have hwire := writeLoop_wire_length hloop
    rw [List.length_nil, Nat.zero_add] at hwire
    split at h <;> cases h <;> exact hwire
  · split at h
    · rename_i hws
      subst hws
      split at h <;> cases h <;> rfl
    · cases h

/-! ## `queueWrite` -/

/-- `queueWrite` appends to the queue. -/
theorem queueWrite_writeQueue (s : TcpStream) (data : Bytes) :
    (s.queueWrite data).1.writeQueue =
      if data = [] then s.writeQueue else s.writeQueue ++ [data] := by
  unfold queueWrite
  split
  · rfl
  · simp only
    split <;> rfl

end TcpStream

/-! ## Runs -/

/-- A stream, everything that was passed to `queueWrite`, and everything the kernel accepted. -/
structure Sending where
  stream : TcpStream
  queued : Bytes
  wire : Bytes
deriving DecidableEq, Repr

inductive SendingStep where
  | queueWrite (data : Bytes)
  | handleWrite (start : TimePointNs) (ws : List WriteCall)
  | disconnect
deriving DecidableEq, Repr

namespace Sending

/-- A stream on which nothing was queued yet. -/
def init (connected : Bool) (egressRate : ℕ) : Sending :=
  ⟨{ TcpStream.fresh with connected, egressRate }, [], []⟩

def step (s : Sending) : SendingStep → Except StreamHalt Sending
  | .queueWrite data =>
    .ok { s with stream := (s.stream.queueWrite data).1, queued := s.queued ++ data }
  | .handleWrite start ws => do
    let p ← s.stream.handleWrite start ws
    .ok { s with stream := p.stream, wire := s.wire ++ p.wire }
  | .disconnect => .ok { s with stream := { s.stream with disconnecting := true } }

/-- What the kernel has accepted, and then the queue. -/
def content (s : Sending) : Bytes := s.wire ++ s.stream.writeQueue.flatten

/-- Nothing is lost, duplicated or reordered. -/
def Conserved (s : Sending) : Prop := s.content = s.queued

/-- The step makes a write that neither succeeds nor would block. -/
def Fails : SendingStep → Prop
  | .handleWrite _ ws => ∃ w ∈ ws, w.actuallySent = -2
  | _ => False

instance (l : SendingStep) : Decidable (Fails l) :=
  match l with
  | .handleWrite _ ws => inferInstanceAs (Decidable (∃ w ∈ ws, w.actuallySent = -2))
  | .queueWrite _ | .disconnect => inferInstanceAs (Decidable False)

variable {s s' : Sending} {l : SendingStep} {ls : List SendingStep}

/-- **Step**: without a failed write the content grows by what was queued, with one it falls
behind. -/
theorem content_step (hchunks : TcpStream.NonEmptyChunks s.stream.writeQueue)
    (hstep : s.step l = .ok s') :
    TcpStream.NonEmptyChunks s'.stream.writeQueue ∧ ∃ new, s'.queued = s.queued ++ new ∧
      (¬ Fails l → s'.content = s.content ++ new) ∧
      (Fails l → s'.content.length < s.content.length + new.length) := by
  cases l with
  | queueWrite data =>
    cases hstep
    have hqueue := s.stream.queueWrite_writeQueue data
    -- an empty string is not queued, and adds nothing to either side
    refine ⟨?_, data, rfl, fun _ => ?_, fun h => h.elim⟩
    · rw [hqueue]
      split
      · exact hchunks
      · rename_i hne
        intro chunk hc
        rcases List.mem_append.mp hc with hc | hc
        · exact hchunks chunk hc
        · exact List.mem_singleton.mp hc ▸ hne
    · simp only [content, hqueue]
      split
      · rename_i hempty
        rw [hempty, List.append_nil]
      · simp
  | handleWrite start ws =>
    obtain ⟨p, hp, hs'⟩ := bind_eq_ok_iff.mp hstep
    cases hs'
    obtain ⟨hchunks', hkept, hlost⟩ := TcpStream.handleWrite_content hchunks hp
    have hcontent : (s.wire ++ p.wire) ++ p.stream.writeQueue.flatten = s.wire ++ p.content := by
      rw [List.append_assoc, TcpStream.Progress.content]
    -- sending moves bytes from the queue to the wire
    refine ⟨hchunks', [], (List.append_nil _).symm, fun hfails => ?_, fun hfails => ?_⟩
    · have hsucceeds : ∀ w ∈ ws, w.actuallySent ≠ -2 := fun w hw herror => hfails ⟨w, hw, herror⟩
      rw [List.append_nil, content, content, hcontent, hkept hsucceeds]
    · have hshort := hlost hfails
      simp only [content, hcontent, List.length_append, List.length_nil]
      omega
  | disconnect =>
    cases hstep
    exact ⟨hchunks, [], (List.append_nil _).symm, fun _ => (List.append_nil _).symm,
      fun h => h.elim⟩

/-- A write that fails is the only way to lose something. -/
theorem conserved_step (h : TcpStream.NonEmptyChunks s.stream.writeQueue ∧ s.Conserved)
    (hstep : s.step l = .ok s') (hfails : ¬ Fails l) :
    TcpStream.NonEmptyChunks s'.stream.writeQueue ∧ s'.Conserved := by
  obtain ⟨hchunks, new, hqueued, hkept, -⟩ := content_step h.1 hstep
  exact ⟨hchunks, by rw [Conserved, hkept hfails, hqueued, h.2]⟩

/-- From `queueWrite` to the wire -/
def channel (s : Sending) : Channel UInt8 where
  accepted := s.queued
  inside := s.stream.writeQueue.flatten
  delivered := s.wire

/-- Along a run without a failed write nothing is lost. -/
theorem conserved_run (hchunks : TcpStream.NonEmptyChunks s.stream.writeQueue)
    (h : Conserved s) (hfails : ∀ l ∈ ls, ¬ Fails l) (hrun : runFrom step s ls = .ok s') :
    Conserved s' := by
  refine (AllSteps.invariant
    (fun x => TcpStream.NonEmptyChunks x.stream.writeQueue ∧ Conserved x)
    (fun hx hC hstep => ?_) ⟨hchunks, h⟩
    (AllSteps.of_forall_mem (P := fun l => ¬ Fails l) hfails) hrun).2
  obtain ⟨hchunks', new, hqueued, hkept, -⟩ := content_step hx.1 hstep
  refine ⟨hchunks', ?_⟩
  rw [Conserved, hkept hC, hqueued, hx.2]

/-- What fell behind stays behind. -/
theorem behind_run (hchunks : TcpStream.NonEmptyChunks s.stream.writeQueue)
    (h : s.content.length < s.queued.length) (hrun : runFrom step s ls = .ok s') :
    s'.content.length < s'.queued.length := by
  refine (runFrom_invariant
    (fun x => TcpStream.NonEmptyChunks x.stream.writeQueue ∧
      x.content.length < x.queued.length)
    (fun {x l x'} hx hstep => ?_) ⟨hchunks, h⟩ hrun).2
  obtain ⟨hchunks', new, hqueued, hkept, hlost⟩ := content_step hx.1 hstep
  refine ⟨hchunks', ?_⟩
  have hbehind := hx.2
  rw [hqueued, List.length_append]
  -- the gap never closes: both sides grow by the same bytes, or the content by fewer
  by_cases hfails : Fails l
  · have := hlost hfails
    omega
  · rw [hkept hfails, List.length_append]
    omega

/-- Along a run with a failed write something is lost. -/
theorem behind_of_failure (hchunks : TcpStream.NonEmptyChunks s.stream.writeQueue)
    (h : s.content.length ≤ s.queued.length) (hfails : ∃ l ∈ ls, Fails l)
    (hrun : runFrom step s ls = .ok s') : s'.content.length < s'.queued.length := by
  induction ls generalizing s with
  | nil =>
    obtain ⟨l, hl, -⟩ := hfails
    cases hl
  | cons l ls ih =>
    obtain ⟨m, hm, hrun'⟩ := runFrom_cons_eq_ok.mp hrun
    obtain ⟨hchunks', new, hqueued, hkept, hlost⟩ := content_step hchunks hm
    -- from the first failed write on the content stays behind
    by_cases hl : Fails l
    · refine behind_run hchunks' ?_ hrun'
      have := hlost hl
      rw [hqueued, List.length_append]
      omega
    · obtain ⟨l', hl', hfails'⟩ := hfails
      refine ih hchunks' ?_ ⟨l', ?_, hfails'⟩ hrun'
      · rw [hkept hl, hqueued, List.length_append, List.length_append]
        omega
      · rcases List.mem_cons.mp hl' with rfl | hl'
        · exact absurd hfails' hl
        · exact hl'

/-- **Conservation**: the bytes accepted and the bytes still queued are the bytes passed to
`queueWrite`, exactly as long as no write has failed. -/
theorem conserved_iff_no_failure {connected : Bool} {egressRate : ℕ}
    (hrun : runFrom step (init connected egressRate) ls = .ok s) :
    Conserved s ↔ ∀ l ∈ ls, ¬ Fails l := by
  have hchunks : TcpStream.NonEmptyChunks (init connected egressRate).stream.writeQueue :=
    fun chunk hc => (by cases hc)
  constructor
  · intro h l hl hfails
    have hbehind := behind_of_failure hchunks (le_refl _) ⟨l, hl, hfails⟩ hrun
    rw [h] at hbehind
    exact lt_irrefl _ hbehind
  · exact fun hfails => conserved_run hchunks rfl hfails hrun

/-- What the peer sees is then a prefix of what was queued. -/
theorem Conserved.wire_prefix (h : Conserved s) : s.wire <+: s.queued :=
  ⟨s.stream.writeQueue.flatten, h⟩

/-- A partial write and one that would block. -/
theorem conserved_partial_write :
    ∃ s, runFrom step (init true 0) [.queueWrite [1, 2, 3], .queueWrite [4],
        .handleWrite 0 [⟨2, .other 0, 1⟩, ⟨-1, .EAGAIN, 2⟩]] = .ok s ∧
      s.wire = [1, 2] ∧ Conserved s := by
  obtain ⟨s, hrun⟩ : ∃ s, runFrom step (init true 0) [.queueWrite [1, 2, 3], .queueWrite [4],
      .handleWrite 0 [⟨2, .other 0, 1⟩, ⟨-1, .EAGAIN, 2⟩]] = .ok s := ⟨_, rfl⟩
  exact ⟨s, hrun, by cases hrun; rfl, (conserved_iff_no_failure hrun).mpr (by decide)⟩

/-- A write fails with ENOBUFS (105); the next one succeeds: the peer sees a gap. -/
theorem not_conserved_failed_write :
    ¬ ∀ connected egressRate ls s, runFrom step (init connected egressRate) ls = .ok s →
      s.stream.disconnecting = false → Conserved s := by
  intro h
  obtain ⟨s, hrun⟩ : ∃ s, runFrom step (init true 0) [.queueWrite [1, 2, 3], .queueWrite [4],
      .handleWrite 0 [⟨-1, .other 105, 1⟩], .handleWrite 2 [⟨1, .other 0, 3⟩]] = .ok s := ⟨_, rfl⟩
  have hconserved := h _ _ _ s hrun (by cases hrun; rfl)
  have hwire : s.content = [4] ∧ s.queued = [1, 2, 3, 4] := by
    cases hrun
    exact ⟨rfl, rfl⟩
  rw [Conserved, hwire.1, hwire.2] at hconserved
  exact absurd hconserved (by decide)

end Sending

end Epoller
