import Epoller.Foundation.Windows
import Epoller.TcpStream.WakeUp

/-!
# The Egress Limit

A stream with `egressRate` stops writing when it is too fast, and goes on when the
egress timer expires. `handleWrite` measures the rate from its own start on, and
the delay is what one packet needs, so the limit holds for a stream that writes
packets without letting up.

## Contents

- `Pacing`: a stream, the clock and what the kernel has accepted when
- `EgressWithin`: the limit, with a burst of two packets
- `Steady`: the conditions on a call of `handleWrite`
- `egressWithin_of_run`: the limit holds in every run whose calls meet them
-/

namespace Epoller

open Foundation

/-! ## Runs with a Clock -/

/-- A call of `::write` and when the kernel accepted its bytes. -/
structure TimedWrite where
  acceptedAt : TimePointNs
  call : WriteCall
deriving DecidableEq, Repr

/-- The number of bytes accepted; none by a call that failed -/
def TimedWrite.accepted (w : TimedWrite) : ℕ := w.call.actuallySent.toNat

/-- A stream, and what the kernel has accepted from it. -/
structure Pacing where
  stream : TcpStream
  /-- The last reading of the clock -/
  now : TimePointNs
  /-- When the delay is over that the last `handleWrite` asked of the egress timer -/
  due : Option TimePointNs
  accepted : List (TimePointNs × ℕ)
deriving DecidableEq, Repr

inductive PacingStep where
  | queueWrite (data : Bytes)
  | handleWrite (start : TimePointNs) (ws : List TimedWrite)
deriving DecidableEq, Repr

namespace Pacing

def init (stream : TcpStream) (now : TimePointNs) : Pacing := ⟨stream, now, none, []⟩

/-- The clock does not go back: each write is accepted before the reading behind it. -/
def NonDecreasing : TimePointNs → List TimedWrite → Prop
  | _, [] => True
  | t, w :: ws => t ≤ w.acceptedAt ∧ w.acceptedAt ≤ w.call.sentAt ∧ NonDecreasing w.call.sentAt ws

instance NonDecreasing.decidable : ∀ (t : TimePointNs) (ws : List TimedWrite),
    Decidable (NonDecreasing t ws)
  | _, [] => instDecidableTrue
  | t, w :: ws =>
    have := NonDecreasing.decidable w.call.sentAt ws
    inferInstanceAs (Decidable (t ≤ w.acceptedAt ∧ w.acceptedAt ≤ w.call.sentAt ∧ _))

/-- The last reading of the clock -/
def lastReading : TimePointNs → List TimedWrite → TimePointNs
  | t, [] => t
  | _, w :: ws => lastReading w.call.sentAt ws

/-- The delay asked of the egress timer -/
def askedDelay (calls : List EngineCall) : Option NanoSecs :=
  calls.findSome? fun
    | .setEgress delay => some delay
    | .setActivity | .triggerWrites | .runWriteComplete => none

/-- What the kernel accepts, with the times -/
def entries (ws : List TimedWrite) : List (TimePointNs × ℕ) :=
  ws.map fun w => (w.acceptedAt, w.accepted)

/-- `handleWrite` is not called again before the delay is over. -/
def step (s : Pacing) : PacingStep → Except StreamHalt Pacing
  | .queueWrite data => .ok { s with stream := (s.stream.queueWrite data).1 }
  | .handleWrite start ws =>
    if s.now ≤ start ∧ (∀ due ∈ s.due, due ≤ start) ∧ NonDecreasing start ws then do
      let p ← s.stream.handleWrite start (ws.map TimedWrite.call)
      let now := lastReading start ws
      .ok {
        stream := p.stream
        now
        due := (askedDelay p.calls).map (now + ·)
        accepted := s.accepted ++ entries ws }
    else .error .disabled

/-! ## The Limit -/

/-- **The limit**: in every window the kernel accepts at most what the rate allows, and two
packets. -/
def EgressWithin (s : Pacing) : Prop :=
  ∀ x y, x ≤ y → (amountIn s.accepted x y : ℤ) ≤
    s.stream.egressRate * (y - x) / ONE_SEC_IN_NS + 2 * MAX_PACKET_SIZE

/-- The total is over the limit, but by so little that the division drops it, or by so much that it
does not fit into 64 bits. -/
def RoundsOff (egressRate total : ℕ) (start sentAt : TimePointNs) : Prop :=
  egressRate * (sentAt - start) < total * ONE_SEC_IN_NS ∧
    ¬ ((egressRate + 1) * max 1 (sentAt - start) ≤ total * ONE_SEC_IN_NS ∧
      total * ONE_SEC_IN_NS < 2 ^ 64)

/-- Each write that is accepted is a packet at most, comes before the call has saved up more than a
packet, and leaves a total whose rate is not rounded off. -/
def SteadyWrites (egressRate : ℕ) (start : TimePointNs) : (total : ℕ) → List TimedWrite → Prop
  | _, [] => True
  | total, w :: ws =>
    (w.accepted ≠ 0 → w.accepted ≤ MAX_PACKET_SIZE ∧
      egressRate * (w.acceptedAt - start) ≤ (total + MAX_PACKET_SIZE) * ONE_SEC_IN_NS ∧
      ¬ RoundsOff egressRate (total + w.accepted) start w.call.sentAt) ∧
    SteadyWrites egressRate start (total + w.accepted) ws

/-- The writes are steady, and a delay was not cut short by rounding. -/
def Steady (s : Pacing) : PacingStep → Prop
  | .queueWrite _ => True
  | .handleWrite start ws =>
    (s.due ≠ none →
      MAX_PACKET_SIZE * ONE_SEC_IN_NS ≤ s.stream.egressRate * (start - s.now)) ∧
    SteadyWrites s.stream.egressRate start 0 ws

instance (egressRate total : ℕ) (start sentAt : TimePointNs) :
    Decidable (RoundsOff egressRate total start sentAt) :=
  inferInstanceAs (Decidable (_ ∧ _))

instance SteadyWrites.decidable (egressRate : ℕ) (start : TimePointNs) :
    ∀ (total : ℕ) (ws : List TimedWrite), Decidable (SteadyWrites egressRate start total ws)
  | _, [] => instDecidableTrue
  | total, w :: ws =>
    have := SteadyWrites.decidable egressRate start (total + w.accepted) ws
    inferInstanceAs (Decidable (_ ∧ _))

instance (s : Pacing) (l : PacingStep) : Decidable (Steady s l) :=
  match l with
  | .queueWrite _ => instDecidableTrue
  | .handleWrite _ _ => inferInstanceAs (Decidable (_ ∧ _))

/-! ## The Arithmetic of the Rate -/

variable {start t now : TimePointNs} {total : ℕ} {egressRate : ℕ}
  {accepted : List (TimePointNs × ℕ)}

/-- A total that passes the comparison without being rounded off is within the limit. -/
theorem le_of_passes {sentAt : TimePointNs} (hle : start ≤ sentAt)
    (hround : ¬ RoundsOff egressRate total start sentAt)
    (hpasses : ¬ egressRate < TcpStream.currentRate total start sentAt) :
    ONE_SEC_IN_NS * (total : ℤ) ≤ egressRate * (sentAt - start) := by
  obtain ⟨elapsed, helapsed⟩ := Int.eq_ofNat_of_zero_le (sub_nonneg.mpr hle)
  by_contra hover
  rw [not_le, mul_comm (ONE_SEC_IN_NS : ℤ)] at hover
  refine hround ⟨hover, fun ⟨hfar, hfits⟩ => hpasses ?_⟩
  have hfar' : (egressRate + 1) * max 1 elapsed ≤ total * ONE_SEC_IN_NS := by
    rw [helapsed] at hfar
    exact_mod_cast hfar
  -- the product fits into 64 bits, so the time does, and neither is cut off
  have hshort : elapsed < 2 ^ 64 := by
    have hmax : max 1 elapsed ≤ (egressRate + 1) * max 1 elapsed :=
      Nat.le_mul_of_pos_left _ (Nat.succ_pos _)
    have hself := Nat.le_max_right 1 elapsed
    omega
  have hmod : ((sentAt - start) % 2 ^ 64).toNat = elapsed := by
    rw [helapsed]
    omega
  have hdivisor : (if elapsed ≤ 0 then 1 else elapsed) = max 1 elapsed := by
    split <;> omega
  simp only [TcpStream.currentRate, hmod, hdivisor, Nat.mod_eq_of_lt hfits]
  exact (Nat.le_div_iff_mul_le (by omega)).mpr hfar'

/-! ## One Call of `handleWrite` -/

/-- During a call: what was accepted is measured at its start, with a slack of what the call has
written and one packet. -/
structure Metered (egressRate : ℕ) (start t : TimePointNs) (total : ℕ)
    (accepted : List (TimePointNs × ℕ)) : Prop where
  since : start ≤ t
  past : ∀ e ∈ accepted, e.1 ≤ t
  covered : Covered egressRate ONE_SEC_IN_NS start
    (ONE_SEC_IN_NS * total + ONE_SEC_IN_NS * MAX_PACKET_SIZE) accepted
  within : Within egressRate ONE_SEC_IN_NS (ONE_SEC_IN_NS * (2 * MAX_PACKET_SIZE)) accepted

/-- Between calls: what was accepted is measured now, with a slack of one packet and what a delay
has still to pay for. -/
structure Rested (egressRate : ℕ) (now : TimePointNs) (owed : ℤ)
    (accepted : List (TimePointNs × ℕ)) : Prop where
  past : ∀ e ∈ accepted, e.1 ≤ now
  covered : Covered egressRate ONE_SEC_IN_NS now (ONE_SEC_IN_NS * MAX_PACKET_SIZE + owed) accepted
  within : Within egressRate ONE_SEC_IN_NS (ONE_SEC_IN_NS * (2 * MAX_PACKET_SIZE)) accepted

/-- What a delay has to pay for -/
def owedFor (due : Option TimePointNs) : ℤ :=
  if due = none then 0 else ONE_SEC_IN_NS * MAX_PACKET_SIZE

theorem Rested.begin {owed : ℤ} (h : Rested egressRate now owed accepted) (hle : now ≤ start)
    (howed : owed ≤ egressRate * (start - now)) : Metered egressRate start start 0 accepted := by
  refine ⟨le_refl _, fun e he => (h.past e he).trans hle, h.covered.shift ?_, h.within⟩
  rw [mul_sub] at howed
  simp only [Nat.cast_zero, mul_zero]
  omega

theorem Metered.rested {owed : ℤ} (h : Metered egressRate start t total accepted)
    (hspent : ONE_SEC_IN_NS * (total : ℤ) ≤ egressRate * (t - start) + owed) :
    Rested egressRate t owed accepted := by
  refine ⟨h.past, h.covered.shift ?_, h.within⟩
  rw [mul_sub] at hspent
  omega

/-- **A write** of a packet at most, with no more than a packet saved up -/
theorem Metered.write {w : TimedWrite} (h : Metered egressRate start t total accepted)
    (hspent : ONE_SEC_IN_NS * (total : ℤ) ≤ egressRate * (t - start))
    (hlate : t ≤ w.acceptedAt) (hsent : w.acceptedAt ≤ w.call.sentAt)
    (hsteady : w.accepted ≠ 0 → w.accepted ≤ MAX_PACKET_SIZE ∧
      egressRate * (w.acceptedAt - start) ≤ (total + MAX_PACKET_SIZE) * ONE_SEC_IN_NS) :
    Metered egressRate start w.call.sentAt (total + w.accepted)
      (accepted ++ [(w.acceptedAt, w.accepted)]) := by
  have hrate : 0 ≤ (egressRate : ℤ) := Int.natCast_nonneg _
  have hpacket : w.accepted ≤ MAX_PACKET_SIZE := by
    by_cases hzero : w.accepted = 0
    · omega
    · exact (hsteady hzero).1
  have hmore : egressRate * (t - start) ≤ egressRate * (w.acceptedAt - start) :=
    mul_le_mul_of_nonneg_left (sub_le_sub_right hlate start) hrate
  refine ⟨h.since.trans (hlate.trans hsent), fun e he => ?_, ?_, ?_⟩
  · rcases List.mem_append.mp he with he | he
    · exact (h.past e he).trans (hlate.trans hsent)
    · cases List.mem_singleton.mp he
      exact hsent
  -- the slack grows by what is written, if no more than a packet was saved up
  · have hsaved : w.accepted ≠ 0 → egressRate * (w.acceptedAt - start) ≤
        ONE_SEC_IN_NS * (total : ℤ) + ONE_SEC_IN_NS * MAX_PACKET_SIZE := fun hne => by
      have hsaved := (hsteady hne).2
      rwa [add_mul, mul_comm (total : ℤ), mul_comm (MAX_PACKET_SIZE : ℤ)] at hsaved
    refine (h.covered.append hrate (Int.natCast_nonneg _) hsaved).shift (le_of_eq ?_)
    rw [Nat.cast_add]
    ring
  · refine h.within.append h.covered hrate (fun e he => (h.past e he).trans hlate) ?_ ?_
    all_goals
      simp only [ONE_SEC_IN_NS, MAX_PACKET_SIZE] at hspent hpacket ⊢
      push_cast at hspent ⊢
      linarith

/-! ## The Loop -/

theorem askedDelay_append (calls calls' : List EngineCall) :
    askedDelay (calls ++ calls') = (askedDelay calls).or (askedDelay calls') :=
  List.findSome?_append

/-- How a round of the loop ends that has called for no delay before. -/
inductive Round (start : TimePointNs) (w : WriteCall) (p : TcpStream.Progress) : Bool → Prop where
  /-- The rate is not over the limit. -/
  | goesOn (hpasses : p.stream.egressRate ≠ 0 →
        ¬ p.stream.egressRate < TcpStream.currentRate p.totalWritten start w.sentAt)
      (hcalls : askedDelay p.calls = none) : Round start w p true
  | limited (hcalls : askedDelay p.calls ≠ none) : Round start w p false
  /-- Nothing was written. -/
  | stopped (hnone : w.actuallySent.toNat = 0) (hcalls : askedDelay p.calls = none) :
      Round start w p false

theorem writeOnce_round (start : TimePointNs) (w : WriteCall) (data : Bytes) (rest : List Bytes)
    {p : TcpStream.Progress} (hcalls : askedDelay p.calls = none) :
    (TcpStream.writeOnce start w data rest p).1.totalWritten =
        p.totalWritten + w.actuallySent.toNat ∧
      Round start w (TcpStream.writeOnce start w data rest p).1
        (TcpStream.writeOnce start w data rest p).2 := by
  have hsent : askedDelay (p.calls ++ [EngineCall.setActivity]) = none := by
    rw [askedDelay_append, hcalls]
    rfl
  simp only [TcpStream.writeOnce]
  split
  · split
    · refine ⟨rfl, .limited ?_⟩
      rw [askedDelay_append, hsent]
      exact Option.some_ne_none _
    · rename_i hpasses
      exact ⟨rfl, .goesOn (fun hrate hover => hpasses ⟨hrate, hover⟩) hsent⟩
  · rename_i hfailed
    have hnone : w.actuallySent.toNat = 0 := Int.toNat_of_nonpos (not_le.mp hfailed).le
    rw [hnone]
    split
    · exact ⟨rfl, .stopped hnone hcalls⟩
    · exact ⟨rfl, .stopped hnone hcalls⟩

/-- **The loop** of a call that is steady leaves the stream at rest. -/
theorem writeLoop_rested {ws : List TimedWrite} {p p' : TcpStream.Progress}
    (hloop : TcpStream.writeLoop start (ws.map TimedWrite.call) p = .ok p')
    (hcalls : askedDelay p.calls = none) (hrate : p.stream.egressRate ≠ 0)
    (h : Metered p.stream.egressRate start t p.totalWritten accepted)
    (hspent : ONE_SEC_IN_NS * (p.totalWritten : ℤ) ≤ p.stream.egressRate * (t - start))
    (htimes : NonDecreasing t ws)
    (hsteady : SteadyWrites p.stream.egressRate start p.totalWritten ws) :
    Rested p.stream.egressRate (lastReading t ws) (owedFor (askedDelay p'.calls))
      (accepted ++ entries ws) := by
  -- one write for each round: before the last the total is within the limit
  induction ws generalizing p t accepted with
  | nil =>
    obtain ⟨-, rfl⟩ := TcpStream.writeLoop_nil hloop
    rw [entries, List.map_nil, List.append_nil, hcalls]
    exact h.rested (by rwa [owedFor, if_pos rfl, add_zero])
  | cons w ws ih =>
    obtain ⟨hlate, hsent, htimes⟩ := htimes
    obtain ⟨hwrite, hsteady⟩ := hsteady
    have hmetered := h.write hspent hlate hsent fun hne => ⟨(hwrite hne).1, (hwrite hne).2.1⟩
    have hmore : (p.stream.egressRate : ℤ) * (t - start) ≤
        p.stream.egressRate * (w.call.sentAt - start) :=
      mul_le_mul_of_nonneg_left (sub_le_sub_right (hlate.trans hsent) start)
        (Int.natCast_nonneg _)
    have hentries : accepted ++ entries (w :: ws) =
        accepted ++ [(w.acceptedAt, w.accepted)] ++ entries ws := by simp [entries]
    rw [hentries, lastReading]
    rw [List.map_cons] at hloop
    obtain ⟨data, rest, -, -, hloop⟩ := TcpStream.writeLoop_cons hloop
    obtain ⟨htotal, hround⟩ := writeOnce_round start w.call data rest hcalls
    have hlink := (TcpStream.writeOnce_exit start w.call p data rest).1.egressRate
    rcases hloop with ⟨p₁, heq, hloop⟩ | ⟨heq, hlast⟩
    · rw [heq] at htotal hround hlink
      cases hround with
      | goesOn hpasses hcalls₁ =>
        have hspent₁ : ONE_SEC_IN_NS * (p₁.totalWritten : ℤ) ≤
            p₁.stream.egressRate * (w.call.sentAt - start) := by
          by_cases hzero : w.accepted = 0
          · rw [htotal, hlink, ← TimedWrite.accepted, hzero, Nat.add_zero]
            exact hspent.trans hmore
          · refine le_of_passes hmetered.since ?_ (hpasses (hlink ▸ hrate))
            rw [htotal, hlink]
            exact (hwrite hzero).2.2
        rw [← TimedWrite.accepted] at htotal
        rw [← htotal, ← hlink] at hmetered hsteady
        exact hlink ▸ ih hloop hcalls₁ (hlink ▸ hrate) hmetered hspent₁ htimes hsteady
    · rw [heq] at htotal hround hlink
      obtain rfl := List.map_eq_nil_iff.mp hlast
      rw [entries, List.map_nil, List.append_nil, lastReading]
      refine hmetered.rested ?_
      rw [Nat.cast_add, mul_add]
      cases hround with
      | limited hcalls₁ =>
        -- what the last write was too much is a packet at most
        have hpacket : w.accepted ≤ MAX_PACKET_SIZE := by
          by_cases hzero : w.accepted = 0
          · exact hzero.le.trans (Nat.zero_le _)
          · exact (hwrite hzero).1
        rw [owedFor, if_neg hcalls₁]
        exact add_le_add (hspent.trans hmore)
          (mul_le_mul_of_nonneg_left (Nat.cast_le.mpr hpacket) (Int.natCast_nonneg _))
      | stopped hnone hcalls₁ =>
        rw [TimedWrite.accepted, hnone, Nat.cast_zero, mul_zero, owedFor, if_pos hcalls₁]
        exact add_le_add (hspent.trans hmore) (le_refl 0)

/-- **A call of `handleWrite`** that is steady -/
theorem handleWrite_rested {stream : TcpStream} {ws : List TimedWrite} {p : TcpStream.Progress}
    (hp : stream.handleWrite start (ws.map TimedWrite.call) = .ok p) (hrate : stream.egressRate ≠ 0)
    (h : Metered stream.egressRate start start 0 accepted) (htimes : NonDecreasing start ws)
    (hsteady : SteadyWrites stream.egressRate start 0 ws) :
    Rested stream.egressRate (lastReading start ws) (owedFor (askedDelay p.calls))
      (accepted ++ entries ws) := by
  -- nothing is written yet, and no time has passed
  have hspent : ONE_SEC_IN_NS * ((0 : ℕ) : ℤ) ≤ stream.egressRate * (start - start) := by simp
  simp only [TcpStream.handleWrite] at hp
  split at hp
  · obtain ⟨p₁, hloop, hp⟩ := bind_eq_ok_iff.mp hp
    have hrested := writeLoop_rested hloop rfl hrate h hspent htimes hsteady
    split at hp <;> cases hp
    · -- the completion event asks for no delay
      have hcalls : askedDelay (p₁.calls ++ [EngineCall.runWriteComplete]) =
          askedDelay p₁.calls := by
        rw [askedDelay_append]
        exact Option.or_none
      rwa [hcalls]
    · exact hrested
  · split at hp
    -- the call that connects the stream writes nothing
    · rename_i hnone
      obtain rfl := List.map_eq_nil_iff.mp hnone
      have hrested : Rested _ _ 0 _ := h.rested (by rwa [add_zero])
      rw [entries, List.map_nil, List.append_nil]
      split at hp <;> cases hp <;> exact hrested
    · cases hp

/-! ## Runs -/

/-- **The invariant**: the stream is at rest, and what the last delay has to pay for is owed. -/
structure Paced (s : Pacing) : Prop where
  rate : s.stream.egressRate ≠ 0
  rested : Rested s.stream.egressRate s.now (owedFor s.due) s.accepted

variable {s s' : Pacing}

/-- **Step** -/
theorem Paced.step {l : PacingStep} (h : Paced s) (hsteady : Steady s l)
    (hstep : s.step l = .ok s') : Paced s' := by
  cases l with
  | queueWrite data =>
    cases hstep
    have hsame : (s.stream.queueWrite data).1.egressRate = s.stream.egressRate := by
      rcases StreamSystem.queueWrite_cases s.stream data with ⟨heq, -⟩ | ⟨heq, -⟩ | ⟨heq, -⟩ <;>
        rw [heq]
    exact ⟨hsame ▸ h.rate, hsame ▸ h.rested⟩
  | handleWrite start ws =>
    obtain ⟨hdelay, hwrites⟩ := hsteady
    simp only [Pacing.step] at hstep
    split at hstep
    · rename_i hready
      obtain ⟨hnow, -, htimes⟩ := hready
      obtain ⟨p, hp, hstep⟩ := bind_eq_ok_iff.mp hstep
      cases hstep
      -- the delay is over, and pays for the packet that was too much
      have howed : owedFor s.due ≤ s.stream.egressRate * (start - s.now) := by
        unfold owedFor
        split
        · exact mul_nonneg (Int.natCast_nonneg _) (sub_nonneg.mpr hnow)
        · rename_i hdue
          exact (mul_comm _ _).trans_le (hdelay hdue)
      have hrested := handleWrite_rested hp h.rate (h.rested.begin hnow howed) htimes hwrites
      have hlink := (TcpStream.handleWrite_link hp).2.2
      have hdue : owedFor ((askedDelay p.calls).map (lastReading start ws + ·)) =
          owedFor (askedDelay p.calls) := by
        simp [owedFor]
      refine ⟨hlink ▸ h.rate, ?_⟩
      rw [hlink, hdue]
      exact hrested
    · cases hstep

theorem Paced.egressWithin (h : Paced s) : EgressWithin s := by
  intro x y hxy
  have hwithin := h.rested.within x y hxy
  -- the limit is stated with a division, the invariant without
  have hsec : (0 : ℤ) < ONE_SEC_IN_NS := by decide
  rw [← sub_le_iff_le_add, Int.le_ediv_iff_mul_le hsec]
  linarith

theorem paced_init {stream : TcpStream} (hrate : stream.egressRate ≠ 0) (now : TimePointNs) :
    Paced (init stream now) :=
  ⟨hrate, fun _ he => (by cases he), covered_nil,
    within_nil (Int.natCast_nonneg _) (by decide)⟩

/-- **The egress limit** holds in every run of a stream with a rate whose calls of `handleWrite` are
all steady. -/
theorem egressWithin_of_run {stream : TcpStream} {now : TimePointNs} {ls : List PacingStep}
    (hrate : stream.egressRate ≠ 0) (hsteady : AllSteps step Steady (init stream now) ls)
    (hrun : runFrom step (init stream now) ls = .ok s) : EgressWithin s :=
  (AllSteps.invariant Paced (fun h hc hstep => h.step hc hstep) (paced_init hrate now) hsteady
    hrun).egressWithin

/-- An accepted stream before anything was queued -/
def acceptedStream : TcpStream :=
  { TcpStream.fresh with connected := true, egressRate := TcpStream.ACCEPTED_EGRESS_RATE }

/-- Two small writes, the second one when the delay after the first one is over -/
theorem egressWithin_two_writes : ∃ s, runFrom step (init acceptedStream 0) [.queueWrite [1],
      .handleWrite 0 [⟨0, ⟨1, .EAGAIN, 1⟩⟩], .queueWrite [2],
      .handleWrite 976564 [⟨976564, ⟨1, .EAGAIN, 976565⟩⟩]] = .ok s ∧
    s.accepted = [(0, 1), (976564, 1)] ∧ EgressWithin s := by
  obtain ⟨s, hrun, haccepted⟩ : ∃ s, runFrom step (init acceptedStream 0) [.queueWrite [1],
      .handleWrite 0 [⟨0, ⟨1, .EAGAIN, 1⟩⟩], .queueWrite [2],
      .handleWrite 976564 [⟨976564, ⟨1, .EAGAIN, 976565⟩⟩]] = .ok s ∧
      s.accepted = [(0, 1), (976564, 1)] := by
    decide +kernel
  exact ⟨s, hrun, haccepted, egressWithin_of_run (by decide) (by decide +kernel) hrun⟩

/-- All of a chunk that is longer than two packets is accepted at once. -/
theorem not_egressWithin_long_chunk : ¬ ∀ stream now ls s, stream.egressRate ≠ 0 →
    runFrom step (init stream now) ls = .ok s → EgressWithin s := by
  intro h
  obtain ⟨s, hrun, hrate, haccepted⟩ : ∃ s, runFrom step (init acceptedStream 0)
      [.queueWrite (List.replicate 8193 0), .handleWrite 0 [⟨0, ⟨8193, .EAGAIN, 0⟩⟩]] = .ok s ∧
      s.stream.egressRate = TcpStream.ACCEPTED_EGRESS_RATE ∧ s.accepted = [(0, 8193)] := by
    decide +kernel
  have hwindow := h _ _ _ s (by decide) hrun 0 0 (le_refl 0)
  rw [haccepted, hrate] at hwindow
  exact absurd hwindow (by decide)

end Pacing

end Epoller
