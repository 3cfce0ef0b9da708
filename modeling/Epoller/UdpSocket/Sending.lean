import Epoller.TcpStream

/-!
# Sending Datagrams

`UdpSocket::handleWrite` tries one datagram after the other until `writeQueue` is
empty. `doWrite` puts a datagram that would block back into that queue, so the
loop tries it again at once, for as long as it would block.

## Contents

- `doWrite`, `handleWrite`: the functions
- `Drains`: what a call promises
- `drains_iff_not_wouldBlock`: which outcomes keep the promise
-/

namespace Epoller

open scoped List

/-- `std::pair<InetDest const, Bytes const>` -/
structure Datagram where
  dest : InetDest
  data : Bytes
deriving DecidableEq, Repr

/-- What `sendDatagram` does with a datagram. -/
inductive SendOutcome where
  | sent
  /-- It returns -1. -/
  | error (errno : Errno)
deriving DecidableEq, Repr

namespace SendOutcome

/-- What `sendDatagram` returns -/
def actuallySent (outcome : SendOutcome) (datagram : Datagram) : ℤ :=
  match outcome with
  | sent => datagram.data.length
  | error _ => -1

/-- The error number afterwards -/
def errno : SendOutcome → Errno
  | sent => .other 0
  | error errno => errno

def WouldBlock (outcome : SendOutcome) : Prop :=
  outcome = error .EWOULDBLOCK ∨ outcome = error .EAGAIN

instance (outcome : SendOutcome) : Decidable outcome.WouldBlock :=
  inferInstanceAs (Decidable (_ ∨ _))

end SendOutcome

/-! ## The Loop -/

/-- A `UdpSocket` and what a call of `handleWrite` has done so far -/
structure UdpSending where
  writeQueue : List Datagram
  /-- Passed to `sendDatagram`, one entry for each call -/
  tried : List Datagram
  sent : List Datagram
  /-- Passed to `client->notSent` -/
  notSent : List Datagram
  /-- `client->writeComplete` was called. -/
  complete : Bool
deriving DecidableEq, Repr

namespace UdpSending

/-- The start of a call of `handleWrite` -/
def start (writeQueue : List Datagram) : UdpSending := ⟨writeQueue, [], [], [], false⟩

/-- `doWrite` -/
def doWrite (s : UdpSending) (datagram : Datagram) (actuallySent : ℤ) (errno : Errno) :
    UdpSending :=
  let s := { s with tried := s.tried ++ [datagram] }
  if actuallySent = -1 then
    if errno = .EWOULDBLOCK ∨ errno = .EAGAIN then
      { s with writeQueue := s.writeQueue ++ [datagram] }
    -- no length is -1, so none of the branches below is taken
    else { s with notSent := s.notSent ++ [datagram] }
  else if actuallySent = datagram.data.length then { s with sent := s.sent ++ [datagram] }
  else if 0 < actuallySent then
    { s with writeQueue := s.writeQueue ++
        [{ datagram with data := datagram.data.drop actuallySent.toNat }] }
  else s

/-- `handleWrite` for at most `fuel` tests of the queue: `none` if it has not returned by then. The
outcomes are those of the calls of `sendDatagram`, one after the other. -/
def handleWrite (outcomes : ℕ → SendOutcome) : (fuel : ℕ) → UdpSending → Option UdpSending
  | 0, _ => none
  | fuel + 1, s =>
    match s.writeQueue with
    | [] => some { s with complete := true }
    | datagram :: rest =>
      let outcome := outcomes s.tried.length
      handleWrite outcomes fuel
        ({ s with writeQueue := rest }.doWrite datagram (outcome.actuallySent datagram)
          outcome.errno)

/-- **The promise**: a call returns, tries each datagram at most once, and leaves each of them sent,
reported or in the queue, which keeps its order. -/
def Drains (queue : List Datagram) (outcomes : ℕ → SendOutcome) : Prop :=
  ∃ fuel s, handleWrite outcomes fuel (start queue) = some s ∧ s.tried <+~ queue ∧
    s.sent ++ s.notSent ++ s.writeQueue ~ queue ∧ s.writeQueue <+ queue

/-! ## One Round -/

variable {s s' : UdpSending} {outcomes : ℕ → SendOutcome} {queue : List Datagram} {fuel : ℕ}

/-- A datagram that would block goes to the end of the queue. -/
theorem doWrite_of_wouldBlock {outcome : SendOutcome} (h : outcome.WouldBlock) (s : UdpSending)
    (datagram : Datagram) : s.doWrite datagram (outcome.actuallySent datagram) outcome.errno =
      { s with tried := s.tried ++ [datagram], writeQueue := s.writeQueue ++ [datagram] } := by
  rcases h with rfl | rfl <;> rfl

/-- Any other datagram is sent or reported. -/
theorem doWrite_of_not_wouldBlock {outcome : SendOutcome} (h : ¬ outcome.WouldBlock)
    (s : UdpSending) (datagram : Datagram) :
    ∃ sent notSent, sent ++ notSent = [datagram] ∧
      s.doWrite datagram (outcome.actuallySent datagram) outcome.errno =
        { s with
          tried := s.tried ++ [datagram]
          sent := s.sent ++ sent
          notSent := s.notSent ++ notSent } := by
  cases outcome with
  | sent =>
    have hlength : ¬ (datagram.data.length : ℤ) = -1 := by omega
    refine ⟨[datagram], [], rfl, ?_⟩
    simp [doWrite, SendOutcome.actuallySent, hlength]
  | error errno =>
    have herrno : ¬ (errno = .EWOULDBLOCK ∨ errno = .EAGAIN) := by
      rintro (rfl | rfl)
      · exact h (Or.inl rfl)
      · exact h (Or.inr rfl)
    refine ⟨[], [datagram], rfl, ?_⟩
    simp [doWrite, SendOutcome.actuallySent, SendOutcome.errno, herrno]

/-! ## The Loop, Round by Round -/

/-- How many of the first calls of `sendDatagram` would block -/
def blockedCalls (outcomes : ℕ → SendOutcome) (calls : ℕ) : ℕ :=
  (List.range calls).countP fun i => (outcomes i).WouldBlock

/-- What would block is in the queue again: of `n` datagrams as many are left as were not tried, and
one for each call that would block. -/
def Balanced (outcomes : ℕ → SendOutcome) (n : ℕ) (s : UdpSending) : Prop :=
  s.writeQueue.length + s.tried.length = n + blockedCalls outcomes s.tried.length

theorem blockedCalls_succ (outcomes : ℕ → SendOutcome) (calls : ℕ) :
    blockedCalls outcomes (calls + 1) =
      blockedCalls outcomes calls + if (outcomes calls).WouldBlock then 1 else 0 := by
  rw [blockedCalls, List.range_succ, List.countP_append, List.countP_singleton, ← blockedCalls]
  simp

/-- **Round** -/
theorem Balanced.doWrite {n : ℕ} {datagram : Datagram} {rest : List Datagram}
    (h : Balanced outcomes n s) (hqueue : s.writeQueue = datagram :: rest) :
    Balanced outcomes n ({ s with writeQueue := rest }.doWrite datagram
      ((outcomes s.tried.length).actuallySent datagram) (outcomes s.tried.length).errno) := by
  unfold Balanced at h ⊢
  rw [hqueue, List.length_cons] at h
  by_cases hblock : (outcomes s.tried.length).WouldBlock
  · rw [doWrite_of_wouldBlock hblock]
    simp only [List.length_append, List.length_singleton, blockedCalls_succ, if_pos hblock]
    omega
  · obtain ⟨sent, notSent, -, hdone⟩ :=
      doWrite_of_not_wouldBlock hblock { s with writeQueue := rest } datagram
    rw [hdone]
    simp only [List.length_append, List.length_singleton, blockedCalls_succ, if_neg hblock]
    omega

/-- The loop returns with the queue empty. -/
theorem Balanced.handleWrite {n : ℕ} (h : Balanced outcomes n s)
    (hreturns : handleWrite outcomes fuel s = some s') :
    Balanced outcomes n s' ∧ s'.writeQueue = [] := by
  -- with no fuel left it has not returned
  induction fuel generalizing s with
  | zero => cases hreturns
  | succ fuel ih =>
    cases hqueue : s.writeQueue with
    | nil =>
      simp only [UdpSending.handleWrite, hqueue] at hreturns
      cases hreturns
      rw [Balanced, hqueue] at h
      exact ⟨h, rfl⟩
    | cons datagram rest =>
      simp only [UdpSending.handleWrite, hqueue] at hreturns
      exact ih (h.doWrite hqueue) hreturns

/-- As long as nothing would block, each round settles one datagram. -/
theorem handleWrite_of_not_wouldBlock (hqueue : s.writeQueue = queue)
    (hblock : ∀ i < queue.length, ¬ (outcomes (s.tried.length + i)).WouldBlock) :
    ∃ sent notSent, sent ++ notSent ~ queue ∧
      handleWrite outcomes (queue.length + 1) s = some
        { writeQueue := []
          tried := s.tried ++ queue
          sent := s.sent ++ sent
          notSent := s.notSent ++ notSent
          complete := true } := by
  -- the queue gets one datagram shorter, and the calls counted so far one more
  induction queue generalizing s with
  | nil => exact ⟨[], [], .refl _, by simp [handleWrite, hqueue]⟩
  | cons datagram rest ih =>
    obtain ⟨sent₁, notSent₁, hone, hdone⟩ := doWrite_of_not_wouldBlock
      (hblock 0 (Nat.succ_pos _)) { s with writeQueue := rest } datagram
    let s₁ : UdpSending :=
      { s with
        writeQueue := rest
        tried := s.tried ++ [datagram]
        sent := s.sent ++ sent₁
        notSent := s.notSent ++ notSent₁ }
    have hblock₁ : ∀ i < rest.length, ¬ (outcomes (s₁.tried.length + i)).WouldBlock := by
      intro i hi
      have hlater := hblock (i + 1) (Nat.succ_lt_succ hi)
      rwa [show s.tried.length + (i + 1) = s₁.tried.length + i by simp [s₁]; omega] at hlater
    obtain ⟨sent, notSent, hperm, hreturns⟩ := ih (s := s₁) rfl hblock₁
    refine ⟨sent₁ ++ sent, notSent₁ ++ notSent, ?_, ?_⟩
    -- the datagram of this round is either in `sent₁` or in `notSent₁`
    · calc sent₁ ++ sent ++ (notSent₁ ++ notSent)
          = sent₁ ++ (sent ++ (notSent₁ ++ notSent)) := List.append_assoc ..
        _ ~ sent₁ ++ (notSent₁ ++ (sent ++ notSent)) :=
            (List.perm_append_comm_assoc sent notSent₁ notSent).append_left sent₁
        _ = sent₁ ++ notSent₁ ++ (sent ++ notSent) := (List.append_assoc ..).symm
        _ = datagram :: (sent ++ notSent) := by rw [hone, List.singleton_append]
        _ ~ datagram :: rest := hperm.cons datagram
    · rw [Nat.add_zero] at hdone
      rw [List.length_cons, handleWrite]
      simp only [hqueue, hdone]
      rw [hreturns]
      simp [s₁]

/-- **Draining**: a call keeps its promise if and only if none of its first calls of
`sendDatagram`, as many as datagrams are queued, would block. -/
theorem drains_iff_not_wouldBlock (queue : List Datagram) (outcomes : ℕ → SendOutcome) :
    Drains queue outcomes ↔ ∀ i < queue.length, ¬ (outcomes i).WouldBlock := by
  constructor
  · rintro ⟨fuel, s, hreturns, htried, -, -⟩ i hi
    have hstart : Balanced outcomes queue.length (start queue) := rfl
    obtain ⟨hbalanced, hempty⟩ := hstart.handleWrite hreturns
    have hlength := htried.length_le
    rw [Balanced, hempty, List.length_nil, Nat.zero_add] at hbalanced
    -- one call that would block is one call too many
    have hall : s.tried.length = queue.length := by omega
    have hnone : blockedCalls outcomes queue.length = 0 := by
      rw [hall] at hbalanced
      omega
    exact of_decide_eq_false (Bool.eq_false_of_not_eq_true
      (List.countP_eq_zero.mp hnone i (List.mem_range.mpr hi)))
  · intro hblock
    have hblock' : ∀ i < queue.length,
        ¬ (outcomes ((start queue).tried.length + i)).WouldBlock := by
      intro i hi
      rw [show (start queue).tried.length + i = i from Nat.zero_add i]
      exact hblock i hi
    obtain ⟨sent, notSent, hperm, hreturns⟩ :=
      handleWrite_of_not_wouldBlock (s := start queue) rfl hblock'
    refine ⟨_, _, hreturns, (List.Perm.refl queue).subperm, ?_, List.nil_sublist _⟩
    rw [List.append_nil]
    exact hperm

/-- A datagram that would block every time is tried for ever. -/
theorem not_drains_blocked : ¬ ∀ queue outcomes, Drains queue outcomes := by
  intro h
  let datagram : Datagram := ⟨⟨⟨Vector.replicate 8 0⟩, true, 53, 0⟩, [1]⟩
  obtain ⟨fuel, s, hreturns, -⟩ := h [datagram] fun _ => .error .EAGAIN
  -- each round ends where it began, but for what was tried
  have hloop : ∀ fuel tried, handleWrite (fun _ => .error .EAGAIN) fuel
      ⟨[datagram], tried, [], [], false⟩ = none := by
    intro fuel
    induction fuel with
    | zero => exact fun tried => rfl
    | succ fuel ih => exact fun tried => ih (tried ++ [datagram])
  exact absurd ((hloop fuel []).symm.trans hreturns) nofun

end UdpSending

end Epoller
