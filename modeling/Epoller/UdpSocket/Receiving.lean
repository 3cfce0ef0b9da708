import Epoller.Query.Grammar
import Epoller.Resolver.Cache
import Epoller.TcpStream

/-!
# Receiving Datagrams

`UdpSocket::handleRead` gives `receiveDatagram` a buffer of zero bytes, and passes
on what the buffer holds afterwards. Only if `recvmsg` would block it returns
without doing so: after any other error the client is told of a datagram that
nobody has sent, from an address that is whatever stood in memory. A lookup takes
it for the answer to its query.

## Contents

- `RecvOutcome`, `ReadCall`: what `recvmsg` does, and what a call depends on
- `receiveDatagram`, `handleRead`, `UdpResolver.received`: the functions
- `handleRead_datagram`, `handleRead_wouldBlock`, `handleRead_fails`: one call
- `Delivers`: what a sequence of calls promises
- `delivers_iff_not_fails`: which outcomes keep the promise
- `ResolverSystem.answered_of_run`: the answers that the resolver gets in a run
-/

namespace Epoller

open Foundation Query

/-! ## What `recvmsg` Does -/

/-- `sockaddr_in6`: the address in network order, and the storage of the port -/
structure SockaddrIn6 where
  sin6_addr : Vector UInt8 16
  sin6_port : U16Swap
deriving DecidableEq, Repr

/-- A datagram that fits into the buffer, and where it came from -/
structure ReceivedDatagram where
  sender : SockaddrIn6
  data : Bytes
  fits : data.length ≤ MAX_PACKET_SIZE
deriving DecidableEq, Repr

inductive RecvOutcome where
  | datagram (d : ReceivedDatagram)
  /-- It returns -1. -/
  | error (errno : Errno)
deriving DecidableEq, Repr

namespace RecvOutcome

/-- What `recvmsg` returns -/
def numReceived : RecvOutcome → ℤ
  | datagram d => d.data.length
  | error _ => -1

/-- The error number afterwards -/
def errno : RecvOutcome → Errno
  | datagram _ => .other 0
  | error errno => errno

/-- The buffer afterwards: behind the datagram it is as it was. -/
def buffer (outcome : RecvOutcome) (data : Bytes) : Bytes :=
  match outcome with
  | datagram d => d.data ++ data.drop d.data.length
  | error _ => data

/-- The address afterwards -/
def addr (outcome : RecvOutcome) (memory : SockaddrIn6) : SockaddrIn6 :=
  match outcome with
  | datagram d => d.sender
  | error _ => memory

/-- An error that does not only say that there is no datagram -/
def Fails : RecvOutcome → Prop
  | datagram _ => False
  | error errno => errno ≠ .EWOULDBLOCK ∧ errno ≠ .EAGAIN

instance (outcome : RecvOutcome) : Decidable outcome.Fails :=
  match outcome with
  | datagram _ => .isFalse id
  | error errno => inferInstanceAs (Decidable (errno ≠ .EWOULDBLOCK ∧ errno ≠ .EAGAIN))

end RecvOutcome

/-! ## The Functions -/

/-- `std::vector::resize` -/
def resize (data : Bytes) (n : ℕ) : Bytes := data.take n ++ List.replicate (n - data.length) 0

/-- `Socket::receiveDatagram`: what it returns, and `whereFrom` and `data` afterwards. Its variable
`addr` is not initialised, `memory` is what stands there. -/
def Socket.receiveDatagram (memory : SockaddrIn6) (outcome : RecvOutcome) (whereFrom : InetDest)
    (data : Bytes) : ℤ × InetDest × Bytes :=
  let data := outcome.buffer data
  let numReceived := outcome.numReceived
  -- `data.size() - numReceived` is unsigned: it is positive unless it is zero
  let data :=
    if 0 ≤ numReceived ∧ numReceived ≠ data.length then resize data numReceived.toNat else data
  -- also after an error
  let addr := outcome.addr memory
  (numReceived,
    { whereFrom with
      addr := .set addr.sin6_addr
      port := wordNetworkEndian16 addr.sin6_port.d16 },
    data)

/-- `UdpSocket::handleRead`: what it passes to `client->received`, if it calls it -/
def UdpSocket.handleRead (memory : SockaddrIn6) (outcome : RecvOutcome) :
    Option (InetDest × Bytes) :=
  let data := List.replicate MAX_PACKET_SIZE 0
  let whereFrom : InetDest := ⟨⟨Vector.replicate 8 0⟩, false, 0, 0⟩
  let (actuallyReceived, whereFrom, data) := Socket.receiveDatagram memory outcome whereFrom data
  if actuallyReceived < 0 ∧ (outcome.errno = .EWOULDBLOCK ∨ outcome.errno = .EAGAIN) then none
  else some (whereFrom, data)

/-- `UdpResolver::received`: what it passes to `requestComplete` -/
def UdpResolver.received (resolver : UdpResolver) (clock : ℕ → TimePointNs) (w : Bytes) :
    Except OutOfBounds (UInt16 × Qanswer) := do
  let ans ← Query.decode clock w
  .ok (resolver.requestNo, ans)

/-- A call of `handleRead`; `clock` are the readings during the callback. -/
structure ReadCall where
  memory : SockaddrIn6
  outcome : RecvOutcome
  clock : ℕ → TimePointNs

namespace ReadCall

/-- The callback -/
def callback (call : ReadCall) : Option (InetDest × Bytes) :=
  UdpSocket.handleRead call.memory call.outcome

/-- The datagram that was received -/
def datagram (call : ReadCall) : Option ReceivedDatagram :=
  match call.outcome with
  | .datagram d => some d
  | .error _ => none

/-- What a callback of the resolver passes to `requestComplete` -/
def completion (resolver : UdpResolver) (call : ReadCall) :
    Option (Except OutOfBounds (UInt16 × Qanswer)) :=
  call.callback.map fun c => resolver.received call.clock c.2

end ReadCall

/-- The callback has the bytes of the datagram, and the address and the port of its sender. -/
structure Carries (c : InetDest × Bytes) (d : ReceivedDatagram) : Prop where
  addr : c.1.addr.get = d.sender.sin6_addr
  port : c.1.port.toNat = d.sender.sin6_port.b0.toNat * 256 + d.sender.sin6_port.b1.toNat
  data : c.2 = d.data

/-- **The promise** of a sequence of calls -/
structure Delivers (resolver : UdpResolver) (calls : List ReadCall) : Prop where
  /-- There is one callback for each datagram, in the order in which they were received. -/
  callbacks : List.Forall₂ Carries (calls.filterMap ReadCall.callback)
    (calls.filterMap ReadCall.datagram)
  /-- Every request is completed with an answer that was decoded from a datagram. -/
  answers : ∀ reqNo ans, .ok (reqNo, ans) ∈ calls.filterMap (ReadCall.completion resolver) →
    ∃ d ∈ calls.filterMap ReadCall.datagram, ∃ clock, Query.decode clock d.data = .ok ans

/-! ## One Call -/

variable {memory : SockaddrIn6} {call : ReadCall} {calls : List ReadCall}

/-- `receiveDatagram` of a datagram leaves its bytes in a buffer that it fits into. -/
theorem Socket.receiveDatagram_datagram (memory : SockaddrIn6) (d : ReceivedDatagram)
    (whereFrom : InetDest) {data : Bytes} (hdata : data.length = MAX_PACKET_SIZE) :
    Socket.receiveDatagram memory (.datagram d) whereFrom data =
      ((d.data.length : ℤ),
        { whereFrom with
          addr := .set d.sender.sin6_addr
          port := wordNetworkEndian16 d.sender.sin6_port.d16 },
        d.data) := by
  have hfits := d.fits
  have hlength : (d.data ++ data.drop d.data.length).length = MAX_PACKET_SIZE := by
    rw [List.length_append, List.length_drop]
    omega
  have hcut : (if (0 : ℤ) ≤ d.data.length ∧ (d.data.length : ℤ) ≠ MAX_PACKET_SIZE then
      resize (d.data ++ data.drop d.data.length) d.data.length
        else d.data ++ data.drop d.data.length) = d.data := by
    split
    · rw [resize, hlength, Nat.sub_eq_zero_of_le hfits, List.replicate_zero, List.append_nil,
        List.take_left]
    · -- the datagram fills the buffer
      have hfull : d.data.length = MAX_PACKET_SIZE := by omega
      rw [List.drop_eq_nil_of_le (hdata.trans hfull.symm).le, List.append_nil]
  simp only [Socket.receiveDatagram, RecvOutcome.numReceived, RecvOutcome.buffer, RecvOutcome.addr,
    hlength, Int.toNat_natCast, hcut]

/-- After an error the buffer is as it was, and the address is what stood in memory. -/
theorem Socket.receiveDatagram_error (memory : SockaddrIn6) (errno : Errno) (whereFrom : InetDest)
    (data : Bytes) : Socket.receiveDatagram memory (.error errno) whereFrom data =
      (-1,
        { whereFrom with
          addr := .set memory.sin6_addr
          port := wordNetworkEndian16 memory.sin6_port.d16 },
        data) := rfl

/-- **A datagram** is passed on with its sender. -/
theorem UdpSocket.handleRead_datagram (memory : SockaddrIn6) (d : ReceivedDatagram) :
    ∃ c, UdpSocket.handleRead memory (.datagram d) = some c ∧ Carries c d := by
  have hlength : (List.replicate MAX_PACKET_SIZE (0 : UInt8)).length = MAX_PACKET_SIZE :=
    List.length_replicate
  have hreceived : ¬ (d.data.length : ℤ) < 0 := by omega
  simp only [UdpSocket.handleRead, Socket.receiveDatagram_datagram memory d _ hlength]
  refine ⟨_, if_neg fun hblock => hreceived hblock.1, ?_⟩
  exact ⟨IpAddr.get_set _, toNat_wordNetworkEndian16 _, rfl⟩

/-- If `recvmsg` would block, nothing is passed on. -/
theorem UdpSocket.handleRead_wouldBlock {errno : Errno} (h : ¬ (RecvOutcome.error errno).Fails)
    (memory : SockaddrIn6) : UdpSocket.handleRead memory (.error errno) = none := by
  have hblock : errno = .EWOULDBLOCK ∨ errno = .EAGAIN := by
    by_contra hother
    exact h (not_or.mp hother)
  simp only [UdpSocket.handleRead, Socket.receiveDatagram_error]
  exact if_pos ⟨by decide, hblock⟩

/-- After any other error the buffer is passed on as it was made. -/
theorem UdpSocket.handleRead_fails {errno : Errno} (h : (RecvOutcome.error errno).Fails)
    (memory : SockaddrIn6) : UdpSocket.handleRead memory (.error errno) =
      some (⟨.set memory.sin6_addr, false, wordNetworkEndian16 memory.sin6_port.d16, 0⟩,
        List.replicate MAX_PACKET_SIZE 0) := by
  have hblock : ¬ (errno = .EWOULDBLOCK ∨ errno = .EAGAIN) := not_or.mpr h
  simp only [UdpSocket.handleRead, Socket.receiveDatagram_error]
  exact if_neg fun hboth => hblock hboth.2

/-- Zero bytes are read as a message without questions and answers. -/
theorem decode_zeros {n : ℕ} (hn : HEADER_SIZE ≤ n) (clock : ℕ → TimePointNs) :
    Query.decode clock (List.replicate n 0) = .ok ⟨false, 0, [], [], none, clock 0⟩ := by
  have hword : ∀ i, i + 1 < HEADER_SIZE → readWord (List.replicate n 0) i = .ok 0 := by
    intro i hi
    refine readWord_eq_ok_iff.mpr ⟨0, 0, ?_, ?_, rfl⟩
    · rw [List.getElem?_replicate, if_pos (by omega)]
    · rw [List.getElem?_replicate, if_pos (by omega)]
  have hheader : decodeHeader (List.replicate n 0) = .ok ⟨0, 0, 0, 0, 0, 0⟩ := by
    rw [decodeHeader, if_pos (by rwa [List.length_replicate]), hword 0 (by decide),
      hword 2 (by decide), hword 4 (by decide), hword 6 (by decide), hword 8 (by decide),
      hword 10 (by decide)]
    rfl
  rw [Query.decode, hheader]
  rfl

/-! ## Sequences of Calls -/

namespace ReadCall

variable {call : ReadCall} {calls : List ReadCall}

/-- A call that does not fail passes on the datagram, if there is one. -/
theorem callback_of_not_fails (h : ¬ call.outcome.Fails) :
    (call.callback = none ∧ call.datagram = none) ∨
      ∃ c d, call.callback = some c ∧ call.datagram = some d ∧ Carries c d := by
  unfold callback datagram
  cases houtcome : call.outcome with
  | datagram d =>
    obtain ⟨c, hc, hcarries⟩ := UdpSocket.handleRead_datagram call.memory d
    exact Or.inr ⟨c, d, hc, rfl, hcarries⟩
  | error errno =>
    rw [houtcome] at h
    exact Or.inl ⟨UdpSocket.handleRead_wouldBlock h call.memory, rfl⟩

/-- A call that fails passes on zero bytes, without a datagram. -/
theorem callback_of_fails (h : call.outcome.Fails) :
    (∃ whereFrom, call.callback = some (whereFrom, List.replicate MAX_PACKET_SIZE 0)) ∧
      call.datagram = none := by
  unfold callback datagram
  cases houtcome : call.outcome with
  | datagram d =>
    rw [houtcome] at h
    exact h.elim
  | error errno =>
    rw [houtcome] at h
    exact ⟨⟨_, UdpSocket.handleRead_fails h call.memory⟩, rfl⟩

/-- Each call that fails makes one callback too many. -/
theorem length_callbacks (calls : List ReadCall) : (calls.filterMap callback).length =
    (calls.filterMap datagram).length + calls.countP fun call => call.outcome.Fails := by
  induction calls with
  | nil => rfl
  | cons call calls ih =>
    rw [List.countP_cons]
    by_cases hfails : call.outcome.Fails
    · obtain ⟨⟨c, hc⟩, hd⟩ := callback_of_fails hfails
      rw [List.filterMap_cons_some hc, List.filterMap_cons_none hd, List.length_cons, ih,
        if_pos (decide_eq_true hfails), Nat.add_assoc]
    · rw [if_neg fun htrue => hfails (of_decide_eq_true htrue), Nat.add_zero]
      rcases callback_of_not_fails hfails with ⟨hc, hd⟩ | ⟨c, d, hc, hd, -⟩
      · rw [List.filterMap_cons_none hc, List.filterMap_cons_none hd, ih]
      · rw [List.filterMap_cons_some hc, List.filterMap_cons_some hd, List.length_cons,
          List.length_cons, ih]
        omega

/-- Without failures the callbacks are the datagrams. -/
theorem forall₂_carries (h : ∀ call ∈ calls, ¬ call.outcome.Fails) :
    List.Forall₂ Carries (calls.filterMap callback) (calls.filterMap datagram) := by
  induction calls with
  | nil => exact .nil
  | cons call calls ih =>
    have hrest := ih fun other hother => h other (List.mem_cons_of_mem _ hother)
    rcases callback_of_not_fails (h call (List.mem_cons_self ..)) with
      ⟨hc, hd⟩ | ⟨c, d, hc, hd, hcarries⟩
    · rw [List.filterMap_cons_none hc, List.filterMap_cons_none hd]
      exact hrest
    · rw [List.filterMap_cons_some hc, List.filterMap_cons_some hd]
      exact .cons hcarries hrest

/-- What a call that does not fail passes on are the bytes of its datagram. -/
theorem datagram_of_callback {c : InetDest × Bytes} (h : ¬ call.outcome.Fails)
    (hc : call.callback = some c) : ∃ d, call.datagram = some d ∧ c.2 = d.data := by
  rcases callback_of_not_fails h with ⟨hnone, -⟩ | ⟨c', d, hc', hd, hcarries⟩
  · rw [hc] at hnone
    cases hnone
  · rw [hc] at hc'
    cases hc'
    exact ⟨d, hd, hcarries.data⟩

/-- An answer of a call that does not fail was decoded from its datagram. -/
theorem decode_of_completion {resolver : UdpResolver} {reqNo : UInt16} {ans : Qanswer}
    (h : ¬ call.outcome.Fails) (hans : call.completion resolver = some (.ok (reqNo, ans))) :
    ∃ d, call.datagram = some d ∧ Query.decode call.clock d.data = .ok ans := by
  obtain ⟨c, hc, hreceived⟩ := Option.map_eq_some_iff.mp hans
  obtain ⟨ans', hdecode, heq⟩ := bind_eq_ok_iff.mp hreceived
  cases heq
  obtain ⟨d, hd, hdata⟩ := datagram_of_callback h hc
  exact ⟨d, hd, hdata ▸ hdecode⟩

/-- A call that fails completes a request with an answer that has no address. -/
theorem completion_of_fails (resolver : UdpResolver) (h : call.outcome.Fails) :
    call.completion resolver =
      some (.ok (resolver.requestNo, ⟨false, 0, [], [], none, call.clock 0⟩)) := by
  obtain ⟨⟨whereFrom, hcallback⟩, -⟩ := callback_of_fails h
  have hdecode : Query.decode call.clock (List.replicate MAX_PACKET_SIZE 0) = _ :=
    decode_zeros (by decide) call.clock
  rw [completion, hcallback, Option.map_some, UdpResolver.received, hdecode]
  rfl

end ReadCall

/-- **Delivery**: a sequence of calls keeps the promise if and only if no `recvmsg` fails, other
than because it would block. -/
theorem delivers_iff_not_fails (resolver : UdpResolver) (calls : List ReadCall) :
    Delivers resolver calls ↔ ∀ call ∈ calls, ¬ call.outcome.Fails := by
  constructor
  · intro h
    have hlength := ReadCall.length_callbacks calls
    rw [h.callbacks.length_eq, Nat.left_eq_add, List.countP_eq_zero] at hlength
    exact fun call hcall hfails => hlength call hcall (decide_eq_true hfails)
  · intro h
    refine ⟨ReadCall.forall₂_carries h, fun reqNo ans hans => ?_⟩
    obtain ⟨call, hcall, hcompletion⟩ := List.mem_filterMap.mp hans
    obtain ⟨d, hd, hdecode⟩ := ReadCall.decode_of_completion (h call hcall) hcompletion
    exact ⟨d, List.mem_filterMap.mpr ⟨call, hcall, hd⟩, call.clock, hdecode⟩

/-- A lookup whose name server does not listen: the connected socket reports `ECONNREFUSED`. -/
theorem not_delivers_refused : ¬ ∀ resolver calls, Delivers resolver calls := by
  intro h
  let call : ReadCall :=
    ⟨⟨Vector.replicate 16 0, 0, 0⟩, .error (.other 111), fun _ => 0⟩
  have hdelivers := h ⟨7, [0x61], Qtype.A, 0⟩ [call]
  exact absurd hdelivers.callbacks nofun

/-! ## In the Resolver -/

namespace ResolverSystem

/-- What a lookup receives is what one of the calls of `handleRead` passes on. -/
def PassesOn (calls : List ReadCall) (_ : ResolverSystem) : LookupStep → Prop
  | .received _ datagram clock => ∃ call ∈ calls, call.clock = clock ∧
      ∃ whereFrom, call.callback = some (whereFrom, datagram)
  | .resolve .. | .enter _ | .requestComplete .. | .notSent _ | .leave .. | .queryTimedout .. =>
    True

/-- The answer was decoded from a datagram that one of the calls has received. -/
def FromDatagram (calls : List ReadCall) (ans : Qanswer) : Prop :=
  ∃ call ∈ calls, ∃ d, call.datagram = some d ∧ Query.decode call.clock d.data = .ok ans

variable {calls : List ReadCall} {s s' : ResolverSystem} {l : LookupStep} {ls : List LookupStep}

theorem fromDatagram_step (hcalls : ∀ call ∈ calls, ¬ call.outcome.Fails)
    (h : ∀ d ∈ s.delivered, FromDatagram calls d.ans) (hl : PassesOn calls s l)
    (hstep : s.step Query.decode l = .ok s') : ∀ d ∈ s'.delivered, FromDatagram calls d.ans := by
  cases moves_of_step hstep with
  | received _ _ hans =>
    intro d hd
    rcases List.mem_append.mp hd with hd | hd
    · exact h d hd
    · cases List.mem_singleton.mp hd
      obtain ⟨call, hcall, rfl, whereFrom, hcallback⟩ := hl
      obtain ⟨g, hg, hdata⟩ := ReadCall.datagram_of_callback (hcalls call hcall) hcallback
      exact ⟨call, hcall, g, hg, hdata ▸ hans⟩
  | cached | uncached | enter | ignored | more | last | notSent | leave | late | queryTimedout =>
    exact h

/-- **In every run** of the resolver in which no `recvmsg` fails, a worker completes its request
with an answer that was decoded from a datagram. -/
theorem answered_of_run (hcalls : ∀ call ∈ calls, ¬ call.outcome.Fails)
    (hpasses : AllSteps (step Query.decode) (PassesOn calls) init ls)
    (hrun : runFrom (step Query.decode) init ls = .ok s) {lookup : LookupPtr} {ans : Qanswer}
    (hmem : (lookup, .answered ans) ∈ s.workers) : FromDatagram calls ans := by
  obtain ⟨hlogged, hdelivered⟩ := AllSteps.invariant
    (fun s => Logged s ∧ ∀ d ∈ s.delivered, FromDatagram calls d.ans)
    (fun h hl hstep => ⟨logged_step h.1 hstep, fromDatagram_step hcalls h.2 hl hstep⟩)
    ⟨⟨fun d hd => (by cases hd), fun i ans hmem => (by cases hmem)⟩, fun d hd => (by cases hd)⟩
    hpasses hrun
  obtain ⟨d, hd, -, rfl⟩ := hlogged.answered lookup ans hmem
  exact hdelivered d hd

end ResolverSystem

end Epoller
