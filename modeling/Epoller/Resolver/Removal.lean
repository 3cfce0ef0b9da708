import Epoller.Resolver
import Epoller.Foundation.Cursor
import Epoller.Foundation.Runs

/-!
# The Removal of a Lookup

The socket of a lookup is removed by the worker that receives on it, by the thread
that makes it if it cannot send, and by `queryTimedout`, which finds it through weak
pointers. `Engine::doRemove` asserts that it finds the socket. Here `resolve` and
`queryTimedout` make their calls one at a time, with the lock of the resolver held,
and the workers, which need the lock in `requestComplete` only, move in between.

## Contents

- `LookupSocket`, `LookupSockets`, `SocketStep`, `LookupSockets.step`: the machine
- `Moves`, `moves_of_step`: everything a step can do
- `Overlaps`: two of the three meet at a socket
- `removal_of_run`: without that the assertion never fails
-/

namespace Epoller

open Foundation Query

/-! ## States -/

/-- The one-shot registration of a socket with epoll, and what became of its last report. -/
inductive RunStage where
  | armed
  /-- `epoll_wait` has returned a report. -/
  | reported
  /-- The event is in `eventQueue`. -/
  | queued
  /-- A worker holds the socket, before the look-up in `eventHash`. -/
  | popped
  /-- The worker has found the socket and is about to read. -/
  | entered
  /-- `UdpResolver::received` has called `disconnect` and goes on to `requestComplete`. -/
  | answered (ans : Qanswer)
  /-- `handleRead` has returned. -/
  | finishing
  /-- No worker holds the socket, and it is not armed. -/
  | idle
deriving DecidableEq, Repr

/-- A worker holds the socket. -/
def RunStage.inside : RunStage → Bool
  | popped | entered | answered _ | finishing => true
  | armed | reported | queued | idle => false

/-- A `UdpResolver` and its `UdpSocket` -/
structure LookupSocket where
  requestNo : UInt16
  /-- The socket is in `eventHash`. -/
  registered : Bool
  run : RunStage
  /-- `UdpResolver::received` has been called. -/
  received : Bool
deriving DecidableEq, Repr

/-- What the holder of the lock is at with the socket of a lookup. -/
inductive LockedCall where
  /-- `connect` and `queueWrite` in `UdpSocket::create` -/
  | sending (lookup : LookupPtr)
  /-- `resolver->disconnect()` has locked the weak pointer to the socket. -/
  | holding (lookup : LookupPtr)
deriving DecidableEq, Repr

/-- The resolver and the sockets of its lookups. -/
structure LookupSockets where
  impl : ResolverImpl
  /-- The lookups, in the order they were made -/
  sockets : List LookupSocket
  /-- The lock of the resolver is held, and these calls are still to be made. -/
  calls : Option (List ResolverCall)
  within : Option LockedCall
deriving DecidableEq

/-- A step of the holder of the lock, the epoll thread or a worker. -/
inductive SocketStep where
  /-- `resolve`, up to its calls -/
  | resolve (client : ClientPtr) (name : Bytes) (prefs : AddrPref) (timeout : NanoSecs)
  /-- `queryTimedout`, up to its calls -/
  | queryTimedout (queryId : UInt16) (behind : List UInt16)
  /-- The next call: `UdpSocket::create` up to `Engine::add`, the weak pointer of a `disconnect`,
  or a call that does not concern the sockets -/
  | call
  | sent
  | notSent
  /-- `Engine::remove` in a `disconnect` -/
  | disconnect
  | unlock
  | report (lookup : LookupPtr)
  | newEvent (lookup : LookupPtr)
  | pop (lookup : LookupPtr)
  | check (lookup : LookupPtr)
  /-- `handleRead` finds nothing to read. -/
  | wouldBlock (lookup : LookupPtr)
  /-- `UdpResolver::received` up to the lock, with what `decode` makes of the datagram -/
  | received (lookup : LookupPtr) (ans : Qanswer)
  | requestComplete (lookup : LookupPtr)
  /-- The end of `Engine::run`: `handleError`, or the registration is armed again. -/
  | finish (lookup : LookupPtr) (err : Bool)
deriving DecidableEq, Repr

namespace LookupSockets

def init : LookupSockets := ⟨.init, [], none, none⟩

/-! ## Steps -/

def setSocket (s : LookupSockets) (i : LookupPtr) (socket : LookupSocket) : LookupSockets :=
  { s with sockets := s.sockets.set i socket }

/-- A step at the socket of a lookup. -/
def withSocket (s : LookupSockets) (i : LookupPtr)
    (body : LookupSocket → Except ResolverHalt LookupSockets) :
    Except ResolverHalt LookupSockets :=
  match s.sockets[i]? with
  | some socket => body socket
  | none => .error .disabled

/-- The socket exists: the engine, a worker or `create` holds it. -/
def alive (s : LookupSockets) (i : LookupPtr) (socket : LookupSocket) : Bool :=
  socket.registered || socket.run.inside || s.within == some (.sending i)

/-- `Engine::doRemove` -/
def remove (s : LookupSockets) (i : LookupPtr) (socket : LookupSocket) :
    Except ResolverHalt LookupSockets :=
  if socket.registered = true then .ok (s.setSocket i { socket with registered := false })
  else .error .notFoundForRemoval

/-- A call of `resolve` or `queryTimedout` -/
def perform (s : LookupSockets) : ResolverCall → Except ResolverHalt LookupSockets
  | .create requestNo _ _ =>
    .ok { s with
      sockets := s.sockets ++ [⟨requestNo, true, .armed, false⟩]
      within := some (.sending s.sockets.length) }
  | .disconnect i =>
    s.withSocket i fun socket =>
      if s.alive i socket = true then .ok { s with within := some (.holding i) } else .ok s
  | .resolved .. | .notResolved _ | .setTimer .. | .cancelTimer _ => .ok s

def step (s : LookupSockets) : SocketStep → Except ResolverHalt LookupSockets
  | .resolve client name prefs timeout =>
    if s.calls = none then
      let (impl, calls) := s.impl.resolve s.sockets.length client name prefs timeout
      .ok { s with impl, calls := some calls }
    else .error .disabled
  | .queryTimedout queryId behind =>
    if s.calls = none then do
      let (impl, calls) ← s.impl.queryTimedout queryId behind
      .ok { s with impl, calls := some calls }
    else .error .disabled
  | .call =>
    match s.within, s.calls with
    | none, some (call :: rest) => { s with calls := some rest }.perform call
    | _, _ => .error .disabled
  | .sent =>
    match s.within with
    | some (.sending _) => .ok { s with within := none }
    | _ => .error .disabled
  | .notSent =>
    match s.within with
    | some (.sending i) =>
      s.withSocket i fun socket => do
        let t ← s.remove i socket
        .ok { t with within := none, impl := (t.impl.requestError socket.requestNo).1 }
    | _ => .error .disabled
  | .disconnect =>
    match s.within with
    | some (.holding i) =>
      s.withSocket i fun socket => do
        let t ← s.remove i socket
        .ok { t with within := none }
    | _ => .error .disabled
  | .unlock =>
    match s.within, s.calls with
    | none, some [] => .ok { s with calls := none }
    | _, _ => .error .disabled
  | .report i =>
    s.withSocket i fun socket =>
      if socket.run = .armed ∧ s.alive i socket = true then
        .ok (s.setSocket i { socket with run := .reported })
      else .error .disabled
  | .newEvent i =>
    s.withSocket i fun socket =>
      if socket.run = .reported then
        .ok (s.setSocket i { socket with
          run := if socket.registered = true then .queued else .idle })
      else .error .disabled
  | .pop i =>
    s.withSocket i fun socket =>
      if socket.run = .queued then
        .ok (s.setSocket i { socket with
          run := if s.alive i socket = true then .popped else .idle })
      else .error .disabled
  | .check i =>
    s.withSocket i fun socket =>
      if socket.run = .popped then
        .ok (s.setSocket i { socket with
          run := if socket.registered = true then .entered else .idle })
      else .error .disabled
  | .wouldBlock i =>
    s.withSocket i fun socket =>
      if socket.run = .entered then .ok (s.setSocket i { socket with run := .finishing })
      else .error .disabled
  | .received i ans =>
    s.withSocket i fun socket =>
      if socket.run = .entered then
        s.remove i { socket with run := .answered ans, received := true }
      else .error .disabled
  | .requestComplete i =>
    s.withSocket i fun socket =>
      match socket.run with
      | .answered ans =>
        if s.calls = none then do
          let (impl, _) ← s.impl.requestComplete socket.requestNo ans
          .ok { s.setSocket i { socket with run := .finishing } with impl }
        else .error .disabled
      | _ => .error .disabled
  | .finish i err =>
    s.withSocket i fun socket =>
      if socket.run = .finishing then
        .ok (s.setSocket i { socket with
          run := if err = false ∧ socket.registered = true then .armed else .idle })
      else .error .disabled

/-! ## Everything a Step Can Do -/

variable {s s' : LookupSockets} {l : SocketStep} {ls : List SocketStep} {i : LookupPtr}
  {socket : LookupSocket}

theorem withSocket_eq_ok_iff {body : LookupSocket → Except ResolverHalt LookupSockets} :
    s.withSocket i body = .ok s' ↔
      ∃ socket, s.sockets[i]? = some socket ∧ body socket = .ok s' := by
  unfold withSocket
  split <;> simp [*]

theorem remove_eq_ok_iff : s.remove i socket = .ok s' ↔
    socket.registered = true ∧ s' = s.setSocket i { socket with registered := false } := by
  unfold remove
  split <;> simp [*, eq_comm]

/-- A removal that is found, and then the rest of the step. -/
theorem withSocket_remove_eq_ok_iff {rest : LookupSocket → LookupSockets → LookupSockets} :
    (s.withSocket i fun socket => do let t ← s.remove i socket; .ok (rest socket t)) = .ok s' ↔
      ∃ socket, s.sockets[i]? = some socket ∧
        s' = rest socket (s.setSocket i { socket with registered := false }) ∧
        socket.registered = true := by
  rw [withSocket_eq_ok_iff]
  refine exists_congr fun socket => and_congr_right fun _ => ?_
  rw [bind_eq_ok_iff]
  constructor
  · rintro ⟨t, ht, hs'⟩
    obtain ⟨hregistered, rfl⟩ := remove_eq_ok_iff.mp ht
    cases hs'
    exact ⟨rfl, hregistered⟩
  · rintro ⟨rfl, hregistered⟩
    exact ⟨_, remove_eq_ok_iff.mpr ⟨hregistered, rfl⟩, rfl⟩

/-- **Specification of `step`** -/
inductive Moves (s : LookupSockets) : SocketStep → LookupSockets → Prop where
  /-- No socket is concerned. -/
  | other {l : SocketStep} (impl : ResolverImpl) (calls : Option (List ResolverCall)) :
      Moves s l { s with impl, calls }
  | create {requestNo : UInt16} (calls : Option (List ResolverCall)) (hfree : s.within = none) :
      Moves s .call { s with
        sockets := s.sockets ++ [⟨requestNo, true, .armed, false⟩]
        calls
        within := some (.sending s.sockets.length) }
  | hold {i : LookupPtr} {socket : LookupSocket} {rest : List ResolverCall}
      (hfree : s.within = none) (hcalls : s.calls = some (.disconnect i :: rest))
      (hsocket : s.sockets[i]? = some socket) (halive : s.alive i socket = true) :
      Moves s .call { s with calls := some rest, within := some (.holding i) }
  | sent : Moves s .sent { s with within := none }
  | notSent {i : LookupPtr} {socket : LookupSocket} (impl : ResolverImpl)
      (hwithin : s.within = some (.sending i)) (hsocket : s.sockets[i]? = some socket) :
      Moves s .notSent
        { s.setSocket i { socket with registered := false } with within := none, impl }
  | disconnect {i : LookupPtr} {socket : LookupSocket}
      (hwithin : s.within = some (.holding i)) (hsocket : s.sockets[i]? = some socket) :
      Moves s .disconnect { s.setSocket i { socket with registered := false } with within := none }
  /-- A worker or the epoll thread goes on. -/
  | proceed {l : SocketStep} {i : LookupPtr} {socket : LookupSocket} {run : RunStage}
      (impl : ResolverImpl) (hsocket : s.sockets[i]? = some socket) (hentered : run ≠ .entered) :
      Moves s l { s.setSocket i { socket with run } with impl }
  | enter {i : LookupPtr} {socket : LookupSocket} (hsocket : s.sockets[i]? = some socket)
      (hregistered : socket.registered = true) :
      Moves s (.check i) (s.setSocket i { socket with run := .entered })
  | received {i : LookupPtr} {socket : LookupSocket} {ans : Qanswer}
      (hsocket : s.sockets[i]? = some socket) (hrun : socket.run = .entered) :
      Moves s (.received i ans)
        (s.setSocket i { socket with registered := false, run := .answered ans, received := true })

theorem moves_of_step (hstep : s.step l = .ok s') : Moves s l s' := by
  cases l with
  | resolve client name prefs timeout =>
    simp only [step] at hstep
    split at hstep <;> cases hstep
    exact .other _ _
  | queryTimedout queryId behind =>
    simp only [step] at hstep
    split at hstep
    · obtain ⟨⟨impl, calls⟩, -, hs'⟩ := bind_eq_ok_iff.mp hstep
      cases hs'
      exact .other _ _
    · cases hstep
  | call =>
    simp only [step] at hstep
    split at hstep
    · rename_i call rest hfree hcalls
      cases call with
      | create requestNo =>
        cases hstep
        exact .create _ hfree
      | disconnect i =>
        obtain ⟨socket, hsocket, hbody⟩ := withSocket_eq_ok_iff.mp hstep
        split at hbody <;> cases hbody
        · exact .hold hfree hcalls hsocket ‹_›
        · exact .other _ _
      | resolved | notResolved | setTimer | cancelTimer =>
        cases hstep
        exact .other _ _
    · cases hstep
  | sent =>
    simp only [step] at hstep
    split at hstep <;> cases hstep
    exact .sent
  | notSent =>
    simp only [step] at hstep
    split at hstep
    · rename_i i hwithin
      obtain ⟨socket, hsocket, rfl, -⟩ := withSocket_remove_eq_ok_iff.mp hstep
      exact .notSent _ hwithin hsocket
    · cases hstep
  | disconnect =>
    simp only [step] at hstep
    split at hstep
    · rename_i i hwithin
      obtain ⟨socket, hsocket, rfl, -⟩ := withSocket_remove_eq_ok_iff.mp hstep
      exact .disconnect hwithin hsocket
    · cases hstep
  | unlock =>
    simp only [step] at hstep
    split at hstep <;> cases hstep
    exact .other _ _
  | report i | wouldBlock i =>
    obtain ⟨socket, hsocket, hbody⟩ := withSocket_eq_ok_iff.mp hstep
    split at hbody <;> cases hbody
    exact .proceed _ hsocket (by simp)
  | newEvent i | pop i | finish i err =>
    obtain ⟨socket, hsocket, hbody⟩ := withSocket_eq_ok_iff.mp hstep
    split at hbody <;> cases hbody
    exact .proceed _ hsocket (by split <;> simp)
  | check i =>
    obtain ⟨socket, hsocket, hbody⟩ := withSocket_eq_ok_iff.mp hstep
    split at hbody <;> cases hbody
    by_cases hregistered : socket.registered = true
    · rw [if_pos hregistered]
      exact .enter hsocket hregistered
    · rw [if_neg hregistered]
      exact .proceed _ hsocket (by simp)
  | received i ans =>
    obtain ⟨socket, hsocket, hbody⟩ := withSocket_eq_ok_iff.mp hstep
    split at hbody
    · rename_i hrun
      obtain ⟨-, rfl⟩ := remove_eq_ok_iff.mp hbody
      have hmove : Moves s (.received i ans) _ := .received hsocket hrun
      exact hmove
    · cases hbody
  | requestComplete i =>
    obtain ⟨socket, hsocket, hbody⟩ := withSocket_eq_ok_iff.mp hstep
    split at hbody
    · rename_i ans hrun
      split at hbody
      · obtain ⟨⟨impl, calls⟩, -, hs'⟩ := bind_eq_ok_iff.mp hbody
        cases hs'
        exact .proceed _ hsocket (by simp)
      · cases hbody
    · cases hbody

/-! ## Who May Remove -/

/-- Two of the three meet at a socket: `queryTimedout` locks the weak pointer while a worker is
about to read, or still holds a socket that has been removed; a worker finds the socket in
`eventHash` while `queryTimedout` is disconnecting it; or a send fails while a worker is about to
read, or after it has received. -/
def Overlaps (s : LookupSockets) : SocketStep → Prop
  | .call => ∃ i rest socket, s.calls = some (.disconnect i :: rest) ∧
      s.sockets[i]? = some socket ∧
      (socket.run = .entered ∨ socket.run.inside = true ∧ socket.registered = false)
  | .check i => s.within = some (.holding i)
  | .notSent => ∃ i socket, s.within = some (.sending i) ∧ s.sockets[i]? = some socket ∧
      (socket.run = .entered ∨ socket.received = true)
  | _ => False

instance Overlaps.decidable (s : LookupSockets) : ∀ l, Decidable (Overlaps s l)
  | .call =>
    match hcalls : s.calls with
    | some (.disconnect i :: rest) =>
      decidable_of_iff (∃ socket ∈ s.sockets[i]?,
          socket.run = .entered ∨ socket.run.inside = true ∧ socket.registered = false)
        ⟨fun ⟨socket, hsocket, h⟩ => ⟨i, rest, socket, hcalls, hsocket, h⟩,
          fun ⟨_, _, socket, heq, hsocket, h⟩ => by
            cases hcalls.symm.trans heq
            exact ⟨socket, hsocket, h⟩⟩
    | some (.create .. :: _) | some (.resolved .. :: _) | some (.notResolved _ :: _)
    | some (.setTimer .. :: _) | some (.cancelTimer _ :: _) | some [] | none =>
      .isFalse fun ⟨_, _, _, heq, _⟩ => by cases hcalls.symm.trans heq
  | .check i => inferInstanceAs (Decidable (s.within = some (.holding i)))
  | .notSent =>
    match hwithin : s.within with
    | some (.sending i) =>
      decidable_of_iff (∃ socket ∈ s.sockets[i]?,
          socket.run = .entered ∨ socket.received = true)
        ⟨fun ⟨socket, hsocket, h⟩ => ⟨i, socket, hwithin, hsocket, h⟩,
          fun ⟨_, socket, heq, hsocket, h⟩ => by
            cases hwithin.symm.trans heq
            exact ⟨socket, hsocket, h⟩⟩
    | some (.holding _) | none => .isFalse fun ⟨_, _, heq, _⟩ => by cases hwithin.symm.trans heq
  | .resolve .. | .queryTimedout .. | .sent | .disconnect | .unlock | .report _ | .newEvent _
  | .pop _ | .wouldBlock _ | .received .. | .requestComplete _ | .finish .. =>
    instDecidableFalse

/-- Who is about to remove a socket finds it. -/
structure SocketOk (within : Option LockedCall) (i : LookupPtr) (socket : LookupSocket) :
    Prop where
  entered : socket.run = .entered → socket.registered = true
  sending : within = some (.sending i) → socket.received = false → socket.registered = true
  holding : within = some (.holding i) → socket.registered = true ∧ socket.run ≠ .entered

/-- **The invariant** -/
def SocketsOk (s : LookupSockets) : Prop :=
  ∀ i socket, s.sockets[i]? = some socket → SocketOk s.within i socket

/-- Who is within nothing endangers no socket. -/
theorem SocketOk.free {within : Option LockedCall} (h : SocketOk within i socket) :
    SocketOk none i socket :=
  ⟨h.entered, fun hw => (by cases hw), fun hw => (by cases hw)⟩

/-- A step at one socket -/
theorem SocketsOk.set (h : SocketsOk s) (within : Option LockedCall) (impl : ResolverImpl)
    (hsocket : SocketOk within i socket)
    (hothers : ∀ j other, SocketOk s.within j other → SocketOk within j other) :
    SocketsOk { s.setSocket i socket with within, impl } := by
  intro j other hj
  change (s.sockets.set i socket)[j]? = some other at hj
  by_cases heq : i = j
  · subst heq
    rw [List.getElem?_set_self'] at hj
    obtain ⟨-, -, rfl⟩ := Option.map_eq_some_iff.mp hj
    exact hsocket
  · rw [List.getElem?_set_ne heq] at hj
    exact hothers j other (h j other hj)

/-- A worker holds the socket that has been removed and still exists. -/
theorem inside_of_alive (halive : s.alive i socket = true) (hfree : s.within = none)
    (hgone : socket.registered = false) : socket.run.inside = true := by
  simpa [alive, hfree, hgone] using halive

/-- **Step**: without an overlap the invariant is kept. -/
theorem SocketsOk.step (h : SocketsOk s) (hoverlaps : ¬ Overlaps s l) (hstep : s.step l = .ok s') :
    SocketsOk s' := by
  cases moves_of_step hstep with
  | other => exact h
  | @create requestNo calls hfree =>
    intro j other hj
    -- the new socket is registered and armed
    rcases Nat.lt_or_ge j s.sockets.length with hlt | hge
    · have hj' : s.sockets[j]? = some other := (List.getElem?_append_left hlt).symm.trans hj
      have hne : some (LockedCall.sending s.sockets.length) ≠ some (.sending j) := fun heq =>
        Nat.ne_of_gt hlt (LockedCall.sending.inj (Option.some.inj heq))
      exact ⟨(h j other hj').entered, fun hw => absurd hw hne, fun hw => (by cases hw)⟩
    · have hj' : [(⟨requestNo, true, .armed, false⟩ : LookupSocket)][j - s.sockets.length]? =
          some other := (List.getElem?_append_right hge).symm.trans hj
      have hmem := List.mem_of_getElem? hj'
      rw [List.mem_singleton] at hmem
      subst hmem
      exact ⟨fun hr => (by cases hr), fun _ _ => rfl, fun _ => ⟨rfl, fun hr => (by cases hr)⟩⟩
  | @hold i socket rest hfree hcalls hsocket halive =>
    -- the weak pointer could be locked: a socket that no worker holds is registered
    intro j other hj
    refine ⟨(h j other hj).entered, fun hw => (by cases hw), fun hw => ?_⟩
    cases hw
    cases hsocket.symm.trans hj
    have hapart : ¬ (socket.run = .entered ∨
        socket.run.inside = true ∧ socket.registered = false) := fun hmeet =>
      hoverlaps ⟨i, rest, socket, hcalls, hsocket, hmeet⟩
    refine ⟨?_, fun hrun => hapart (.inl hrun)⟩
    by_contra hgone
    have hgone' : socket.registered = false := Bool.eq_false_of_not_eq_true hgone
    exact hapart (.inr ⟨inside_of_alive halive hfree hgone', hgone'⟩)
  | sent => exact fun j other hj => (h j other hj).free
  | @notSent i socket _ hwithin hsocket =>
    -- a worker that is about to read would not find the socket any more
    refine h.set none _ ⟨fun hrun => ?_, fun hw => (by cases hw), fun hw => (by cases hw)⟩
      fun _ _ hok => hok.free
    exact absurd ⟨i, socket, hwithin, hsocket, Or.inl hrun⟩ hoverlaps
  | @disconnect i socket hwithin hsocket =>
    refine h.set none _ ⟨fun hrun => ?_, fun hw => (by cases hw), fun hw => (by cases hw)⟩
      fun _ _ hok => hok.free
    exact absurd hrun ((h i socket hsocket).holding hwithin).2
  | @proceed _ i socket run impl hsocket hentered =>
    have hok := h i socket hsocket
    exact h.set s.within impl ⟨fun hrun => absurd hrun hentered, hok.sending,
      fun hw => ⟨(hok.holding hw).1, hentered⟩⟩ fun _ _ hother => hother
  | @enter i socket hsocket hregistered =>
    have hok := h i socket hsocket
    exact h.set s.within s.impl ⟨fun _ => hregistered, hok.sending,
      fun hw => absurd hw hoverlaps⟩ fun _ _ hother => hother
  | @received i socket ans hsocket hrun =>
    -- `queryTimedout` is not disconnecting a socket that a worker is about to read
    have hok := h i socket hsocket
    exact h.set s.within s.impl ⟨fun hr => (by cases hr), fun _ hr => (by cases hr),
      fun hw => absurd hrun (hok.holding hw).2⟩ fun _ _ hother => hother

theorem socketsOk_init : SocketsOk init := fun _ _ h => (by simp [init] at h)

/-! ## The Assertion -/

theorem withSocket_ne_notFound {body : LookupSocket → Except ResolverHalt LookupSockets}
    (h : ∀ socket, s.sockets[i]? = some socket → body socket ≠ .error .notFoundForRemoval) :
    s.withSocket i body ≠ .error .notFoundForRemoval := by
  unfold withSocket
  split
  · exact h _ ‹_›
  · nofun

theorem remove_ne_notFound (h : socket.registered = true) :
    s.remove i socket ≠ .error .notFoundForRemoval := by
  rw [remove, if_pos h]
  nofun

/-- A removal of a registered socket, and then the rest of the step. -/
theorem remove_bind_ne_notFound {rest : LookupSockets → LookupSockets}
    (h : socket.registered = true) :
    (do let t ← s.remove i socket; .ok (rest t)) ≠
      (.error .notFoundForRemoval : Except ResolverHalt LookupSockets) := by
  rw [remove, if_pos h]
  nofun

theorem timeoutLoop_ne_notFound (behind : List UInt16) (impl : ResolverImpl) (client : ClientPtr)
    (calls : List ResolverCall) :
    ResolverImpl.timeoutLoop behind impl client calls ≠ .error .notFoundForRemoval := by
  induction behind generalizing impl client calls with
  | nil => nofun
  | cons reqNo rest ih =>
    rw [ResolverImpl.timeoutLoop, ResolverImpl.timeoutRound]
    split
    · nofun
    · split
      · exact ih _ _ _
      · nofun

/-- `queryTimedout` only collects its calls. -/
theorem queryTimedout_ne_notFound (impl : ResolverImpl) (queryId : UInt16) (behind : List UInt16) :
    impl.queryTimedout queryId behind ≠ .error .notFoundForRemoval := by
  unfold ResolverImpl.queryTimedout
  split
  · exact timeoutLoop_ne_notFound (queryId :: behind) impl 0 []
  · split <;> nofun

theorem requestComplete_ne_notFound (impl : ResolverImpl) (reqNo : UInt16) (ans : Qanswer) :
    impl.requestComplete reqNo ans ≠ .error .notFoundForRemoval := by
  unfold ResolverImpl.requestComplete
  split
  · nofun
  · split
    · nofun
    · simp only
      split
      · split <;> nofun
      · nofun

/-- Under the invariant every socket that is to be removed is found. -/
theorem SocketsOk.step_ne_notFound (h : SocketsOk s) (hoverlaps : ¬ Overlaps s l) :
    s.step l ≠ .error .notFoundForRemoval := by
  cases l with
  | resolve | sent | unlock =>
    rw [LookupSockets.step]
    split <;> nofun
  | queryTimedout queryId behind =>
    rw [LookupSockets.step]
    split
    · cases hcalls : s.impl.queryTimedout queryId behind with
      | ok a => nofun
      | error e =>
        rintro ⟨rfl⟩
        exact queryTimedout_ne_notFound _ _ _ hcalls
    · nofun
  | call =>
    rw [LookupSockets.step]
    split
    · rename_i call rest _ _
      cases call with
      | disconnect i => exact withSocket_ne_notFound fun socket _ => (by split <;> nofun)
      | create | resolved | notResolved | setTimer | cancelTimer => nofun
    · nofun
  | notSent =>
    rw [LookupSockets.step]
    split
    · rename_i i hwithin
      refine withSocket_ne_notFound fun socket hsocket => remove_bind_ne_notFound ?_
      refine (h i socket hsocket).sending hwithin (Bool.eq_false_of_not_eq_true fun hr => ?_)
      exact hoverlaps ⟨i, socket, hwithin, hsocket, .inr hr⟩
    · nofun
  | disconnect =>
    rw [LookupSockets.step]
    split
    · rename_i i hwithin
      exact withSocket_ne_notFound fun socket hsocket =>
        remove_bind_ne_notFound ((h i socket hsocket).holding hwithin).1
    · nofun
  | received i ans =>
    refine withSocket_ne_notFound fun socket hsocket => ?_
    split
    · exact remove_ne_notFound ((h i socket hsocket).entered ‹_›)
    · nofun
  | requestComplete i =>
    refine withSocket_ne_notFound fun socket _ => ?_
    split
    · split
      · rename_i ans _ _
        cases hcalls : s.impl.requestComplete socket.requestNo ans with
        | ok a => nofun
        | error e =>
          rintro ⟨rfl⟩
          exact requestComplete_ne_notFound _ _ _ hcalls
      · nofun
    · nofun
  | report i | newEvent i | pop i | check i | wouldBlock i | finish i err =>
    exact withSocket_ne_notFound fun socket _ => (by split <;> nofun)

/-- **One removal**: in every run in which no two of the three meet at a socket, the assertion never
fails. -/
theorem removal_of_run (hoverlaps : AllSteps step (fun s l => ¬ Overlaps s l) init ls) :
    AllSteps step (fun s l => s.step l ≠ .error .notFoundForRemoval) init ls :=
  AllSteps.imp_of_invariant SocketsOk SocketsOk.step_ne_notFound SocketsOk.step socketsOk_init
    hoverlaps

/-- A name is looked up, the answer comes, and a worker is at it: `UdpResolver::received` has called
`disconnect`. -/
def answerReceived : List SocketStep :=
  [.resolve 7 [0x61] .Ipv4Only 5, .call, .sent, .call, .unlock, .report 0, .newEvent 0, .pop 0,
    .check 0, .received 0 ⟨true, 0, [0x61], [], none, 0⟩]

/-- The timeout comes after the worker has left. -/
theorem removal_answered : ∃ ls, ∃ s : LookupSockets, runFrom step init ls = .ok s ∧
    s.sockets = [⟨0, false, .idle, true⟩] ∧
    AllSteps step (fun s l => s.step l ≠ .error .notFoundForRemoval) init ls := by
  refine ⟨answerReceived ++ [.requestComplete 0, .finish 0 false, .queryTimedout 0 [], .unlock], ?_⟩
  obtain ⟨s, hrun, hsockets⟩ : ∃ s : LookupSockets, runFrom step init (answerReceived ++
      [.requestComplete 0, .finish 0 false, .queryTimedout 0 [], .unlock]) = .ok s ∧
      s.sockets = [⟨0, false, .idle, true⟩] := by
    decide +kernel
  exact ⟨s, hrun, hsockets, removal_of_run (by decide +kernel)⟩

/-- The timeout comes while the worker still holds the socket: both disconnect it. -/
theorem not_removal_both : ¬ ∀ ls : List SocketStep,
    AllSteps step (fun s l => s.step l ≠ .error .notFoundForRemoval) init ls := by
  intro h
  obtain ⟨s, hrun, hfails⟩ : ∃ s : LookupSockets,
      runFrom step init (answerReceived ++ [.queryTimedout 0 [], .call]) = .ok s ∧
      s.step .disconnect = .error .notFoundForRemoval := by
    decide +kernel
  have hdisconnect : AllSteps step (fun s l => s.step l ≠ .error .notFoundForRemoval) s
      [.disconnect] := (h _).append_right hrun
  exact hdisconnect.head hfails

end LookupSockets

end Epoller
