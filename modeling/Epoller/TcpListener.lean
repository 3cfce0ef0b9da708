import Epoller.TcpStream.System

/-!
# The Listener

`TcpListener` in the engine: its one-shot registration with epoll, its events in
`eventQueue` and the workers that are inside `Engine::run` for it. It overrides
`handleRead` only; `Socket::handleWrite` and `Socket::handleError` trap, and so do the
system calls behind `pErrorThrow` when they fail and the lengths of addresses and
descriptors that `accept` and `TcpStream::create` do not expect. Nobody calls
`triggerWrites` for it or removes it, the engine is not stopping, and its counter of
event numbers has not come round.

## Contents

- `ListenerHandler`, `ListenerSystem`, `ListenerStep`: the states and the labels
- `ListenerSystem.step`, `moves_of_step`: the machine, and everything a step can do
- `Serving`, `serving_step`: one token, and the connections on their way
- `Traps`, `Serving.traps_iff`: which steps trap
- `served_of_run`: every connection becomes one stream, in the order of arrival
-/

namespace Epoller

open Foundation

/-! ## The Machine -/

/-- A worker that has popped an event for the listener, and what it does next. -/
inductive ListenerHandler where
  /-- the look-up in `eventHash` at the start of `Engine::run` -/
  | entered (events : EpollEvents)
  /-- `handleWrite` -/
  | write (events : EpollEvents)
  /-- `handleRead`, or its loop again: `accept` under `lock` -/
  | accept (events : EpollEvents)
  /-- `createStream` for a connection, whose descriptor is `fd` -/
  | createStream (conn : ℕ) (fd : ℤ) (events : EpollEvents)
  /-- `handleError` or `waitingOutEvent` -/
  | finish (events : EpollEvents)
  /-- `epoll_ctl(EPOLL_CTL_MOD)` -/
  | rearm (needOut : Bool)
deriving DecidableEq, Repr

/-- The listener and what the kernel and the engine hold for it. -/
structure ListenerSystem where
  /-- The listener is in `eventHash`. -/
  registered : Bool
  /-- The registration with epoll: not armed, or armed without or with `EPOLLOUT` -/
  armed : Option Bool
  /-- A report that `epoll_wait` has returned and the epoll thread has not queued yet -/
  report : Option EpollEvents
  eventQueue : List EpollEvents
  handlers : List ListenerHandler
  /-- The connections that wait for `accept` -/
  backlog : List ℕ
  /-- The connections for which `TcpStream::create` was called -/
  streams : List ℕ
  /-- All connections, in the order in which they have arrived -/
  arrived : List ℕ
deriving DecidableEq, Repr

/-- What the calls of `::fcntl` in `makeNonBlocking` return -/
structure FcntlCalls where
  flags : ℤ
  set : ℤ
deriving DecidableEq, Repr

/-- What `::getsockopt` returns, and the length that it leaves behind -/
structure GetsockoptCall where
  ret : ℤ
  addrLen : ℕ
deriving DecidableEq, Repr

/-- What the system calls in `TcpStream::create` return -/
structure CreateCalls where
  /-- in the constructor of `Socket` -/
  socket : FcntlCalls
  /-- in the constructor of `TcpStream` -/
  tcpStream : FcntlCalls
  /-- in `originalDestination`: for IPv4, and for IPv6 if that failed -/
  ipv4 : GetsockoptCall
  ipv6 : GetsockoptCall
  /-- in `Engine::add` -/
  epollCtl : ℤ
deriving DecidableEq, Repr

inductive ListenerStep where
  /-- `Engine::add`, with what `::epoll_ctl` returned -/
  | add (ret : ℤ)
  /-- A connection arrives. -/
  | connect (conn : ℕ)
  /-- `epoll_wait` returns a report. -/
  | report (events : EpollEvents)
  /-- `newEvent` for the report -/
  | newEvent
  /-- A worker pops the next event. -/
  | pop
  | check (events : EpollEvents)
  | write (events : EpollEvents)
  /-- `Socket::accept`, with what `::accept` returned and the length that it left behind -/
  | accept (ret : ℤ) (errno : Errno) (addrLen : ℕ) (events : EpollEvents)
  | createStream (conn : ℕ) (fd : ℤ) (events : EpollEvents) (calls : CreateCalls)
  | finish (events : EpollEvents)
  /-- with what `::epoll_ctl` returned -/
  | rearm (needOut : Bool) (ret : ℤ)
deriving DecidableEq, Repr

/-- Why a step is refused. -/
inductive ListenerHalt where
  /-- "Socket::handleWrite()" -/
  | handleWrite
  /-- "Socket::handleError()" -/
  | handleError
  /-- "Unitialized fd" -/
  | unitializedFd
  /-- "Buggy address len" -/
  | buggyAddressLen
  /-- A system call has failed. -/
  | pErrorThrow
  /-- The step is not possible now. -/
  | disabled
deriving DecidableEq, Repr

/-- The connection that a worker is making a stream for -/
def ListenerHandler.creating : ListenerHandler → List ℕ
  | .createStream conn .. => [conn]
  | .entered _ | .write _ | .accept _ | .finish _ | .rearm _ => []

/-- The worker is about to see `EPOLLOUT`, or to ask for it. -/
def ListenerHandler.asksForOutput : ListenerHandler → Bool
  | .entered events | .write events => events.out
  | .accept _ | .createStream .. | .finish _ => false
  | .rearm needOut => needOut

namespace ListenerSystem

/-- `Socket::waitingOutEvent`, which the listener does not override -/
def waitingOutEvent : Bool := false

/-- `sizeof(struct sockaddr_in)` -/
def sizeofAddrIn : ℕ := 16

/-- `sizeof(struct sockaddr_in6)` -/
def sizeofAddrIn6 : ℕ := 28

/-- `pErrorThrow`, which logs the error and traps -/
def pErrorThrow (error : ℤ) : Except ListenerHalt Unit :=
  if error < 0 then .error .pErrorThrow else .ok ()

/-- An assertion -/
def require (ok : Prop) [Decidable ok] (halt : ListenerHalt) : Except ListenerHalt Unit :=
  if ok then .ok () else .error halt

/-- `Socket::makeNonBlocking` -/
def makeNonBlocking (calls : FcntlCalls) : Except ListenerHalt Unit := do
  pErrorThrow calls.flags
  pErrorThrow calls.set

/-- `Socket::originalDestination`, as far as it can trap -/
def originalDestination (ipv4 ipv6 : GetsockoptCall) : Except ListenerHalt Unit :=
  if ipv4.ret = 0 then require (ipv4.addrLen = sizeofAddrIn) .buggyAddressLen
  else if ipv6.ret = 0 then require (ipv6.addrLen = sizeofAddrIn6) .buggyAddressLen
  else .ok ()

/-- `TcpStream::create` for a descriptor, as far as it can trap -/
def create (fd : ℤ) (calls : CreateCalls) : Except ListenerHalt Unit := do
  require (0 < fd) .unitializedFd
  makeNonBlocking calls.socket
  makeNonBlocking calls.tcpStream
  originalDestination calls.ipv4 calls.ipv6
  pErrorThrow calls.epollCtl

/-- A listener that was just made. -/
def init : ListenerSystem where
  registered := false
  armed := none
  report := none
  eventQueue := []
  handlers := []
  backlog := []
  streams := []
  arrived := []

/-- The worker inside `h` goes on with `next`, or is done. -/
def advance (s : ListenerSystem) (h : ListenerHandler) (next : Option ListenerHandler) :
    ListenerSystem :=
  { s with handlers := next.toList ++ s.handlers.erase h }

/-- What a worker inside the handler `h` does. -/
def handlerStep (s : ListenerSystem) (h : ListenerHandler)
    (body : Except ListenerHalt ListenerSystem) : Except ListenerHalt ListenerSystem :=
  if h ∈ s.handlers then body else .error .disabled

def step (s : ListenerSystem) : ListenerStep → Except ListenerHalt ListenerSystem
  | .add ret =>
    if s.registered = false then do
      pErrorThrow ret
      .ok { s with registered := true, armed := some waitingOutEvent }
    else .error .disabled
  | .connect conn => .ok { s with backlog := s.backlog ++ [conn], arrived := s.arrived ++ [conn] }
  | .report events =>
    if s.armed ≠ none ∧ s.report = none ∧ (events.out = true → s.armed = some true) then
      .ok { s with armed := none, report := some events }
    else .error .disabled
  | .newEvent =>
    match s.report with
    | some events =>
      .ok { s with
        report := none
        eventQueue := if s.registered = true then s.eventQueue ++ [events] else s.eventQueue }
    | none => .error .disabled
  | .pop =>
    match s.eventQueue with
    | events :: rest => .ok { s with eventQueue := rest, handlers := .entered events :: s.handlers }
    | [] => .error .disabled
  | .check events =>
    s.handlerStep (.entered events) (.ok (s.advance (.entered events)
      (if s.registered = true then some (.write events) else none)))
  | .write events =>
    s.handlerStep (.write events) <|
      if events.out = true then .error .handleWrite
      else .ok (s.advance (.write events)
        (some (if events.inp = true then .accept events else .finish events)))
  | .accept ret errno addrLen events =>
    s.handlerStep (.accept events) do
      -- checked whether or not there is an address
      require (addrLen = sizeofAddrIn6) .buggyAddressLen
      if 0 ≤ convertFromStdError ret errno then
        match s.backlog with
        | conn :: rest =>
          .ok { s.advance (.accept events) (some (.createStream conn ret events)) with
            backlog := rest }
        | [] => .error .disabled
      else .ok (s.advance (.accept events) (some (.finish events)))
  -- `lock` is free again: it is held by `accept` alone
  | .createStream conn fd events calls =>
    s.handlerStep (.createStream conn fd events) do
      create fd calls
      .ok { s.advance (.createStream conn fd events) (some (.accept events)) with
        streams := s.streams ++ [conn] }
  | .finish events =>
    s.handlerStep (.finish events) <|
      if events.err = true then .error .handleError
      else .ok (s.advance (.finish events) (some (.rearm waitingOutEvent)))
  | .rearm needOut ret =>
    s.handlerStep (.rearm needOut) <|
      if s.registered = true then do
        pErrorThrow ret
        .ok { s.advance (.rearm needOut) none with armed := some needOut }
      else .ok (s.advance (.rearm needOut) none)

/-! ## What a Step Does -/

variable {s s' : ListenerSystem} {l : ListenerStep} {ls : List ListenerStep}

/-- **Specification of `step`**: everything a step can do. -/
inductive Moves (s : ListenerSystem) : ListenerStep → ListenerSystem → Prop where
  | add {ret : ℤ} (hfresh : s.registered = false) (hret : ¬ ret < 0) :
      Moves s (.add ret) { s with registered := true, armed := some waitingOutEvent }
  | connect (conn : ℕ) : Moves s (.connect conn)
      { s with backlog := s.backlog ++ [conn], arrived := s.arrived ++ [conn] }
  | report {events : EpollEvents} (harmed : s.armed ≠ none) (hreport : s.report = none)
      (hout : events.out = true → s.armed = some true) :
      Moves s (.report events) { s with armed := none, report := some events }
  | newEvent {events : EpollEvents} (hreport : s.report = some events) :
      Moves s .newEvent { s with
        report := none
        eventQueue := if s.registered = true then s.eventQueue ++ [events] else s.eventQueue }
  | pop {events : EpollEvents} {rest : List EpollEvents} (hqueue : s.eventQueue = events :: rest) :
      Moves s .pop { s with eventQueue := rest, handlers := .entered events :: s.handlers }
  | check {events : EpollEvents} (hmem : .entered events ∈ s.handlers) :
      Moves s (.check events) (s.advance (.entered events)
        (if s.registered = true then some (.write events) else none))
  | write {events : EpollEvents} (hmem : .write events ∈ s.handlers) (hout : ¬ events.out = true) :
      Moves s (.write events) (s.advance (.write events)
        (some (if events.inp = true then .accept events else .finish events)))
  | accepted {ret : ℤ} {errno : Errno} {addrLen : ℕ} {events : EpollEvents} {conn : ℕ}
      {rest : List ℕ} (hmem : .accept events ∈ s.handlers) (hlen : addrLen = sizeofAddrIn6)
      (hret : 0 ≤ convertFromStdError ret errno) (hbacklog : s.backlog = conn :: rest) :
      Moves s (.accept ret errno addrLen events)
        { s.advance (.accept events) (some (.createStream conn ret events)) with backlog := rest }
  /-- Nothing is left, or `accept` has failed. -/
  | refused {ret : ℤ} {errno : Errno} {addrLen : ℕ} {events : EpollEvents}
      (hmem : .accept events ∈ s.handlers) (hlen : addrLen = sizeofAddrIn6)
      (hret : ¬ 0 ≤ convertFromStdError ret errno) :
      Moves s (.accept ret errno addrLen events)
        (s.advance (.accept events) (some (.finish events)))
  | createStream {conn : ℕ} {fd : ℤ} {events : EpollEvents} {calls : CreateCalls}
      (hmem : .createStream conn fd events ∈ s.handlers) (hcreate : create fd calls = .ok ()) :
      Moves s (.createStream conn fd events calls)
        { s.advance (.createStream conn fd events) (some (.accept events)) with
          streams := s.streams ++ [conn] }
  | finish {events : EpollEvents} (hmem : .finish events ∈ s.handlers)
      (herr : ¬ events.err = true) :
      Moves s (.finish events) (s.advance (.finish events) (some (.rearm waitingOutEvent)))
  | rearm {needOut : Bool} {ret : ℤ} (hmem : .rearm needOut ∈ s.handlers)
      (hret : s.registered = true → ¬ ret < 0) :
      Moves s (.rearm needOut ret) { s.advance (.rearm needOut) none with
        armed := if s.registered = true then some needOut else s.armed }

theorem handlerStep_eq_ok_iff {h : ListenerHandler} {body : Except ListenerHalt ListenerSystem} :
    s.handlerStep h body = .ok s' ↔ h ∈ s.handlers ∧ body = .ok s' := by
  unfold handlerStep
  split <;> simp [*]

theorem pErrorThrow_eq_ok_iff {error : ℤ} {u : Unit} : pErrorThrow error = .ok u ↔ ¬ error < 0 := by
  unfold pErrorThrow
  split <;> simp [*]

theorem require_eq_ok_iff {ok : Prop} [Decidable ok] {halt : ListenerHalt} {u : Unit} :
    require ok halt = .ok u ↔ ok := by
  unfold require
  split <;> simp [*]

theorem moves_of_step (hstep : s.step l = .ok s') : Moves s l s' := by
  cases l with
  | add ret =>
    simp only [step] at hstep
    split at hstep
    · rename_i hfresh
      obtain ⟨u, hret, hs'⟩ := bind_eq_ok_iff.mp hstep
      cases hs'
      exact .add hfresh (pErrorThrow_eq_ok_iff.mp hret)
    · cases hstep
  | connect conn =>
    cases hstep
    exact .connect conn
  | report events =>
    simp only [step] at hstep
    split at hstep <;> cases hstep
    rename_i hready
    exact .report hready.1 hready.2.1 hready.2.2
  | newEvent =>
    simp only [step] at hstep
    split at hstep <;> cases hstep
    exact .newEvent ‹_›
  | pop =>
    simp only [step] at hstep
    split at hstep <;> cases hstep
    exact .pop ‹_›
  | check events =>
    obtain ⟨hmem, hbody⟩ := handlerStep_eq_ok_iff.mp hstep
    cases hbody
    exact .check hmem
  | write events =>
    obtain ⟨hmem, hbody⟩ := handlerStep_eq_ok_iff.mp hstep
    split at hbody <;> cases hbody
    exact .write hmem ‹_›
  | accept ret errno addrLen events =>
    obtain ⟨hmem, hbody⟩ := handlerStep_eq_ok_iff.mp hstep
    obtain ⟨u, hlen, hrest⟩ := bind_eq_ok_iff.mp hbody
    have hlen := require_eq_ok_iff.mp hlen
    split at hrest
    · rename_i hret
      split at hrest <;> cases hrest
      exact .accepted hmem hlen hret ‹_›
    · rename_i hret
      cases hrest
      exact .refused hmem hlen hret
  | createStream conn fd events calls =>
    obtain ⟨hmem, hbody⟩ := handlerStep_eq_ok_iff.mp hstep
    obtain ⟨u, hcreate, hs'⟩ := bind_eq_ok_iff.mp hbody
    cases hs'
    exact .createStream hmem hcreate
  | finish events =>
    obtain ⟨hmem, hbody⟩ := handlerStep_eq_ok_iff.mp hstep
    split at hbody <;> cases hbody
    exact .finish hmem ‹_›
  | rearm needOut ret =>
    obtain ⟨hmem, hbody⟩ := handlerStep_eq_ok_iff.mp hstep
    split at hbody
    · rename_i hregistered
      obtain ⟨u, hret, hs'⟩ := bind_eq_ok_iff.mp hbody
      cases hs'
      have hmoves := Moves.rearm hmem fun _ => pErrorThrow_eq_ok_iff.mp hret
      rwa [if_pos hregistered] at hmoves
    · rename_i hregistered
      cases hbody
      have hmoves : Moves s (.rearm needOut ret) _ := .rearm hmem fun h => absurd h hregistered
      rwa [if_neg hregistered] at hmoves

/-! ## One Token -/

/-- Where the listener is: armed, in a report, in `eventQueue`, or with a worker. -/
def tokens (s : ListenerSystem) : ℕ :=
  s.armed.toList.length + s.report.toList.length + s.eventQueue.length + s.handlers.length

/-- A registered listener is in one place only; the connections are streams, with the worker, or
waiting, in the order of arrival; and nothing asks for output. -/
structure Serving (s : ListenerSystem) : Prop where
  token : s.tokens = s.registered.toNat
  content : s.streams ++ (s.handlers.flatMap ListenerHandler.creating ++ s.backlog) = s.arrived
  armed : s.armed ≠ some true
  report : ∀ events, s.report = some events → ¬ events.out = true
  queued : ∀ events ∈ s.eventQueue, ¬ events.out = true
  handlers : ∀ h ∈ s.handlers, h.asksForOutput = false

theorem serving_init : Serving init :=
  ⟨rfl, rfl, nofun, nofun, fun events h => (by cases h), fun h hmem => (by cases hmem)⟩

/-- A worker that is inside has the token. -/
theorem Serving.alone (h : Serving s) {x : ListenerHandler} (hmem : x ∈ s.handlers) :
    s.registered = true ∧ s.armed = none ∧ s.report = none ∧ s.eventQueue = [] ∧
      s.handlers = [x] := by
  have htokens := h.token
  obtain ⟨y, hy⟩ | hmore : (∃ y, s.handlers = [y]) ∨ 2 ≤ s.handlers.length := by
    match hhandlers : s.handlers with
    | [] => simp [hhandlers] at hmem
    | [y] => exact Or.inl ⟨y, rfl⟩
    | y :: z :: rest => exact Or.inr (by simp)
  · rw [hy, List.mem_singleton] at hmem
    subst hmem
    rw [tokens, hy, List.length_singleton] at htokens
    have hle := Bool.toNat_le s.registered
    refine ⟨?_, ?_, ?_, ?_, hy⟩
    · exact Bool.toNat_eq_one.mp (by omega)
    · exact Option.toList_eq_nil_iff.mp (List.eq_nil_of_length_eq_zero (by omega))
    · exact Option.toList_eq_nil_iff.mp (List.eq_nil_of_length_eq_zero (by omega))
    · exact List.eq_nil_of_length_eq_zero (by omega)
  · have hle := Bool.toNat_le s.registered
    rw [tokens] at htokens
    omega

/-- The worker goes on, and keeps the token. -/
theorem Serving.proceed (h : Serving s) {x y : ListenerHandler} (hmem : x ∈ s.handlers)
    (hcontent : x.creating = y.creating) (hout : y.asksForOutput = false) :
    Serving (s.advance x (some y)) := by
  obtain ⟨-, -, -, -, hhandlers⟩ := h.alone hmem
  have htokens := h.token
  have hall := h.content
  simp only [hhandlers, tokens, List.flatMap_singleton] at htokens hall
  constructor
  case token => simpa [tokens, advance, hhandlers] using htokens
  case content => simpa [advance, hhandlers, ← hcontent] using hall
  case armed => exact h.armed
  case report => exact h.report
  case queued => exact h.queued
  case handlers =>
    intro z hz
    simp only [advance, hhandlers, Option.toList_some, List.erase_cons_head,
      List.append_nil, List.mem_singleton] at hz
    exact hz ▸ hout

/-- **Step** -/
theorem serving_step (h : Serving s) (hstep : s.step l = .ok s') : Serving s' := by
  have htokens := h.token
  have hcontent := h.content
  cases moves_of_step hstep with
  | add hfresh =>
    rw [hfresh, tokens, Bool.toNat_false] at htokens
    have hunarmed : s.armed = none :=
      Option.toList_eq_nil_iff.mp (List.eq_nil_of_length_eq_zero (by omega))
    refine { h with token := ?_, armed := nofun }
    simp only [hunarmed, Option.toList_none, List.length_nil] at htokens
    simp only [tokens, Option.toList_some, List.length_singleton, Bool.toNat_true]
    omega
  | connect conn =>
    refine { h with content := ?_ }
    simp only [← hcontent, List.append_assoc]
  | report harmed hreport hout =>
    obtain ⟨needOut, hneedOut⟩ := Option.ne_none_iff_exists'.mp harmed
    refine { h with token := ?_, armed := nofun, report := fun events' heq => ?_ }
    · simpa [tokens, hneedOut, hreport] using htokens
    · cases heq
      exact fun ho => h.armed (hout ho)
  | @newEvent events hreport =>
    have hregistered : s.registered = true := by
      have hle := Bool.toNat_le s.registered
      rw [tokens, hreport, Option.toList_some, List.length_singleton] at htokens
      exact Bool.toNat_eq_one.mp (by omega)
    rw [if_pos hregistered]
    refine { h with token := ?_, report := nofun, queued := fun events' hmem => ?_ }
    · rw [← htokens]
      simp only [tokens, hreport, Option.toList_none, Option.toList_some, List.length_append,
        List.length_nil, List.length_singleton]
      omega
    · rcases List.mem_append.mp hmem with hmem | hmem
      · exact h.queued _ hmem
      · exact List.mem_singleton.mp hmem ▸ h.report _ hreport
  | @pop events rest hqueue =>
    have hout := h.queued events (hqueue ▸ List.mem_cons_self ..)
    refine { h with
      token := ?_
      queued := fun events' hmem => h.queued _ (hqueue ▸ List.mem_cons_of_mem _ hmem)
      handlers := fun x hx => ?_ }
    · rw [← htokens]
      simp only [tokens, hqueue, List.length_cons]
      omega
    · rcases List.mem_cons.mp hx with rfl | hx
      · exact Bool.eq_false_of_not_eq_true hout
      · exact h.handlers x hx
  | @check events hmem =>
    obtain ⟨hregistered, -⟩ := h.alone hmem
    have hout : (ListenerHandler.entered events).asksForOutput = false := h.handlers _ hmem
    rw [if_pos hregistered]
    exact h.proceed hmem rfl hout
  | write hmem hout => exact h.proceed hmem (by split <;> rfl) (by split <;> rfl)
  | @accepted ret errno addrLen events conn rest hmem hlen hret hbacklog =>
    obtain ⟨-, -, -, -, hhandlers⟩ := h.alone hmem
    have hnext := h.proceed (y := .accept events) hmem rfl rfl
    refine { hnext with
      token := hnext.token
      content := ?_
      handlers := fun x hx => ?_ }
    · simpa [advance, hhandlers, ListenerHandler.creating, hbacklog] using hcontent
    · simp only [advance, hhandlers, Option.toList_some, List.erase_cons_head,
        List.append_nil, List.mem_singleton] at hx
      exact hx ▸ rfl
  | refused hmem => exact h.proceed hmem rfl rfl
  | @createStream conn fd events calls hmem =>
    obtain ⟨-, -, -, -, hhandlers⟩ := h.alone hmem
    have hnext := h.proceed (y := .createStream conn fd events) hmem rfl rfl
    refine { hnext with
      token := hnext.token
      content := ?_
      handlers := fun x hx => ?_ }
    · simpa [advance, hhandlers, ListenerHandler.creating] using hcontent
    · simp only [advance, hhandlers, Option.toList_some, List.erase_cons_head,
        List.append_nil, List.mem_singleton] at hx
      exact hx ▸ rfl
  | finish hmem herr => exact h.proceed hmem rfl rfl
  | @rearm needOut ret hmem =>
    obtain ⟨hregistered, hunarmed, hreport, hqueue, hhandlers⟩ := h.alone hmem
    have hout : needOut = false := h.handlers _ hmem
    subst hout
    rw [if_pos hregistered]
    constructor
    case token => simp [tokens, advance, hhandlers, hreport, hqueue, hregistered]
    case content => simpa [advance, hhandlers, ListenerHandler.creating] using hcontent
    case armed => exact nofun
    case report => exact h.report
    case queued => exact h.queued
    case handlers => simp [advance, hhandlers]

/-! ## Traps -/

/-- Nothing in `TcpStream::create` traps: the descriptor is above 0, the calls behind `pErrorThrow`
succeed, and the length of an address that is found is the expected one. -/
def Creates (fd : ℤ) (calls : CreateCalls) : Prop :=
  0 < fd ∧ (0 ≤ calls.socket.flags ∧ 0 ≤ calls.socket.set) ∧
    (0 ≤ calls.tcpStream.flags ∧ 0 ≤ calls.tcpStream.set) ∧
    (calls.ipv4.ret = 0 → calls.ipv4.addrLen = sizeofAddrIn) ∧
    (calls.ipv4.ret ≠ 0 → calls.ipv6.ret = 0 → calls.ipv6.addrLen = sizeofAddrIn6) ∧
    0 ≤ calls.epollCtl

/-- The step makes an assertion fail. -/
def Traps (s : ListenerSystem) : ListenerStep → Prop
  | .add ret => s.registered = false ∧ ret < 0
  | .accept _ _ addrLen events => .accept events ∈ s.handlers ∧ addrLen ≠ sizeofAddrIn6
  | .createStream conn fd events calls =>
    .createStream conn fd events ∈ s.handlers ∧ ¬ Creates fd calls
  | .finish events => .finish events ∈ s.handlers ∧ events.err = true
  | .rearm needOut ret => .rearm needOut ∈ s.handlers ∧ ret < 0
  | .connect _ | .report _ | .newEvent | .pop | .check _ | .write _ => False

/-- An assertion has failed. -/
def Trapped {α : Type} (r : Except ListenerHalt α) : Prop := ∃ e, e ≠ .disabled ∧ r = .error e

@[simp] theorem trapped_ok {α : Type} {a : α} : ¬ Trapped (.ok a) := by
  rintro ⟨e, -, h⟩
  cases h

@[simp] theorem trapped_error {α : Type} {e : ListenerHalt} :
    Trapped (.error e : Except ListenerHalt α) ↔ e ≠ .disabled := by
  simp [Trapped]

@[simp] theorem trapped_pErrorThrow {error : ℤ} : Trapped (pErrorThrow error) ↔ error < 0 := by
  unfold pErrorThrow
  split <;> simp [*]

@[simp] theorem trapped_require {ok : Prop} [Decidable ok] {halt : ListenerHalt} :
    Trapped (require ok halt) ↔ ¬ ok ∧ halt ≠ .disabled := by
  unfold require
  split <;> simp [*]

theorem trapped_bind {α β : Type} {r : Except ListenerHalt α} {f : α → Except ListenerHalt β} :
    Trapped (r >>= f) ↔ Trapped r ∨ ∃ a, r = .ok a ∧ Trapped (f a) := by
  cases r with
  | ok a => simp [ok_bind]
  | error e =>
    have herror : (Except.error e >>= f) = .error e := rfl
    simp [herror]

theorem trapped_handlerStep {h : ListenerHandler} {body : Except ListenerHalt ListenerSystem} :
    Trapped (s.handlerStep h body) ↔ h ∈ s.handlers ∧ Trapped body := by
  unfold handlerStep
  split <;> simp [*]

theorem originalDestination_eq_ok_iff {ipv4 ipv6 : GetsockoptCall} {u : Unit} :
    originalDestination ipv4 ipv6 = .ok u ↔
      (ipv4.ret = 0 → ipv4.addrLen = sizeofAddrIn) ∧
        (ipv4.ret ≠ 0 → ipv6.ret = 0 → ipv6.addrLen = sizeofAddrIn6) := by
  unfold originalDestination
  split
  · simp [require_eq_ok_iff, *]
  · split <;> simp [require_eq_ok_iff, *]

theorem trapped_originalDestination {ipv4 ipv6 : GetsockoptCall} :
    Trapped (originalDestination ipv4 ipv6) ↔
      ¬ ((ipv4.ret = 0 → ipv4.addrLen = sizeofAddrIn) ∧
        (ipv4.ret ≠ 0 → ipv6.ret = 0 → ipv6.addrLen = sizeofAddrIn6)) := by
  unfold originalDestination
  split
  · simp [*]
  · split <;> simp [*]

/-- One call after the other: what the first one requires, and what the others do -/
theorem trapped_then {α : Type} {r : Except ListenerHalt Unit} {rest : Except ListenerHalt α}
    {P Q : Prop} (hr : Trapped r ↔ ¬ P) (hok : ∀ u, r = .ok u ↔ P) (hrest : Trapped rest ↔ ¬ Q) :
    Trapped (r >>= fun _ => rest) ↔ ¬ (P ∧ Q) := by
  simp only [trapped_bind, hr, hok, hrest, exists_const]
  tauto

theorem trapped_makeNonBlocking {calls : FcntlCalls} :
    Trapped (makeNonBlocking calls) ↔ ¬ (0 ≤ calls.flags ∧ 0 ≤ calls.set) :=
  trapped_then (by simp) (by simp [pErrorThrow_eq_ok_iff]) (by simp)

theorem makeNonBlocking_eq_ok_iff {calls : FcntlCalls} {u : Unit} :
    makeNonBlocking calls = .ok u ↔ 0 ≤ calls.flags ∧ 0 ≤ calls.set := by
  simp [makeNonBlocking, bind_eq_ok_iff, pErrorThrow_eq_ok_iff]

/-- `TcpStream::create` traps in the first of its calls that fails, if there is one. -/
theorem trapped_create {fd : ℤ} {calls : CreateCalls} :
    Trapped (create fd calls) ↔ ¬ Creates fd calls := by
  refine trapped_then (by simp) (fun _ => require_eq_ok_iff) ?_
  refine trapped_then trapped_makeNonBlocking (fun _ => makeNonBlocking_eq_ok_iff) ?_
  refine trapped_then trapped_makeNonBlocking (fun _ => makeNonBlocking_eq_ok_iff) ?_
  rw [← and_assoc]
  exact trapped_then trapped_originalDestination (fun _ => originalDestination_eq_ok_iff) (by simp)

/-- **Traps**: a step traps exactly where a call fails that must not, a length is not the expected
one, a descriptor is 0, or an error is to be handled. -/
theorem Serving.traps_iff (h : Serving s) : Trapped (s.step l) ↔ s.Traps l := by
  cases l with
  | add ret =>
    simp only [step, Traps]
    split <;> simp [*, trapped_bind]
  | accept ret errno addrLen events =>
    simp only [step, Traps, trapped_handlerStep, trapped_bind]
    refine and_congr_right fun _ => ?_
    -- with the expected length there is a connection, or there is none
    refine (or_iff_left ?_).trans (by simp)
    rintro ⟨-, -, htrapped⟩
    split at htrapped
    · split at htrapped <;> simp at htrapped
    · exact trapped_ok htrapped
  | createStream conn fd events calls =>
    simp only [step, Traps, trapped_handlerStep, trapped_bind, trapped_create]
    simp
  | finish events =>
    simp only [step, Traps, trapped_handlerStep]
    refine and_congr_right fun _ => ?_
    split <;> simp [*]
  | rearm needOut ret =>
    simp only [step, Traps, trapped_handlerStep]
    refine and_congr_right fun hmem => ?_
    rw [if_pos (h.alone hmem).1]
    simp [trapped_bind]
  | write events =>
    simp only [step, Traps, trapped_handlerStep, iff_false, not_and]
    intro hmem
    have hout : events.out = false := h.handlers _ hmem
    simp [hout]
  | connect conn => simp [step, Traps]
  | report | newEvent | pop =>
    simp only [step, Traps]
    split <;> simp
  | check events => simp [step, Traps, trapped_handlerStep]

/-- **Run**: whatever epoll reports and the system calls return, every connection that has arrived
is a stream, is with the worker or waits, in the order of arrival; once the listener is registered,
either epoll is armed for it or exactly one event of it is on its way; and the steps that trap are
those that handle an error, those in which a call behind `pErrorThrow` fails, and those that find a
length or a descriptor they do not expect. -/
theorem served_of_run (hrun : runFrom step init ls = .ok s) :
    s.streams ++ (s.handlers.flatMap ListenerHandler.creating ++ s.backlog) = s.arrived ∧
      s.tokens = s.registered.toNat ∧
      ∀ l, (∃ e, e ≠ .disabled ∧ s.step l = .error e) ↔ s.Traps l := by
  have h := runFrom_invariant Serving serving_step serving_init hrun
  exact ⟨h.content, h.token, fun l => h.traps_iff⟩

/-- The calls of a stream that is made: `SO_ORIGINAL_DST` finds an address of IPv6. -/
def createdStream : CreateCalls := ⟨⟨2, 0⟩, ⟨2, 0⟩, ⟨-1, 16⟩, ⟨0, 28⟩, 0⟩

/-- Two connections arrive, and the second `accept` fails; the next report gets it. -/
def secondReport : List ListenerStep :=
  [.add 0, .connect 1, .report ⟨false, true, false⟩, .connect 2, .newEvent, .pop,
    .check ⟨false, true, false⟩, .write ⟨false, true, false⟩,
    .accept 5 (.other 0) 28 ⟨false, true, false⟩,
    .createStream 1 5 ⟨false, true, false⟩ createdStream,
    .accept (-1) (.other 24) 28 ⟨false, true, false⟩, .finish ⟨false, true, false⟩,
    .rearm false 0, .report ⟨false, true, false⟩, .newEvent, .pop, .check ⟨false, true, false⟩,
    .write ⟨false, true, false⟩, .accept 0 (.other 0) 28 ⟨false, true, false⟩]

/-- Its descriptor is 0, for which no stream can be made. -/
theorem served_second_report : ∃ s, runFrom step init secondReport = .ok s ∧
    s.streams = [1] ∧ s.handlers.flatMap ListenerHandler.creating = [2] ∧ s.tokens = 1 ∧
    ∃ e, e ≠ .disabled ∧
      s.step (.createStream 2 0 ⟨false, true, false⟩ createdStream) = .error e := by
  obtain ⟨s, hrun, hstreams, hregistered, hmem, hcreating⟩ : ∃ s,
      runFrom step init secondReport = .ok s ∧ s.streams = [1] ∧ s.registered = true ∧
      .createStream 2 0 ⟨false, true, false⟩ ∈ s.handlers ∧
      s.handlers.flatMap ListenerHandler.creating = [2] := by
    decide +kernel
  obtain ⟨-, htokens, htraps⟩ := served_of_run hrun
  refine ⟨s, hrun, hstreams, hcreating, by rw [htokens, hregistered]; rfl, ?_⟩
  exact (htraps _).mpr ⟨hmem, fun h => absurd h.1 (by decide)⟩

end ListenerSystem

end Epoller
