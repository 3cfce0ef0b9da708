import Epoller.TcpStream.Completion
import Epoller.Foundation.Runs

/-!
# Closing Both Sides

`HttpProxy` and `Remote` of `main.cpp` when the other side has closed. Either waits
for its own write queue: `disconnect` looks at the queue, and if it is not empty
leaves the rest to the next `writeComplete`. Neither function holds one lock over
its test and what it does then, so each takes several steps.

## Contents

- `ClientSide`, `ClientStep`, `ClientSide.step`: `HttpProxy` and the stream to the client
- `RemoteSide`, `RemoteStep`, `RemoteSide.step`: `Remote` and the stream to the server
- `ClientSide.Moves`, `RemoteSide.Moves`: what a step can do
- `Closing`: both
-/

namespace Epoller

open Foundation

/-- Where a call of `disconnect` is. -/
inductive CloseStage where
  /-- No call is in progress. -/
  | idle
  /-- `Remote::disconnect` has set `epDisconnected` and not looked at the queue. -/
  | flagged
  /-- `writeQueueEmpty` was true. -/
  | foundEmpty
  /-- `writeQueueEmpty` was false. -/
  | foundData
deriving DecidableEq, Repr

/-- Why a step is refused. -/
inductive CloseHalt where
  /-- "Already disconnected" -/
  | alreadyDisconnected
  | stream (halt : StreamHalt)
  /-- The step is not possible now. -/
  | disabled
deriving DecidableEq, Repr

/-! ## The Client's Side -/

/-- `HttpProxy`: the members that closing uses, and the stream to the client -/
structure ClientSide where
  out : Notifying
  disconnectWhenCompleted : Bool
  /-- A `writeComplete` has found `disconnectWhenCompleted` set and will disconnect; it holds the
  lock, so no other one runs. -/
  completing : Bool
  /-- The call of `disconnect`; the calls of successive `Remote`s do not overlap. -/
  stage : CloseStage
  /-- A call of `disconnect` has returned. -/
  returned : Bool
  /-- What the `Remote` had handed over when it closed -/
  handedBefore : Bytes
deriving DecidableEq, Repr

inductive ClientStep where
  /-- `HttpProxy::queueWrite`, also the reply to a tunnel's request -/
  | queueWrite (data : Bytes)
  | handleWrite (start : TimePointNs) (ws : List WriteCall)
  /-- A scheduled `writeComplete` runs and reads `disconnectWhenCompleted`. -/
  | writeComplete
  /-- The `writeComplete` that has found it set disconnects. -/
  | completeDisconnect
  /-- `HttpProxy::disconnect` up to `writeQueueEmpty` -/
  | testQueue
  /-- The rest of it, if the queue was empty -/
  | disconnect
  /-- The rest of it, if the queue was not empty -/
  | setDisconnectWhenCompleted
  /-- The stream is disconnected for another reason: a timer, an error, a bad request. -/
  | dropped
deriving DecidableEq, Repr

namespace ClientSide

/-- An accepted stream as `create` leaves it: its first callback is scheduled. -/
def init : ClientSide where
  out := ⟨.init true TcpStream.ACCEPTED_EGRESS_RATE, 1⟩
  disconnectWhenCompleted := false
  completing := false
  stage := .idle
  returned := false
  handedBefore := []

def step (s : ClientSide) : ClientStep → Except CloseHalt ClientSide
  | .queueWrite data => .ok { s with out := s.out.queueWrite data }
  | .handleWrite start ws =>
    match s.out.handleWrite start ws with
    | .ok out => .ok { s with out }
    | .error halt => .error (.stream halt)
  | .writeComplete =>
    if 0 < s.out.pending ∧ s.completing = false then
      .ok { s with
        out := { s.out with pending := s.out.pending - 1 }
        completing := s.disconnectWhenCompleted }
    else .error .disabled
  | .completeDisconnect =>
    if s.completing = true then .ok { s with out := s.out.disconnect, completing := false }
    else .error .disabled
  | .testQueue =>
    if s.stage = .idle then
      .ok { s with
        stage := if s.out.writeQueue = [] then .foundEmpty else .foundData
        handedBefore := s.out.sending.queued }
    else .error .disabled
  | .disconnect =>
    if s.stage = .foundEmpty then
      .ok { s with out := s.out.disconnect, stage := .idle, returned := true }
    else .error .disabled
  | .setDisconnectWhenCompleted =>
    if s.stage = .foundData then
      .ok { s with disconnectWhenCompleted := true, stage := .idle, returned := true }
    else .error .disabled
  | .dropped => .ok { s with out := s.out.disconnect }

/-- What a step can do. -/
inductive Moves (s : ClientSide) : ClientStep → ClientSide → Prop where
  | queueWrite (data : Bytes) : Moves s (.queueWrite data) { s with out := s.out.queueWrite data }
  | handleWrite {start : TimePointNs} {ws : List WriteCall} {out : Notifying}
      (hout : s.out.handleWrite start ws = .ok out) :
      Moves s (.handleWrite start ws) { s with out }
  | writeComplete (hpending : 0 < s.out.pending) (hlock : s.completing = false) :
      Moves s .writeComplete { s with
        out := { s.out with pending := s.out.pending - 1 }
        completing := s.disconnectWhenCompleted }
  | completeDisconnect (hcompleting : s.completing = true) :
      Moves s .completeDisconnect { s with out := s.out.disconnect, completing := false }
  | foundEmpty (hidle : s.stage = .idle) (hqueue : s.out.writeQueue = []) :
      Moves s .testQueue { s with stage := .foundEmpty, handedBefore := s.out.sending.queued }
  | foundData (hidle : s.stage = .idle) (hqueue : s.out.writeQueue ≠ []) :
      Moves s .testQueue { s with stage := .foundData, handedBefore := s.out.sending.queued }
  | disconnect (hfound : s.stage = .foundEmpty) :
      Moves s .disconnect { s with out := s.out.disconnect, stage := .idle, returned := true }
  | setDisconnectWhenCompleted (hfound : s.stage = .foundData) :
      Moves s .setDisconnectWhenCompleted
        { s with disconnectWhenCompleted := true, stage := .idle, returned := true }
  | dropped : Moves s .dropped { s with out := s.out.disconnect }

variable {s s' : ClientSide} {l : ClientStep}

theorem moves_of_step (hstep : s.step l = .ok s') : Moves s l s' := by
  cases l with
  | queueWrite data =>
    cases hstep
    exact .queueWrite data
  | handleWrite start ws =>
    simp only [step] at hstep
    split at hstep <;> cases hstep
    rename_i hout
    exact .handleWrite hout
  | writeComplete =>
    simp only [step] at hstep
    split at hstep <;> cases hstep
    rename_i hready
    exact .writeComplete hready.1 hready.2
  | completeDisconnect =>
    simp only [step] at hstep
    split at hstep <;> cases hstep
    rename_i hcompleting
    exact .completeDisconnect hcompleting
  | testQueue =>
    simp only [step] at hstep
    split at hstep
    · rename_i hidle
      split at hstep <;> cases hstep
      · rename_i hqueue
        exact .foundEmpty hidle hqueue
      · rename_i hqueue
        exact .foundData hidle hqueue
    · cases hstep
  | disconnect =>
    simp only [step] at hstep
    split at hstep <;> cases hstep
    rename_i hfound
    exact .disconnect hfound
  | setDisconnectWhenCompleted =>
    simp only [step] at hstep
    split at hstep <;> cases hstep
    rename_i hfound
    exact .setDisconnectWhenCompleted hfound
  | dropped =>
    cases hstep
    exact .dropped

/-- A stream that is disconnected stays so. -/
theorem disconnecting_step (h : s.out.stream.disconnecting = true) (hstep : s.step l = .ok s') :
    s'.out.stream.disconnecting = true := by
  cases moves_of_step hstep with
  | queueWrite data => exact (s.out.queueWrite_disconnecting data).trans h
  | handleWrite hout => exact (Notifying.sends_of_handleWrite hout).disconnecting.trans h
  | completeDisconnect | disconnect | dropped => rfl
  | writeComplete | foundEmpty | foundData | setDisconnectWhenCompleted => exact h

end ClientSide

/-! ## The Server's Side -/

/-- `Remote`: its members, and the stream to the server -/
structure RemoteSide where
  out : Notifying
  /-- `tcpStream.lock()` gives the stream. -/
  attached : Bool
  initWrite : Bytes
  epDisconnected : Bool
  /-- A `writeComplete` has found `epDisconnected` set and nothing to write and will disconnect; it
  holds the lock. -/
  completing : Bool
  stage : CloseStage
  /-- Everything that the `HttpProxy` has handed over -/
  handed : Bytes
  /-- What it had handed over when it closed -/
  handedBefore : Bytes
deriving DecidableEq, Repr

inductive RemoteStep where
  /-- `TcpStream::create`; `connected` says that `connect` succeeded at once. -/
  | attach (connected : Bool)
  | handleWrite (start : TimePointNs) (ws : List WriteCall)
  /-- `doWrite` up to the second `queueWrite`, if there is a stream -/
  | flush
  | doWrite (x : Bytes)
  /-- A scheduled `writeComplete` runs, up to `disconnect`. -/
  | writeComplete
  | completeDisconnect
  /-- `Remote::disconnect` up to `writeQueueEmpty` -/
  | setEpDisconnected
  | testQueue
  | disconnect
  | dropped
deriving DecidableEq, Repr

namespace RemoteSide

/-- A new `Remote`, which is given `initWrite`. -/
def init (initWrite : Bytes) : RemoteSide where
  out := ⟨.init false 0, 0⟩
  attached := false
  initWrite
  epDisconnected := false
  completing := false
  stage := .idle
  handed := initWrite
  handedBefore := []

/-- `queueWrite(initWrite)` and `initWrite.resize(0)`, if there is anything to write -/
def flushed (s : RemoteSide) : RemoteSide :=
  if s.initWrite ≠ [] then { s with out := s.out.queueWrite s.initWrite, initWrite := [] } else s

def step (s : RemoteSide) : RemoteStep → Except CloseHalt RemoteSide
  | .attach connected =>
    if s.attached = false then
      .ok { s with
        attached := true
        out := { s.out with sending := { s.out.sending with
          stream := { s.out.stream with connected } } } }
    else .error .disabled
  | .handleWrite start ws =>
    if s.attached = true then
      match s.out.handleWrite start ws with
      | .ok out => .ok { s with out }
      | .error halt => .error (.stream halt)
    else .error .disabled
  | .flush =>
    if s.attached = true ∧ s.completing = false then .ok s.flushed else .error .disabled
  | .doWrite x =>
    if s.completing = false then
      let s := { s with handed := s.handed ++ x }
      if s.attached = true then
        let s := s.flushed
        .ok { s with out := s.out.queueWrite x }
      else .ok { s with initWrite := s.initWrite ++ x }
    else .error .disabled
  | .writeComplete =>
    if 0 < s.out.pending ∧ s.completing = false then
      let s := { s with out := { s.out with pending := s.out.pending - 1 } }
      if s.initWrite ≠ [] then .ok s.flushed
      else .ok { s with completing := s.epDisconnected }
    else .error .disabled
  | .completeDisconnect =>
    if s.completing = true then .ok { s with out := s.out.disconnect, completing := false }
    else .error .disabled
  | .setEpDisconnected =>
    if s.epDisconnected = true then .error .alreadyDisconnected
    else .ok { s with epDisconnected := true, stage := .flagged, handedBefore := s.handed }
  | .testQueue =>
    if s.stage = .flagged then
      .ok { s with
        stage := if s.attached = true ∧ s.out.writeQueue = [] then .foundEmpty else .idle }
    else .error .disabled
  | .disconnect =>
    if s.stage = .foundEmpty then .ok { s with out := s.out.disconnect, stage := .idle }
    else .error .disabled
  | .dropped => .ok { s with out := s.out.disconnect }

/-- What a step can do. -/
inductive Moves (s : RemoteSide) : RemoteStep → RemoteSide → Prop where
  | attach (connected : Bool) (hnew : s.attached = false) :
      Moves s (.attach connected) { s with
        attached := true
        out := { s.out with sending := { s.out.sending with
          stream := { s.out.stream with connected } } } }
  | handleWrite {start : TimePointNs} {ws : List WriteCall} {out : Notifying}
      (hattached : s.attached = true) (hout : s.out.handleWrite start ws = .ok out) :
      Moves s (.handleWrite start ws) { s with out }
  | flush (hattached : s.attached = true) (hlock : s.completing = false) : Moves s .flush s.flushed
  | doWrite {x : Bytes} (hattached : s.attached = true) (hlock : s.completing = false) :
      Moves s (.doWrite x)
        { s.flushed with handed := s.handed ++ x, out := s.flushed.out.queueWrite x }
  /-- Before there is a stream, `initWrite` takes the data. -/
  | keep {x : Bytes} (hattached : s.attached = false) (hlock : s.completing = false) :
      Moves s (.doWrite x) { s with handed := s.handed ++ x, initWrite := s.initWrite ++ x }
  | writeInit (hpending : 0 < s.out.pending) (hlock : s.completing = false)
      (hinit : s.initWrite ≠ []) :
      Moves s .writeComplete
        { s with out := { s.out with pending := s.out.pending - 1 } }.flushed
  | writeComplete (hpending : 0 < s.out.pending) (hlock : s.completing = false)
      (hinit : s.initWrite = []) :
      Moves s .writeComplete { s with
        out := { s.out with pending := s.out.pending - 1 }
        completing := s.epDisconnected }
  | completeDisconnect (hcompleting : s.completing = true) :
      Moves s .completeDisconnect { s with out := s.out.disconnect, completing := false }
  | setEpDisconnected (hfirst : s.epDisconnected = false) :
      Moves s .setEpDisconnected
        { s with epDisconnected := true, stage := .flagged, handedBefore := s.handed }
  | foundEmpty (hflagged : s.stage = .flagged) (hattached : s.attached = true)
      (hqueue : s.out.writeQueue = []) : Moves s .testQueue { s with stage := .foundEmpty }
  /-- The rest is left to the next `writeComplete`. -/
  | leave (hflagged : s.stage = .flagged) : Moves s .testQueue { s with stage := .idle }
  | disconnect (hfound : s.stage = .foundEmpty) :
      Moves s .disconnect { s with out := s.out.disconnect, stage := .idle }
  | dropped : Moves s .dropped { s with out := s.out.disconnect }

variable {s s' : RemoteSide} {l : RemoteStep}

theorem moves_of_step (hstep : s.step l = .ok s') : Moves s l s' := by
  cases l with
  | attach connected =>
    simp only [step] at hstep
    split at hstep <;> cases hstep
    rename_i hnew
    exact .attach connected hnew
  | handleWrite start ws =>
    simp only [step] at hstep
    split at hstep
    · rename_i hattached
      split at hstep <;> cases hstep
      rename_i hout
      exact .handleWrite hattached hout
    · cases hstep
  | flush =>
    simp only [step] at hstep
    split at hstep <;> cases hstep
    rename_i hready
    exact .flush hready.1 hready.2
  | doWrite x =>
    simp only [step] at hstep
    split at hstep
    · rename_i hlock
      split at hstep <;> cases hstep
      · rename_i hattached
        -- the new data is handed over before `initWrite` is looked at
        have hmove := Moves.doWrite (x := x) hattached hlock
        unfold flushed at hmove ⊢
        split at hmove <;> simpa [*] using hmove
      · rename_i hattached
        exact .keep (Bool.eq_false_iff.mpr hattached) hlock
    · cases hstep
  | writeComplete =>
    simp only [step] at hstep
    split at hstep
    · rename_i hready
      split at hstep <;> cases hstep
      · rename_i hinit
        exact .writeInit hready.1 hready.2 hinit
      · rename_i hinit
        exact .writeComplete hready.1 hready.2 (not_not.mp hinit)
    · cases hstep
  | completeDisconnect =>
    simp only [step] at hstep
    split at hstep <;> cases hstep
    rename_i hcompleting
    exact .completeDisconnect hcompleting
  | setEpDisconnected =>
    simp only [step] at hstep
    split at hstep <;> cases hstep
    rename_i hfirst
    exact .setEpDisconnected (Bool.eq_false_iff.mpr hfirst)
  | testQueue =>
    simp only [step] at hstep
    split at hstep
    · rename_i hflagged
      cases hstep
      split
      · rename_i hempty
        exact .foundEmpty hflagged hempty.1 hempty.2
      · exact .leave hflagged
    · cases hstep
  | disconnect =>
    simp only [step] at hstep
    split at hstep <;> cases hstep
    rename_i hfound
    exact .disconnect hfound
  | dropped =>
    cases hstep
    exact .dropped

theorem flushed_of_nil (h : s.initWrite = []) : s.flushed = s := if_neg (not_not.mpr h)

theorem flushed_of_ne_nil (h : s.initWrite ≠ []) :
    s.flushed = { s with out := s.out.queueWrite s.initWrite, initWrite := [] } := if_pos h

@[simp] theorem flushed_attached (s : RemoteSide) : s.flushed.attached = s.attached := by
  unfold flushed
  split <;> rfl

@[simp] theorem flushed_handed (s : RemoteSide) : s.flushed.handed = s.handed := by
  unfold flushed
  split <;> rfl

@[simp] theorem flushed_initWrite (s : RemoteSide) : s.flushed.initWrite = [] := by
  unfold flushed
  split
  · rfl
  · rename_i hinit
    exact not_not.mp hinit

theorem flushed_disconnecting (s : RemoteSide) :
    s.flushed.out.stream.disconnecting = s.out.stream.disconnecting := by
  by_cases hinit : s.initWrite = []
  · rw [flushed_of_nil hinit]
  · rw [flushed_of_ne_nil hinit]
    exact s.out.queueWrite_disconnecting s.initWrite

/-- A stream that is disconnected stays so. -/
theorem disconnecting_step (h : s.out.stream.disconnecting = true) (hstep : s.step l = .ok s') :
    s'.out.stream.disconnecting = true := by
  cases moves_of_step hstep with
  | handleWrite _ hout => exact (Notifying.sends_of_handleWrite hout).disconnecting.trans h
  | flush => exact s.flushed_disconnecting.trans h
  | doWrite =>
    exact (Notifying.queueWrite_disconnecting _ _).trans (s.flushed_disconnecting.trans h)
  | writeInit => exact (flushed_disconnecting _).trans h
  | completeDisconnect | disconnect | dropped => rfl
  | attach | keep | writeComplete | setEpDisconnected | foundEmpty | leave => exact h

end RemoteSide

/-! ## Both -/

structure Closing where
  client : ClientSide
  remote : RemoteSide
deriving DecidableEq, Repr

inductive ClosingStep where
  | client (l : ClientStep)
  | remote (l : RemoteStep)
deriving DecidableEq, Repr

namespace Closing

def init (initWrite : Bytes) : Closing := ⟨.init, .init initWrite⟩

def step (s : Closing) : ClosingStep → Except CloseHalt Closing
  | .client l => do
    let client ← s.client.step l
    .ok { s with client }
  | .remote l => do
    let remote ← s.remote.step l
    .ok { s with remote }

end Closing

end Epoller
