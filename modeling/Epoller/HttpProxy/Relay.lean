import Epoller.HttpProxy.Replay
import Epoller.HttpProxy.Buffering
import Epoller.TcpStream.Conservation

/-!
# Through the Proxy

The stream of a client, its `HttpProxy`, the first `Remote` that it creates and
the stream to the origin, as long as all of them live. The two streams are read
and written by different workers: a step is what one thread does under one lock,
and the calls that `HttpProxy::received` makes are steps of their own.

## Contents

- `Relay`, `RelayStep`, `Relay.step`: the machine
- `Relay.Phase`, `phase_step`: how far the proxy is, and what has reached the `Remote`
- `Relay.Replied`, `replied_step`: where the reply stands among the origin's bytes
- `relayed_to_origin`, `relayed_to_client`: the two directions as one channel each
-/

namespace Epoller

open Foundation

/-! ## The Machine -/

/-- The two streams and what is between them. -/
structure Relay where
  proxy : HttpProxy
  /-- The calls that `HttpProxy::received` has still to make -/
  calls : List ProxyCall
  remote : Option Buffering
  /-- The stream to the origin -/
  origin : Sending
  /-- The stream to the client -/
  client : Sending
  /-- The chunk with which `Remote::received` was called -/
  arriving : Option Bytes
  /-- Everything that was read from the client -/
  fromClient : Bytes
  /-- What had been read from the client when the `Remote` was created, or up to now -/
  head : Bytes
  /-- Everything that was read from the origin -/
  fromOrigin : Bytes
  /-- What `HttpProxy::queueWrite` was given -/
  passedOn : Bytes
  /-- What `HttpProxy::received` has queued for the client itself -/
  reply : Bytes
deriving DecidableEq, Repr

inductive RelayStep where
  /-- The stream to the client has read a chunk and calls `HttpProxy::received`. -/
  | received (chunk : Chunk)
  /-- The next call that `HttpProxy::received` makes -/
  | call
  /-- `Remote::writeComplete` takes the lock. -/
  | writeComplete
  /-- The holder of `Remote::lock` goes on. -/
  | proceed
  /-- `TcpStream::create` for the `Remote` -/
  | attach
  /-- `connect` has succeeded at once. -/
  | connected
  /-- `handleWrite` of the stream to the origin -/
  | writeOrigin (start : TimePointNs) (ws : List WriteCall)
  /-- `handleWrite` of the stream to the client -/
  | writeClient (start : TimePointNs) (ws : List WriteCall)
  /-- The stream to the origin has read a chunk and calls `Remote::received`. -/
  | arrive (x : Bytes)
  /-- `HttpProxy::queueWrite` for that chunk -/
  | deliver
  | disconnectOrigin
  | disconnectClient
deriving DecidableEq, Repr

/-- Why a step is refused. -/
inductive RelayHalt where
  /-- The loop over the lines has left the header. -/
  | pastEnd
  /-- The step is not possible now. -/
  | disabled
deriving DecidableEq, Repr

/-- The function is a `doWrite`. -/
def HandOver.inDoWrite : HandOver → Bool
  | .entered (.doWrite _) | .found (.doWrite _) | .clear (.doWrite _) | .direct _ | .keep _ => true
  | .entered .writeComplete | .found .writeComplete | .clear .writeComplete => false

/-- What the next step of the holder of `Remote::lock` passes to `queueWrite` -/
def Buffering.passing (s : Buffering) : Bytes :=
  match s.inside with
  | some (.found _) => s.initWrite
  | some (.direct x) => x
  | _ => []

theorem Buffering.passed_of_proceed {s s' : Buffering} (h : s.step .proceed = .ok s') :
    s'.passed = s.passed ++ s.passing ∧ s'.arguments = s.arguments := by
  simp only [Buffering.step] at h
  split at h <;> cases h
  rename_i place hinside
  simp only [Buffering.passing, hinside]
  cases place with
  | entered call =>
    simp only [Buffering.proceed]
    split
    · exact ⟨(List.append_nil _).symm, rfl⟩
    · cases call <;> exact ⟨(List.append_nil _).symm, rfl⟩
  | found call =>
    simp only [Buffering.proceed]
    split
    · exact ⟨rfl, rfl⟩
    · rename_i hempty
      rw [not_not.mp hempty]
      exact ⟨(List.append_nil _).symm, rfl⟩
  | direct x => exact ⟨rfl, rfl⟩
  | clear call | keep x => exact ⟨(List.append_nil _).symm, rfl⟩

theorem Buffering.passed_of_call {s s' : Buffering} {call : RemoteCall}
    (h : s.step (.call call) = .ok s') :
    s'.passed = s.passed ∧ s'.arguments = s.arguments ++ call.argument := by
  simp only [Buffering.step] at h
  split at h <;> cases h
  exact ⟨rfl, rfl⟩

theorem Buffering.passed_of_attach {s s' : Buffering} (h : s.step .attach = .ok s') :
    s'.passed = s.passed ∧ s'.arguments = s.arguments := by
  simp only [Buffering.step] at h
  split at h <;> cases h
  exact ⟨rfl, rfl⟩

/-- What a step of a stream queues on it -/
def SendingStep.queued : SendingStep → Bytes
  | .queueWrite data => data
  | .handleWrite _ _ | .disconnect => []

theorem Sending.queued_of_step {s s' : Sending} {l : SendingStep} (h : s.step l = .ok s') :
    s'.queued = s.queued ++ l.queued := by
  cases l with
  | queueWrite data =>
    cases h
    rfl
  | handleWrite start ws =>
    obtain ⟨p, -, hs'⟩ := bind_eq_ok_iff.mp h
    cases hs'
    exact (List.append_nil _).symm
  | disconnect =>
    cases h
    exact (List.append_nil _).symm

namespace Relay

/-- A client was accepted. -/
def init : Relay where
  proxy := .init
  calls := []
  remote := none
  origin := .init false 0
  client := .init true TcpStream.ACCEPTED_EGRESS_RATE
  arriving := none
  fromClient := []
  head := []
  fromOrigin := []
  passedOn := []
  reply := []

/-- A step of a part, as a step of the machine -/
def attempt {ε α : Type} : Except ε α → Except RelayHalt α
  | .ok a => .ok a
  | .error _ => .error .disabled

/-- `HttpProxy::received` is inside `doWrite`. -/
def inDoWrite (s : Relay) : Bool :=
  match s.remote with
  | some remote => remote.inside.any HandOver.inDoWrite
  | none => false

/-- `TcpStream::create` has made the stream to the origin. -/
def isAttached (s : Relay) : Bool :=
  match s.remote with
  | some remote => remote.attached
  | none => false

/-- A step of the `Remote` -/
def remoteStep (s : Relay) (l : BufferingStep) : Except RelayHalt Relay :=
  match s.remote with
  | some remote => do
    let remote ← attempt (remote.step l)
    .ok { s with remote := some remote }
  | none => .error .disabled

/-- A step of the stream to the origin, once there is one -/
def originStep (s : Relay) (l : SendingStep) : Except RelayHalt Relay :=
  if s.isAttached = true then do
    let origin ← attempt (s.origin.step l)
    .ok { s with origin }
  else .error .disabled

/-- A step of the stream to the client -/
def clientStep (s : Relay) (l : SendingStep) : Except RelayHalt Relay := do
  let client ← attempt (s.client.step l)
  .ok { s with client }

def step (s : Relay) : RelayStep → Except RelayHalt Relay
  | .received chunk =>
    -- `readLock` is held until `received` returns
    if s.calls = [] ∧ s.inDoWrite = false then
      match s.proxy.received chunk.behind chunk.data with
      | .ok (proxy, calls) =>
        let fromClient := s.fromClient ++ chunk.data
        .ok { s with
          proxy, calls, fromClient, head := if s.proxy.ep = true then s.head else fromClient }
      | .error _ => .error .pastEnd
    else .error .disabled
  | .call =>
    match s.calls with
    | .doWrite x :: calls => { s with calls }.remoteStep (.call (.doWrite x))
    | .disconnect :: calls => { s with calls }.clientStep .disconnect
    | .create _ _ initWrite :: calls =>
      .ok { s with calls, remote := some (Buffering.init initWrite) }
    | .queueWrite x :: calls =>
      { s with calls, reply := s.reply ++ x }.clientStep (.queueWrite x)
    | [] => .error .disabled
  | .writeComplete => s.remoteStep (.call .writeComplete)
  | .proceed =>
    match s.remote with
    | some remote => do
      let s ← s.remoteStep .proceed
      -- what the `Remote` passes on is queued on the stream that it has found
      if remote.passing = [] then .ok s else s.originStep (.queueWrite remote.passing)
    | none => .error .disabled
  | .attach => s.remoteStep .attach
  | .connected =>
    if s.isAttached = true then
      let stream := { s.origin.stream with connected := true }
      .ok { s with origin := { s.origin with stream } }
    else .error .disabled
  | .writeOrigin start ws => s.originStep (.handleWrite start ws)
  | .writeClient start ws => s.clientStep (.handleWrite start ws)
  | .arrive x =>
    if s.isAttached = true ∧ s.arriving = none then
      .ok { s with arriving := some x, fromOrigin := s.fromOrigin ++ x }
    else .error .disabled
  | .deliver =>
    match s.arriving with
    | some x =>
      { s with arriving := none, passedOn := s.passedOn ++ x }.clientStep (.queueWrite x)
    | none => .error .disabled
  | .disconnectOrigin => s.originStep .disconnect
  | .disconnectClient => s.clientStep .disconnect

/-- The step makes a write to the origin, or to the client, that neither succeeds nor would
block. -/
def FailsToOrigin : RelayStep → Prop
  | .writeOrigin _ ws => ∃ w ∈ ws, w.actuallySent = -2
  | _ => False

def FailsToClient : RelayStep → Prop
  | .writeClient _ ws => ∃ w ∈ ws, w.actuallySent = -2
  | _ => False

/-- What `received` has still to hand to the `Remote`, -/
def waiting (s : Relay) : Bytes :=
  s.calls.flatMap fun
    | .doWrite x => x
    | _ => []

/-- and to the stream of the client -/
def unreplied (s : Relay) : Bytes :=
  s.calls.flatMap fun
    | .queueWrite x => x
    | _ => []

/-- The reply to a complete header -/
def replyTo (head : Bytes) : Bytes := if Found head CONNECT then OK_REPLY else []

/-! ## What a Step Does -/

variable {s s' : Relay} {l : RelayStep} {ls : List RelayStep}

/-- What a call of `received` does, if the calls `calls` come after it. -/
inductive Makes (s : Relay) (calls : List ProxyCall) : ProxyCall → Relay → Prop where
  | doWrite {x : Bytes} {remote remote' : Buffering} (hremote : s.remote = some remote)
      (hstep : remote.step (.call (.doWrite x)) = .ok remote') :
      Makes s calls (.doWrite x) { s with calls, remote := some remote' }
  | disconnect {client : Sending} (hstep : s.client.step .disconnect = .ok client) :
      Makes s calls .disconnect { s with calls, client }
  | create {host initWrite : Bytes} {port : UInt16} :
      Makes s calls (.create host port initWrite)
        { s with calls, remote := some (Buffering.init initWrite) }
  | queueWrite {x : Bytes} {client : Sending} (hstep : s.client.step (.queueWrite x) = .ok client) :
      Makes s calls (.queueWrite x) { s with calls, reply := s.reply ++ x, client }

/-- **Specification of `step`**: everything a step can do. -/
inductive Moves (s : Relay) : RelayStep → Relay → Prop where
  | received {chunk : Chunk} {proxy : HttpProxy} {calls : List ProxyCall} (hidle : s.calls = [])
      (hreceived : s.proxy.received chunk.behind chunk.data = .ok (proxy, calls)) :
      Moves s (.received chunk) { s with
        proxy, calls, fromClient := s.fromClient ++ chunk.data
        head := if s.proxy.ep = true then s.head else s.fromClient ++ chunk.data }
  | call {c : ProxyCall} {calls : List ProxyCall} {s' : Relay} (hcalls : s.calls = c :: calls)
      (hmakes : Makes s calls c s') : Moves s .call s'
  | writeComplete {remote remote' : Buffering} (hremote : s.remote = some remote)
      (hstep : remote.step (.call .writeComplete) = .ok remote') :
      Moves s .writeComplete { s with remote := some remote' }
  /-- The holder of `Remote::lock` goes on without a call of `queueWrite`. -/
  | proceed {remote remote' : Buffering} (hremote : s.remote = some remote)
      (hstep : remote.step .proceed = .ok remote') (hpassing : remote.passing = []) :
      Moves s .proceed { s with remote := some remote' }
  | pass {remote remote' : Buffering} {origin : Sending} (hremote : s.remote = some remote)
      (hstep : remote.step .proceed = .ok remote')
      (horigin : s.origin.step (.queueWrite remote.passing) = .ok origin) :
      Moves s .proceed { s with remote := some remote', origin }
  | attach {remote remote' : Buffering} (hremote : s.remote = some remote)
      (hstep : remote.step .attach = .ok remote') :
      Moves s .attach { s with remote := some remote' }
  | connected : Moves s .connected { s with
      origin := { s.origin with stream := { s.origin.stream with connected := true } } }
  | writeOrigin {start : TimePointNs} {ws : List WriteCall} {origin : Sending}
      (hstep : s.origin.step (.handleWrite start ws) = .ok origin) :
      Moves s (.writeOrigin start ws) { s with origin }
  | writeClient {start : TimePointNs} {ws : List WriteCall} {client : Sending}
      (hstep : s.client.step (.handleWrite start ws) = .ok client) :
      Moves s (.writeClient start ws) { s with client }
  | arrive {x : Bytes} (hattached : s.isAttached = true) (hnone : s.arriving = none) :
      Moves s (.arrive x) { s with arriving := some x, fromOrigin := s.fromOrigin ++ x }
  | deliver {x : Bytes} {client : Sending} (harriving : s.arriving = some x)
      (hstep : s.client.step (.queueWrite x) = .ok client) :
      Moves s .deliver { s with arriving := none, passedOn := s.passedOn ++ x, client }
  | disconnectOrigin {origin : Sending} (hstep : s.origin.step .disconnect = .ok origin) :
      Moves s .disconnectOrigin { s with origin }
  | disconnectClient {client : Sending} (hstep : s.client.step .disconnect = .ok client) :
      Moves s .disconnectClient { s with client }

theorem attempt_eq_ok_iff {ε α : Type} {x : Except ε α} {a : α} :
    attempt x = .ok a ↔ x = .ok a := by
  cases x <;> simp [attempt]

theorem remoteStep_eq_ok_iff {m : BufferingStep} : s.remoteStep m = .ok s' ↔
    ∃ remote remote', s.remote = some remote ∧ remote.step m = .ok remote' ∧
      s' = { s with remote := some remote' } := by
  unfold remoteStep
  cases s.remote with
  | none => simp
  | some remote => simp [bind_eq_ok_iff, attempt_eq_ok_iff, @eq_comm Relay s']

theorem clientStep_eq_ok_iff {m : SendingStep} : s.clientStep m = .ok s' ↔
    ∃ client, s.client.step m = .ok client ∧ s' = { s with client } := by
  simp [clientStep, bind_eq_ok_iff, attempt_eq_ok_iff, @eq_comm Relay s']

theorem originStep_eq_ok_iff {m : SendingStep} : s.originStep m = .ok s' ↔
    s.isAttached = true ∧ ∃ origin, s.origin.step m = .ok origin ∧ s' = { s with origin } := by
  unfold originStep
  split
  · rename_i hattached
    simp [bind_eq_ok_iff, attempt_eq_ok_iff, @eq_comm Relay s', hattached]
  · rename_i hnone
    simp [hnone]

theorem moves_of_step (hstep : s.step l = .ok s') : Moves s l s' := by
  cases l with
  | received chunk =>
    simp only [step] at hstep
    split at hstep
    · rename_i hidle
      split at hstep <;> cases hstep
      rename_i hreceived
      exact .received hidle.1 hreceived
    · cases hstep
  | call =>
    simp only [step] at hstep
    split at hstep
    · rename_i hcalls
      obtain ⟨remote, remote', hremote, hremote', rfl⟩ := remoteStep_eq_ok_iff.mp hstep
      exact .call hcalls (.doWrite hremote hremote')
    · rename_i hcalls
      obtain ⟨client, hclient, rfl⟩ := clientStep_eq_ok_iff.mp hstep
      exact .call hcalls (.disconnect hclient)
    · rename_i hcalls
      cases hstep
      exact .call hcalls .create
    · rename_i hcalls
      obtain ⟨client, hclient, rfl⟩ := clientStep_eq_ok_iff.mp hstep
      exact .call hcalls (.queueWrite hclient)
    · cases hstep
  | writeComplete =>
    obtain ⟨remote, remote', hremote, hremote', rfl⟩ := remoteStep_eq_ok_iff.mp hstep
    exact .writeComplete hremote hremote'
  | proceed =>
    simp only [step] at hstep
    split at hstep
    · rename_i remote hremote
      obtain ⟨t, ht, hrest⟩ := bind_eq_ok_iff.mp hstep
      obtain ⟨remote₁, remote', hremote₁, hremote', rfl⟩ := remoteStep_eq_ok_iff.mp ht
      rw [hremote] at hremote₁
      cases hremote₁
      split at hrest
      · rename_i hpassing
        cases hrest
        exact .proceed hremote hremote' hpassing
      · obtain ⟨-, origin, horigin, rfl⟩ := originStep_eq_ok_iff.mp hrest
        exact .pass hremote hremote' horigin
    · cases hstep
  | attach =>
    obtain ⟨remote, remote', hremote, hremote', rfl⟩ := remoteStep_eq_ok_iff.mp hstep
    exact .attach hremote hremote'
  | connected =>
    simp only [step] at hstep
    split at hstep <;> cases hstep
    exact .connected
  | writeOrigin start ws =>
    obtain ⟨-, origin, horigin, rfl⟩ := originStep_eq_ok_iff.mp hstep
    exact .writeOrigin horigin
  | writeClient start ws =>
    obtain ⟨client, hclient, rfl⟩ := clientStep_eq_ok_iff.mp hstep
    exact .writeClient hclient
  | arrive x =>
    simp only [step] at hstep
    split at hstep <;> cases hstep
    rename_i hready
    exact .arrive hready.1 hready.2
  | deliver =>
    simp only [step] at hstep
    split at hstep
    · rename_i x harriving
      obtain ⟨client, hclient, rfl⟩ := clientStep_eq_ok_iff.mp hstep
      exact .deliver harriving hclient
    · cases hstep
  | disconnectOrigin =>
    obtain ⟨-, origin, horigin, rfl⟩ := originStep_eq_ok_iff.mp hstep
    exact .disconnectOrigin horigin
  | disconnectClient =>
    obtain ⟨client, hclient, rfl⟩ := clientStep_eq_ok_iff.mp hstep
    exact .disconnectClient hclient

/-! ## How Far the Proxy Is -/

/-- Nothing has gone through the proxy. -/
structure Untouched (s : Relay) : Prop where
  remote : s.remote = none
  queued : s.origin.queued = []
  arriving : s.arriving = none
  passedOn : s.passedOn = []
  reply : s.reply = []
  head : s.head = s.fromClient

/-- What has reached the `Remote`, and what is to be replied. -/
structure Relaying (s : Relay) (remote : Buffering) : Prop where
  created : s.remote = some remote
  alive : s.proxy.ep = true
  complete : Found s.head DOUBLE_CR
  kept : Buffering.Kept (s.head.drop (Replaying.erased s.head)) remote
  arguments : s.head ++ (remote.arguments ++ s.waiting) = s.fromClient
  queued : s.origin.queued = remote.passed
  reply : s.reply ++ s.unreplied = replyTo s.head
  calls : s.calls = [] ∨ (∃ x, s.calls = [.doWrite x]) ∨
    s.calls = [.queueWrite OK_REPLY] ∧ s.reply = []

inductive Phase (s : Relay) : Prop where
  /-- The header is not complete. -/
  | collecting (huntouched : Untouched s) (hproxy : s.proxy = ⟨s.fromClient, false⟩)
      (hcalls : s.calls = [] ∨ s.calls = [.disconnect])
  /-- The header is complete, and the `Remote` is not created yet. -/
  | complete {k : ℕ} (huntouched : Untouched s) (halive : s.proxy.ep = true)
      (hhead : search s.head DOUBLE_CR = some k)
      (hcalls : s.calls = HttpProxy.openRemote s.head k)
  | relaying {remote : Buffering} (hrelaying : Relaying s remote)

/-- The streams may go on without a call of the proxy. -/
theorem Phase.frame (h : Phase s) {origin : Sending} (client : Sending)
    (hqueued : origin.queued = s.origin.queued) : Phase { s with origin, client } := by
  cases h with
  | collecting huntouched hproxy hcalls =>
    exact .collecting { huntouched with queued := hqueued.trans huntouched.queued } hproxy hcalls
  | complete huntouched halive hhead hcalls =>
    exact .complete { huntouched with queued := hqueued.trans huntouched.queued } halive hhead
      hcalls
  | relaying hrelaying =>
    exact .relaying { hrelaying with queued := hqueued.trans hrelaying.queued }

/-- While there is a `Remote`, the proxy relays. -/
theorem Phase.relaying_of_remote (h : Phase s) {remote : Buffering}
    (hremote : s.remote = some remote) : Relaying s remote := by
  cases h with
  | collecting huntouched | complete huntouched =>
    rw [huntouched.remote] at hremote
    cases hremote
  | relaying hrelaying =>
    rw [hrelaying.created] at hremote
    cases hremote
    exact hrelaying

/-- The header grows, or it is complete now. -/
theorem Phase.received (h : Phase s) {chunk : Chunk} {proxy : HttpProxy} {calls : List ProxyCall}
    (hidle : s.calls = [])
    (hreceived : s.proxy.received chunk.behind chunk.data = .ok (proxy, calls)) :
    Phase { s with
      proxy, calls, fromClient := s.fromClient ++ chunk.data
      head := if s.proxy.ep = true then s.head else s.fromClient ++ chunk.data } := by
  cases h with
  | collecting huntouched hproxy hcalls =>
    have hep : s.proxy.ep = false := by rw [hproxy]
    have hheader : s.proxy.header = s.fromClient := by rw [hproxy]
    rw [if_neg (by simp [hep])]
    have huntouched' (head calls) (proxy : HttpProxy) (hhead : head = s.fromClient ++ chunk.data) :
        Untouched { s with proxy, calls, fromClient := s.fromClient ++ chunk.data, head } :=
      { huntouched with head := hhead }
    cases hhead : search (s.proxy.header ++ chunk.data) DOUBLE_CR with
    | none =>
      by_cases hshort : (s.proxy.header ++ chunk.data).length < 4
      · rw [HttpProxy.received_short hep hshort] at hreceived
        cases hreceived
        exact .collecting (huntouched' _ _ _ rfl) (by rw [hheader]) (Or.inl rfl)
      · rw [HttpProxy.received_headless hep hshort hhead] at hreceived
        cases hreceived
        exact .collecting (huntouched' _ _ _ rfl) (by rw [hheader]) (Or.inr rfl)
    | some k =>
      rw [HttpProxy.received_request hep hhead] at hreceived
      split at hreceived <;> cases hreceived
      rw [hheader] at hhead
      exact .complete (huntouched' _ _ _ rfl) rfl hhead (by rw [hheader])
  | complete huntouched halive hhead hcalls =>
    -- the calls of the last `received` are not made yet
    rw [hcalls, HttpProxy.openRemote] at hidle
    split at hidle <;> cases hidle
  | relaying hrelaying =>
    rw [HttpProxy.received_alive hrelaying.alive] at hreceived
    cases hreceived
    rw [if_pos hrelaying.alive]
    refine .relaying { hrelaying with
      arguments := ?_
      reply := ?_
      calls := Or.inr (Or.inl ⟨chunk.data, rfl⟩) }
    · have harguments := hrelaying.arguments
      simp only [waiting, hidle, List.flatMap_nil, List.append_nil] at harguments
      simp [waiting, ← harguments]
    · have hreply := hrelaying.reply
      simpa [unreplied, hidle] using hreply

/-- The calls that are made for a complete header -/
theorem openRemote_eq {head : Bytes} {k : ℕ} (hhead : search head DOUBLE_CR = some k) :
    ∃ host port, HttpProxy.openRemote head k =
      .create host port (head.drop (Replaying.erased head)) ::
        if Found head CONNECT then [.queueWrite OK_REPLY] else [] := by
  have hforwarded := Replaying.drop_erased hhead
  have hconnect : Found head CONNECT ↔ _ := found_iff (by decide)
  unfold HttpProxy.forwarded at hforwarded
  simp only [HttpProxy.openRemote, hconnect]
  split
  · rename_i htunnel
    rw [if_pos htunnel] at hforwarded
    exact ⟨_, _, by rw [hforwarded]⟩
  · rename_i hplain
    rw [if_neg hplain] at hforwarded
    exact ⟨_, _, by rw [← hforwarded]⟩

/-- The next call that `received` makes -/
theorem Phase.call (h : Phase s) {c : ProxyCall} {calls : List ProxyCall}
    (hcalls : s.calls = c :: calls) (hmakes : Makes s calls c s') : Phase s' := by
  cases h with
  | collecting huntouched hproxy hshape =>
    rcases hshape with hnone | hone
    · simp [hnone] at hcalls
    · rw [hone] at hcalls
      cases hcalls
      cases hmakes with
      | disconnect hstep => exact .collecting { huntouched with } hproxy (Or.inl rfl)
  | complete huntouched halive hhead hshape =>
    have hfound : Found s.head DOUBLE_CR := by
      rw [found_iff (by decide), hhead]
      rfl
    obtain ⟨host, port, hopen⟩ := openRemote_eq hhead
    rw [hshape, hopen] at hcalls
    cases hcalls
    cases hmakes with
    | create =>
      refine .relaying
        { created := rfl
          alive := halive
          complete := hfound
          kept := Buffering.kept_init _
          arguments := ?_
          queued := huntouched.queued
          reply := ?_
          calls := ?_ }
      · split <;> simp [waiting, Buffering.init, huntouched.head]
      · rw [huntouched.reply, replyTo]
        split <;> simp [unreplied]
      · split
        · exact Or.inr (Or.inr ⟨rfl, huntouched.reply⟩)
        · exact Or.inl rfl
  | @relaying remote hrelaying =>
    have harguments := hrelaying.arguments
    have hreply := hrelaying.reply
    rcases hrelaying.calls with hnone | ⟨x, hone⟩ | ⟨hone, -⟩
    · simp [hnone] at hcalls
    · simp only [waiting, unreplied, hone, List.flatMap_singleton] at harguments hreply
      rw [hone] at hcalls
      cases hcalls
      cases hmakes with
      | doWrite hremote hstep =>
        rw [hrelaying.created] at hremote
        cases hremote
        -- what was waiting is the argument of `doWrite` now
        obtain ⟨hpassed, harguments'⟩ := Buffering.passed_of_call hstep
        exact .relaying { hrelaying with
          created := rfl
          kept := Buffering.kept_step hrelaying.kept hstep
          arguments := by simpa [waiting, harguments', RemoteCall.argument] using harguments
          queued := hrelaying.queued.trans hpassed.symm
          reply := by simpa [unreplied] using hreply
          calls := Or.inl rfl }
    · simp only [waiting, unreplied, hone, List.flatMap_singleton] at harguments hreply
      rw [hone] at hcalls
      cases hcalls
      cases hmakes with
      | queueWrite hstep =>
        exact .relaying { hrelaying with
          arguments := harguments
          reply := by simpa [unreplied] using hreply
          calls := Or.inl rfl }

/-- The `Remote` goes on. -/
theorem Phase.remote (h : Phase s) {remote remote' : Buffering} {m : BufferingStep}
    {origin : Sending} (hremote : s.remote = some remote) (hstep : remote.step m = .ok remote')
    (harguments : remote'.arguments = remote.arguments)
    (hpassed : s.origin.queued = remote.passed → origin.queued = remote'.passed) :
    Phase { s with remote := some remote', origin } := by
  have hrelaying := h.relaying_of_remote hremote
  exact .relaying { hrelaying with
    created := rfl
    kept := Buffering.kept_step hrelaying.kept hstep
    arguments := by simpa only [waiting, harguments] using hrelaying.arguments
    queued := hpassed hrelaying.queued }

/-- **Step** -/
theorem phase_step (h : Phase s) (hstep : s.step l = .ok s') : Phase s' := by
  cases moves_of_step hstep with
  | received hidle hreceived => exact h.received hidle hreceived
  | call hcalls hmakes => exact h.call hcalls hmakes
  | writeComplete hremote hremote' =>
    obtain ⟨hpassed, harguments⟩ := Buffering.passed_of_call hremote'
    rw [RemoteCall.argument, List.append_nil] at harguments
    exact h.remote hremote hremote' harguments fun hqueued => hqueued.trans hpassed.symm
  | proceed hremote hremote' hpassing =>
    obtain ⟨hpassed, harguments⟩ := Buffering.passed_of_proceed hremote'
    rw [hpassing, List.append_nil] at hpassed
    exact h.remote hremote hremote' harguments fun hqueued => hqueued.trans hpassed.symm
  | pass hremote hremote' horigin =>
    obtain ⟨hpassed, harguments⟩ := Buffering.passed_of_proceed hremote'
    refine h.remote hremote hremote' harguments fun hqueued => ?_
    rw [Sending.queued_of_step horigin, hqueued, hpassed, SendingStep.queued]
  | attach hremote hremote' =>
    obtain ⟨hpassed, harguments⟩ := Buffering.passed_of_attach hremote'
    exact h.remote hremote hremote' harguments fun hqueued => hqueued.trans hpassed.symm
  | connected => exact h.frame s.client rfl
  | writeOrigin horigin | disconnectOrigin horigin =>
    exact h.frame s.client ((Sending.queued_of_step horigin).trans (List.append_nil _))
  | writeClient hclient | disconnectClient hclient => exact h.frame _ rfl
  | arrive hattached hnone =>
    cases h with
    | collecting huntouched | complete huntouched =>
      simp [isAttached, huntouched.remote] at hattached
    | relaying hrelaying => exact .relaying { hrelaying with }
  | deliver harriving hclient =>
    cases h with
    | collecting huntouched | complete huntouched => simp [huntouched.arriving] at harriving
    | relaying hrelaying => exact .relaying { hrelaying with }

theorem phase_init : Phase init := .collecting ⟨rfl, rfl, rfl, rfl, rfl, rfl⟩ rfl (Or.inl rfl)

/-! ## To the Origin -/

/-- The stream to the origin loses nothing. -/
def OriginConserves (s : Relay) : Prop :=
  TcpStream.NonEmptyChunks s.origin.stream.writeQueue ∧ s.origin.Conserved

theorem originConserves_init : OriginConserves init :=
  ⟨fun chunk hc => (by cases hc), rfl⟩

theorem originConserves_step (h : OriginConserves s) (hfails : ¬ FailsToOrigin l)
    (hstep : s.step l = .ok s') : OriginConserves s' := by
  cases moves_of_step hstep with
  | call hcalls hmakes => cases hmakes <;> exact h
  | pass hremote hremote' horigin | disconnectOrigin horigin =>
    exact Sending.conserved_step h horigin fun hf => hf
  | writeOrigin horigin => exact Sending.conserved_step h horigin hfails
  | _ => exact h

/-- What `erase` takes away is part of the header. -/
theorem erased_le {head : Bytes} (h : Found head DOUBLE_CR) :
    Replaying.erased head ≤ head.length := by
  obtain ⟨k, hk⟩ := Option.isSome_iff_exists.mp ((found_iff (by decide)).mp h)
  rw [Replaying.erased, second_of_search (by decide) hk]
  split
  · exact scan_le hk
  · exact Nat.zero_le _

/-- What the client has sent, as far as it is for the origin, on its way to the `Remote` -/
def proxyChannel (s : Relay) (remote : Buffering) : Channel UInt8 where
  accepted := s.fromClient.drop (Replaying.erased s.head)
  inside := s.waiting
  delivered := s.head.drop (Replaying.erased s.head) ++ remote.arguments

/-- From the `Remote` to its stream -/
def remoteChannel (s : Relay) (remote : Buffering) : Channel UInt8 where
  accepted := s.head.drop (Replaying.erased s.head) ++ remote.arguments
  inside := remote.toCome
  delivered := remote.passed

theorem Relaying.proxyChannel_sound {remote : Buffering} (h : Relaying s remote) :
    (s.proxyChannel remote).Sound := by
  rw [Channel.Sound, proxyChannel, ← h.arguments,
    List.drop_append_of_le_length (erased_le h.complete), List.append_assoc]

/-- **To the origin**: as long as no write to it has failed, the origin has received the first
bytes of what the client has sent, without the head of a `CONNECT`, and the others are on their
way in order. -/
theorem relayed_to_origin {remote : Buffering} (hrun : runFrom step init ls = .ok s)
    (hfails : ∀ l ∈ ls, ¬ FailsToOrigin l) (hremote : s.remote = some remote) :
    Found s.head DOUBLE_CR ∧ s.head <+: s.fromClient ∧
      s.origin.wire ++ (s.origin.stream.writeQueue.flatten ++ (remote.toCome ++ s.waiting)) =
        s.fromClient.drop (Replaying.erased s.head) := by
  have hrelaying := (runFrom_invariant Phase phase_step phase_init hrun).relaying_of_remote hremote
  have horigin : OriginConserves s := AllSteps.invariant OriginConserves
    (fun h hC hstep => originConserves_step h hC hstep) originConserves_init
    (AllSteps.of_forall_mem (P := fun l => ¬ FailsToOrigin l) hfails) hrun
  have hremote : (s.remoteChannel remote).Sound := hrelaying.kept.content
  have hstream : s.origin.channel.Sound := horigin.2
  have hall : ((s.proxyChannel remote).series ((s.remoteChannel remote))).Sound :=
    hrelaying.proxyChannel_sound.series hremote rfl
  exact ⟨hrelaying.complete, ⟨_, hrelaying.arguments⟩, hall.series hstream hrelaying.queued⟩

/-! ## To the Client -/

/-- The stream to the client loses nothing. -/
def ClientConserves (s : Relay) : Prop :=
  TcpStream.NonEmptyChunks s.client.stream.writeQueue ∧ s.client.Conserved

theorem clientConserves_init : ClientConserves init :=
  ⟨fun chunk hc => (by cases hc), rfl⟩

theorem clientConserves_step (h : ClientConserves s) (hfails : ¬ FailsToClient l)
    (hstep : s.step l = .ok s') : ClientConserves s' := by
  cases moves_of_step hstep with
  | call hcalls hmakes =>
    cases hmakes with
    | disconnect hclient | queueWrite hclient =>
      exact Sending.conserved_step h hclient fun hf => hf
    | _ => exact h
  | deliver harriving hclient => exact Sending.conserved_step h hclient fun hf => hf
  | disconnectClient hclient => exact Sending.conserved_step h hclient fun hf => hf
  | writeClient hclient => exact Sending.conserved_step h hclient hfails
  | _ => exact h

/-- What was queued for the client are the origin's bytes, with the reply between the `early` and
the `late` ones. -/
structure Replied (s : Relay) (early late : Bytes) : Prop where
  passedOn : s.passedOn = early ++ late
  arrived : s.fromOrigin = s.passedOn ++ s.arriving.getD []
  queued : s.client.queued = early ++ (s.reply ++ late)
  /-- Without a reply they are all early. -/
  late : s.reply = [] → late = []

/-- The reply is queued once. -/
theorem Phase.reply_eq_nil (h : Phase s) {x : Bytes} {calls : List ProxyCall}
    (hcalls : s.calls = .queueWrite x :: calls) : s.reply = [] := by
  cases h with
  | collecting huntouched | complete huntouched => exact huntouched.reply
  | relaying hrelaying =>
    rcases hrelaying.calls with hnone | ⟨y, hone⟩ | ⟨-, hreply⟩
    · simp [hnone] at hcalls
    · simp [hone] at hcalls
    · exact hreply

/-- The stream may go on without queueing anything. -/
theorem Replied.frame {early late : Bytes} (h : Replied s early late)
    (hpassedOn : s'.passedOn = s.passedOn) (hfromOrigin : s'.fromOrigin = s.fromOrigin)
    (harriving : s'.arriving = s.arriving) (hqueued : s'.client.queued = s.client.queued)
    (hreply : s'.reply = s.reply) : Replied s' early late where
  passedOn := hpassedOn.trans h.passedOn
  arrived := by rw [hfromOrigin, hpassedOn, harriving, h.arrived]
  queued := by rw [hqueued, hreply, h.queued]
  late := hreply ▸ h.late

/-- **Step** -/
theorem replied_step (hphase : Phase s) (h : ∃ early late, Replied s early late)
    (hstep : s.step l = .ok s') : ∃ early late, Replied s' early late := by
  obtain ⟨early, late, h⟩ := h
  cases moves_of_step hstep with
  | call hcalls hmakes =>
    cases hmakes with
    | disconnect hclient =>
      exact ⟨early, late, h.frame rfl rfl rfl
        ((Sending.queued_of_step hclient).trans (List.append_nil _)) rfl⟩
    | @queueWrite x client hclient =>
      -- everything that was passed on until now is early
      have hreply := hphase.reply_eq_nil hcalls
      have hlate := h.late hreply
      refine ⟨early, [], ?_, h.arrived, ?_, fun _ => rfl⟩
      · rw [h.passedOn, hlate]
      · rw [Sending.queued_of_step hclient, h.queued, hreply, hlate, SendingStep.queued]
        simp
    | _ => exact ⟨early, late, h.frame rfl rfl rfl rfl rfl⟩
  | writeClient hclient | disconnectClient hclient =>
    exact ⟨early, late, h.frame rfl rfl rfl
      ((Sending.queued_of_step hclient).trans (List.append_nil _)) rfl⟩
  | @arrive x hattached hnone =>
    refine ⟨early, late, h.passedOn, ?_, h.queued, h.late⟩
    rw [h.arrived, hnone]
    simp
  | @deliver x client harriving hclient =>
    have hqueued := Sending.queued_of_step hclient
    have harrived := h.arrived
    rw [h.queued, SendingStep.queued] at hqueued
    rw [harriving] at harrived
    by_cases hreply : s.reply = []
    · have hlate := h.late hreply
      refine ⟨early ++ x, [], ?_, ?_, ?_, fun _ => rfl⟩
      · rw [h.passedOn, hlate, List.append_nil, List.append_nil]
      · simpa using harrived
      · rw [hqueued, hreply, hlate]
        simp
    · refine ⟨early, late ++ x, ?_, ?_, ?_, fun hr => absurd hr hreply⟩
      · rw [h.passedOn, List.append_assoc]
      · simpa using harrived
      · rw [hqueued, List.append_assoc, List.append_assoc]
  | _ => exact ⟨early, late, h.frame rfl rfl rfl rfl rfl⟩

/-- A chunk of the origin is queued for the client only when the reply is queued already, if there
is to be one. -/
def InTime (s : Relay) (l : RelayStep) : Prop := l = .deliver → s.unreplied = []

instance (s : Relay) (l : RelayStep) : Decidable (InTime s l) :=
  inferInstanceAs (Decidable (l = .deliver → s.unreplied = []))

/-- The reply has been queued first, or nothing was queued so far. -/
structure Prompt (s : Relay) : Prop where
  queued : s.client.queued = s.reply ++ s.passedOn
  waits : s.unreplied = [] ∨ s.passedOn = []

/-- `received` has a reply to make only when nothing has gone through. -/
theorem Prompt.received (hphase : Phase s) {chunk : Chunk} {proxy : HttpProxy}
    {calls : List ProxyCall}
    (hreceived : s.proxy.received chunk.behind chunk.data = .ok (proxy, calls)) :
    { s with calls }.unreplied = [] ∨ s.passedOn = [] := by
  cases hphase with
  | collecting huntouched | complete huntouched => exact Or.inr huntouched.passedOn
  | relaying hrelaying =>
    rw [HttpProxy.received_alive hrelaying.alive] at hreceived
    cases hreceived
    exact Or.inl rfl

/-- A call that is made is not waited for any more. -/
theorem unreplied_of_call {c : ProxyCall} {calls : List ProxyCall} (hcalls : s.calls = c :: calls)
    (h : s.unreplied = []) : { s with calls }.unreplied = [] := by
  simp only [unreplied, hcalls, List.flatMap_cons, List.append_eq_nil_iff] at h
  exact h.2

theorem prompt_step (hphase : Phase s) (h : Prompt s) (htime : InTime s l)
    (hstep : s.step l = .ok s') : Prompt s' := by
  cases moves_of_step hstep with
  | received hidle hreceived => exact ⟨h.queued, Prompt.received hphase hreceived⟩
  | call hcalls hmakes =>
    have hwaits (hwait : s.unreplied = [] ∨ s.passedOn = []) :=
      hwait.imp_left (unreplied_of_call hcalls)
    cases hmakes with
    | disconnect hclient =>
      exact ⟨((Sending.queued_of_step hclient).trans (List.append_nil _)).trans h.queued,
        hwaits h.waits⟩
    | @queueWrite x client hclient =>
      have hreply := hphase.reply_eq_nil hcalls
      have hqueued := Sending.queued_of_step hclient
      rw [h.queued, hreply, SendingStep.queued] at hqueued
      refine ⟨?_, hwaits h.waits⟩
      rcases h.waits with hnone | hnothing
      -- an empty reply
      · simp only [unreplied, hcalls, List.flatMap_cons, List.append_eq_nil_iff] at hnone
        simpa [hreply, hnone.1] using hqueued
      · simpa [hreply, hnothing] using hqueued
    | doWrite | create => exact ⟨h.queued, hwaits h.waits⟩
  | writeClient hclient | disconnectClient hclient =>
    exact ⟨((Sending.queued_of_step hclient).trans (List.append_nil _)).trans h.queued, h.waits⟩
  | deliver harriving hclient =>
    refine ⟨?_, Or.inl (htime rfl)⟩
    rw [Sending.queued_of_step hclient, h.queued, SendingStep.queued, List.append_assoc]
  | _ => exact ⟨h.queued, h.waits⟩

/-- **To the client**: as long as no write to it has failed, the client has received the first of
the origin's bytes, with the reply to a `CONNECT` somewhere among them, and the others are on their
way in order; the reply comes first if no chunk of the origin overtakes it. -/
theorem relayed_to_client (hrun : runFrom step init ls = .ok s)
    (hfails : ∀ l ∈ ls, ¬ FailsToClient l) :
    (∃ early late, s.fromOrigin = early ++ late ∧
      s.client.wire ++ (s.client.stream.writeQueue.flatten ++ s.arriving.getD []) =
        early ++ (s.reply ++ late)) ∧
    (∀ remote, s.remote = some remote → s.reply ++ s.unreplied = replyTo s.head) ∧
    (AllSteps step InTime init ls →
      s.client.wire ++ (s.client.stream.writeQueue.flatten ++ s.arriving.getD []) =
        s.reply ++ s.fromOrigin) := by
  obtain ⟨hphase, early, late, hreplied⟩ := runFrom_invariant
    (fun s => Phase s ∧ ∃ early late, Replied s early late)
    (fun h hstep => ⟨phase_step h.1 hstep, replied_step h.1 h.2 hstep⟩)
    ⟨phase_init, [], [], ⟨rfl, rfl, rfl, fun _ => rfl⟩⟩ hrun
  have hclient : ClientConserves s := AllSteps.invariant ClientConserves
    (fun h hC hstep => clientConserves_step h hC hstep) clientConserves_init
    (AllSteps.of_forall_mem (P := fun l => ¬ FailsToClient l) hfails) hrun
  have hstream : s.client.wire ++ s.client.stream.writeQueue.flatten = s.client.queued := hclient.2
  refine ⟨⟨early, late ++ s.arriving.getD [], ?_, ?_⟩, fun remote hremote => ?_, fun htime => ?_⟩
  · rw [hreplied.arrived, hreplied.passedOn, List.append_assoc]
  · rw [← List.append_assoc, hstream, hreplied.queued]
    simp
  · exact (hphase.relaying_of_remote hremote).reply
  · have hprompt := (AllSteps.invariant (fun s => Phase s ∧ Prompt s)
      (fun h hC hstep => ⟨phase_step h.1 hstep, prompt_step h.1 h.2 hC hstep⟩)
      ⟨phase_init, rfl, Or.inl rfl⟩ htime hrun).2
    rw [← List.append_assoc, hstream, hprompt.queued, hreplied.arrived, List.append_assoc]

/-! ## Runs -/

/-- A tunnel is opened, with the first bytes for the origin in the same chunk. -/
def tunnel : List RelayStep := [.received ⟨CONNECT ++ plainRequest.drop 4 ++ [1, 2, 3], 0⟩, .call]

/-- The stream to the origin is made, `initWrite` is passed on, and a part of it is written. -/
theorem relayed_to_origin_tunnel : ∃ (s : Relay) (remote : Buffering),
    runFrom step init (tunnel ++ [.call, .attach, .connected, .writeComplete, .proceed, .proceed,
      .proceed, .received ⟨[4], 0⟩, .writeOrigin 0 [⟨2, .other 0, 1⟩, ⟨-1, .EAGAIN, 2⟩]]) = .ok s ∧
    s.origin.wire = [1, 2] ∧
    s.origin.wire ++ (s.origin.stream.writeQueue.flatten ++ (remote.toCome ++ s.waiting)) =
      s.fromClient.drop (Replaying.erased s.head) := by
  obtain ⟨s, hrun, hwire, hremote⟩ : ∃ s,
      runFrom step init (tunnel ++ [.call, .attach, .connected, .writeComplete, .proceed, .proceed,
        .proceed, .received ⟨[4], 0⟩, .writeOrigin 0 [⟨2, .other 0, 1⟩, ⟨-1, .EAGAIN, 2⟩]]) =
          .ok s ∧ s.origin.wire = [1, 2] ∧ s.remote.isSome = true := by
    decide +kernel
  obtain ⟨remote, hremote⟩ := Option.isSome_iff_exists.mp hremote
  exact ⟨s, remote, hrun, hwire,
    (relayed_to_origin hrun (by simp [tunnel, FailsToOrigin, WriteCall.actuallySent,
      convertFromStdError]) hremote).2.2⟩

/-- The origin's first byte overtakes the reply. -/
theorem relayed_to_client_overtaken : ∃ s,
    runFrom step init (tunnel ++ [.attach, .connected, .arrive [9], .deliver, .call]) = .ok s ∧
    s.client.queued = 9 :: OK_REPLY ∧
    ∃ early late, s.fromOrigin = early ++ late ∧
      s.client.wire ++ (s.client.stream.writeQueue.flatten ++ s.arriving.getD []) =
        early ++ (s.reply ++ late) := by
  obtain ⟨s, hrun, hqueued⟩ : ∃ s,
      runFrom step init (tunnel ++ [.attach, .connected, .arrive [9], .deliver, .call]) = .ok s ∧
        s.client.queued = 9 :: OK_REPLY := by
    decide +kernel
  exact ⟨s, hrun, hqueued, (relayed_to_client hrun (by simp [tunnel, FailsToClient])).1⟩

end Relay

end Epoller
