import Epoller.Engine.SignalHandler
import Epoller.Foundation.LockOrder

/-!
# No Deadlock

The locking of the functions that the epoll thread and the workers run while the
engine runs: the engine, the timers, streams, UDP sockets, the listener, the resolver
and the clients of `main.cpp`. A `lock_guard` is a scope, and what decides a branch or
ends a loop is left open. A client has the number of its stream, and a `TcpConn`
that of the `Remote` it connects. Left out are `doSignalHandler`, which runs on top of
whatever the epoll thread does; `~ResolverImpl`, which runs when `doEpoll` has returned;
and `~TcpStream`, which would lock `writeLock` and then `readLock`, the other way round
than `handleRead` does with the client's calls: it does not run, as a stream that
`create` has made holds a reference to itself.

## Contents

- `Mutex`, `Mutex.rank`: the mutexes, and an order of them
- `Locking`: programs, one for each function
- `EngineFunction`, `EngineFunction.locking`: what a thread can be asked to do
- `Locking.noDeadlock`: no circle of threads that wait for each other's mutexes
-/

namespace Epoller

open Foundation Foundation.LockProg

/-! ## The Mutexes -/

inductive Mutex where
  | engine (m : EngineMutex)
  /-- `ResolverImpl::lock` -/
  | resolver
  /-- `TcpConn::lock` -/
  | conn (remote : ℕ)
  /-- `HttpProxy::lock`, `Remote::lock` or `TcpEcho::lock` -/
  | client (stream : ℕ)
  /-- `TcpStream::readLock` -/
  | streamRead (stream : ℕ)
  /-- `TcpStream::writeLock` -/
  | streamWrite (stream : ℕ)
  /-- `Counters::lock` of a stream -/
  | counters (stream : ℕ)
  /-- `UdpSocket::readLock` -/
  | udpRead (socket : ℕ)
  /-- `UdpSocket::writeLock` -/
  | udpWrite (socket : ℕ)
  /-- `TcpListener::lock` -/
  | listener (socket : ℕ)
deriving DecidableEq, Repr

/-- A mutex is locked only by threads whose other mutexes have lower ranks. -/
def Mutex.rank : Mutex → ℕ
  | streamRead _ | udpRead _ => 0
  | resolver => 1
  | conn _ => 2
  | client _ => 3
  | streamWrite _ | udpWrite _ => 4
  | engine .evHashLock => 5
  | engine .timerLock => 6
  | engine .timeLock => 7
  | engine .eqLock => 8
  | engine .semMutex | counters _ | listener _ => 9
  | engine .loggerLock => 10

/-- The locking of a function -/
abbrev Locking := LockProg Mutex

namespace Locking

/-! ## The Engine -/

/-- Any number of lines: `logDebug` and `logError`, and `pErrorLog`, `pErrorThrow` and `assert`,
which log if something is wrong -/
def log : Locking := many (within (.engine .loggerLock) skip)

/-- One look at `count` -/
def Semaphore.wait : Locking := within (.engine .semMutex) skip

def Semaphore.signal : Locking := within (.engine .semMutex) skip

def Engine.setTimerTrigger : Locking := log

def Timers.setTimer : Locking :=
  within (.engine .timeLock) (perhaps (seqs [log, perhaps Engine.setTimerTrigger]))

def Timers.cancelTimer : Locking :=
  within (.engine .timeLock) (perhaps (seqs [log, perhaps Engine.setTimerTrigger]))

def Timers.cancelAllTimers : Locking :=
  within (.engine .timeLock) (seqs [log, perhaps Engine.setTimerTrigger])

def Timers.handleTimerExpired : Locking :=
  within (.engine .timeLock) (seqs [log, Engine.setTimerTrigger])

def Engine.newEvent : Locking :=
  seqs [within (.engine .evHashLock) (perhaps (within (.engine .eqLock) skip)),
    perhaps Semaphore.signal]

def Engine.triggerWrites : Locking := Engine.newEvent

def Engine.runAsync : Locking := seqs [within (.engine .eqLock) skip, Semaphore.signal]

def Engine.setTimer : Locking := within (.engine .timerLock) Timers.setTimer

def Engine.cancelTimer : Locking := within (.engine .timerLock) Timers.cancelTimer

def Engine.handleTimerExpired : Locking :=
  seqs [within (.engine .timerLock)
      (perhaps (seqs [log, within (.engine .eqLock) skip, Timers.handleTimerExpired])),
    perhaps Semaphore.signal]

def Engine.startWorkers : Locking := within (.engine .evHashLock) skip

/-- `waitingOutEvent` is called before `evHashLock` is locked. -/
def Engine.add (waitingOutEvent : Locking) : Locking :=
  perhaps (seqs [waitingOutEvent, within (.engine .evHashLock) log])

def Engine.remove : Locking :=
  perhaps (seqs [within (.engine .evHashLock) log, within (.engine .timerLock)
    Timers.cancelAllTimers])

/-- The virtual functions of a socket -/
structure Handlers where
  handleWrite : Locking
  handleRead : Locking
  handleError : Locking
  waitingOutEvent : Locking

def Engine.run (sock : Handlers) : Locking :=
  seqs [within (.engine .evHashLock) skip,
    perhaps (seqs [perhaps sock.handleWrite, perhaps sock.handleRead,
      either (seqs [sock.handleError, log])
        (seqs [sock.waitingOutEvent, within (.engine .evHashLock) log])])]

/-- `Engine::worker` between `sem.wait` and the event -/
def Engine.popEvent : Locking := within (.engine .eqLock) skip

/-! ## Streams -/

section Streams

variable (stream : ℕ)

def Counters.notify : Locking := perhaps (within (.counters stream) skip)

def TcpStream.waitingOutEvent : Locking := within (.streamWrite stream) skip

def TcpStream.writeQueueEmpty : Locking := within (.streamWrite stream) skip

def TcpStream.queueWrite : Locking :=
  within (.streamWrite stream) (perhaps Engine.triggerWrites)

def TcpStream.disconnect : Locking := within (.streamWrite stream) (perhaps Engine.remove)

def TcpStream.handleWrite : Locking :=
  within (.streamWrite stream)
    (either
      (seqs [many (seqs [log, perhaps (seqs [Counters.notify stream, Engine.setTimer,
          perhaps Engine.setTimer])]), perhaps Engine.runAsync])
      (seqs [Engine.setTimer, either Engine.triggerWrites Engine.runAsync]))

/-- `received` are the calls of the client, one for each chunk. -/
def TcpStream.handleRead (received : List Locking) : Locking :=
  within (.streamRead stream)
    (seqs (received.map (fun call => seqs [Counters.notify stream, Engine.setTimer, call]) ++
      [log]))

def TcpStream.handleError : Locking := seqs [log, TcpStream.disconnect stream]

def TcpStream.asyncEgress : Locking :=
  within (.streamWrite stream) (seqs [log, Engine.triggerWrites])

def TcpStream.asyncDisconnect : Locking := TcpStream.disconnect stream

/-- `create` with a descriptor; the last step but one is `originalDestination`. -/
def TcpStream.createAccepted : Locking :=
  seqs [log, Engine.runAsync, log, Engine.add (TcpStream.waitingOutEvent stream)]

/-- `create` with an address -/
def TcpStream.createOutgoing : Locking :=
  seqs [log, either (seqs [Engine.setTimer, Engine.add (TcpStream.waitingOutEvent stream)]) log]

end Streams

/-! ## The Proxy -/

section Proxy

variable (proxy remote : ℕ)

def HttpProxy.queueWrite : Locking := perhaps (TcpStream.queueWrite proxy)

def HttpProxy.disconnect : Locking :=
  perhaps (seqs [TcpStream.writeQueueEmpty proxy, perhaps (TcpStream.disconnect proxy)])

/-- `endPoint` may log. -/
def HttpProxy.writeComplete : Locking :=
  within (.client proxy) (seqs [log, perhaps (TcpStream.disconnect proxy)])

def Remote.received : Locking := perhaps (HttpProxy.queueWrite proxy)

def Remote.disconnected : Locking := perhaps (HttpProxy.disconnect proxy)

def Remote.writeComplete : Locking :=
  within (.client remote)
    (perhaps (either (TcpStream.queueWrite remote) (perhaps (TcpStream.disconnect remote))))

def Remote.doWrite : Locking :=
  within (.client remote)
    (perhaps (seqs [perhaps (TcpStream.queueWrite remote), TcpStream.queueWrite remote]))

end Proxy

/-! ## Name Resolution -/

section Resolution

variable (proxy remote : ℕ)

/-- `resolved` with `doConnect` -/
def TcpConn.resolved : Locking :=
  within (.conn remote) (perhaps (TcpStream.createOutgoing remote))

def TcpConn.notResolved : Locking := seqs [log, within (.conn remote) skip]

def ResolverImpl.cancel : Locking := within .resolver skip

/-- `~TcpConn`. Whoever calls `resolved` or `notResolved` holds a reference, so it runs behind
them. -/
def TcpConn.destroy : Locking :=
  seqs [perhaps ResolverImpl.cancel, within (.conn remote) (perhaps (Remote.disconnected proxy))]

def UdpSocket.disconnect : Locking := seqs [log, Engine.remove]

def UdpResolver.disconnect : Locking := seqs [log, perhaps UdpSocket.disconnect]

def ResolverImpl.requestError : Locking := log

def UdpResolver.notSent : Locking :=
  seqs [log, UdpResolver.disconnect, ResolverImpl.requestError]

def UdpSocket.doWrite : Locking := seqs [log, perhaps UdpResolver.notSent, log]

/-- It ends with `UdpResolver::writeComplete`. -/
def UdpSocket.handleWrite : Locking := seqs [many UdpSocket.doWrite, log]

def UdpSocket.queueWrite (socket : ℕ) : Locking :=
  seqs [log, within (.udpWrite socket) UdpSocket.handleWrite]

def UdpResolver.connected (socket : ℕ) : Locking :=
  seqs [log, perhaps (UdpSocket.queueWrite socket)]

def UdpSocket.create (socket : ℕ) : Locking :=
  seqs [log, Engine.add skip, log, UdpResolver.connected socket]

/-- `sockets` are those of the lookups. -/
def ResolverImpl.resolve (sockets : List ℕ) : Locking :=
  within .resolver
    (either (either (TcpConn.resolved remote) (TcpConn.notResolved remote))
      (seqs (log :: sockets.map UdpSocket.create ++ [Engine.setTimer])))

def TcpConnection.create (sockets : List ℕ) : Locking :=
  either (TcpStream.createOutgoing remote)
    (seqs [perhaps (ResolverImpl.resolve remote sockets),
      perhaps (TcpConn.destroy proxy remote)])

/-- The clients are called, and their references dropped, behind the lock. -/
def ResolverImpl.requestComplete : Locking :=
  seqs [log, within .resolver (seqs [log, perhaps Engine.cancelTimer]), log,
    perhaps (either (TcpConn.resolved remote) (TcpConn.notResolved remote)),
    perhaps (TcpConn.destroy proxy remote)]

def ResolverImpl.queryTimedout : Locking :=
  seqs [log, within .resolver (seqs [log, many (perhaps UdpResolver.disconnect)]),
    perhaps (TcpConn.notResolved remote), perhaps (TcpConn.destroy proxy remote)]

def UdpResolver.received : Locking :=
  seqs [log, UdpResolver.disconnect, ResolverImpl.requestComplete proxy remote]

def UdpSocket.handleRead (socket : ℕ) : Locking :=
  within (.udpRead socket) (seqs [log, perhaps (UdpResolver.received proxy remote)])

def UdpSocket.handlers (socket : ℕ) : Handlers where
  handleWrite := UdpSocket.handleWrite
  handleRead := UdpSocket.handleRead proxy remote socket
  -- `UdpResolver::disconnected` logs
  handleError := log
  waitingOutEvent := skip

/-- A chunk for the proxy: it is passed to a `Remote`, or is one of those that lead to a new one,
with `sockets` for the lookups. -/
def HttpProxy.received (sockets : List ℕ) : Locking :=
  either (Remote.doWrite remote)
    (seqs [log, perhaps (either (perhaps (TcpStream.disconnect proxy))
      (seqs [TcpConnection.create proxy remote sockets,
        perhaps (TcpStream.queueWrite proxy)]))])

end Resolution

/-! ## Clients and Listeners -/

/-- The clients of `main.cpp`, each with its stream -/
inductive Client where
  | httpProxy (stream : ℕ)
  | remote (stream proxy : ℕ)
  | tcpEcho (stream : ℕ)
  | tcpSink (stream : ℕ)
  | tcpSplat (stream : ℕ)
deriving DecidableEq, Repr

def Client.stream : Client → ℕ
  | httpProxy stream | remote stream _ | tcpEcho stream | tcpSink stream | tcpSplat stream => stream

/-- What a chunk can lead to: the `Remote`, and the sockets of its lookups. -/
structure Upstream where
  remote : ℕ
  sockets : List ℕ
deriving DecidableEq, Repr

def Client.received (c : Client) (upstream : Upstream) : Locking :=
  match c with
  | httpProxy stream => HttpProxy.received stream upstream.remote upstream.sockets
  | remote _ proxy => Remote.received proxy
  | tcpEcho stream => seqs [log, perhaps (TcpStream.queueWrite stream)]
  | tcpSink _ | tcpSplat _ => log

def Client.writeComplete : Client → Locking
  | httpProxy stream => HttpProxy.writeComplete stream
  | remote stream _ => Remote.writeComplete stream
  | tcpEcho stream => seqs [log, within (.client stream) (perhaps (TcpStream.queueWrite stream))]
  | tcpSink _ => log
  | tcpSplat stream => seqs [log, many (perhaps (TcpStream.queueWrite stream))]

/-- The handlers of the stream of a client; `chunks` are what `handleRead` receives. -/
def Client.handlers (c : Client) (chunks : List Upstream) : Handlers where
  handleWrite := TcpStream.handleWrite c.stream
  handleRead := TcpStream.handleRead c.stream (chunks.map c.received)
  handleError := TcpStream.handleError c.stream
  waitingOutEvent := TcpStream.waitingOutEvent c.stream

/-- `accepted` are the new streams; the last `accept` fails. -/
def TcpListener.handleRead (socket : ℕ) (accepted : List ℕ) : Locking :=
  seqs (accepted.map (fun stream =>
      seqs [within (.listener socket) log, TcpStream.createAccepted stream]) ++
    [within (.listener socket) log])

/-- What `TcpListener` does not override asserts. -/
def TcpListener.handlers (socket : ℕ) (accepted : List ℕ) : Handlers where
  handleWrite := log
  handleRead := TcpListener.handleRead socket accepted
  handleError := log
  waitingOutEvent := skip

def TcpListener.create : Locking := seqs [log, Engine.add skip]

/-! ## What Threads Are Asked to Do -/

/-- The functions that the epoll thread and the workers call while they hold no mutex. Between two
looks of `Semaphore::wait` a worker is in none of them. -/
inductive EngineFunction where
  | createListener
  | startWorkers
  | newEvent
  | handleTimerExpired
  | wait
  | signal
  | popEvent
  | runStream (c : Client) (chunks : List Upstream)
  | runUdp (proxy remote socket : ℕ)
  | runListener (socket : ℕ) (accepted : List ℕ)
  | asyncWriteComplete (c : Client)
  | asyncDisconnect (stream : ℕ)
  | asyncEgress (stream : ℕ)
  | queryTimedout (proxy remote : ℕ)

def EngineFunction.locking : EngineFunction → Locking
  | createListener => TcpListener.create
  | startWorkers => Engine.startWorkers
  | newEvent => Engine.newEvent
  | handleTimerExpired => Engine.handleTimerExpired
  | wait => Semaphore.wait
  | signal => Semaphore.signal
  | popEvent => Engine.popEvent
  | runStream c chunks => Engine.run (c.handlers chunks)
  | runUdp proxy remote socket => Engine.run (UdpSocket.handlers proxy remote socket)
  | runListener socket accepted => Engine.run (TcpListener.handlers socket accepted)
  | asyncWriteComplete c => c.writeComplete
  | asyncDisconnect stream => TcpStream.asyncDisconnect stream
  | asyncEgress stream => TcpStream.asyncEgress stream
  | queryTimedout proxy remote => ResolverImpl.queryTimedout proxy remote

/-! ## The Order -/

theorem ordered_run {sock : Handlers} (hwrite : sock.handleWrite.ordered Mutex.rank 0 = true)
    (hread : sock.handleRead.ordered Mutex.rank 0 = true)
    (herror : sock.handleError.ordered Mutex.rank 0 = true)
    (hwaiting : sock.waitingOutEvent.ordered Mutex.rank 0 = true) :
    (Engine.run sock).ordered Mutex.rank 0 = true := by
  simp only [Engine.run, ordered_seqs, ordered_perhaps, ordered_either, List.forall_mem_cons,
    List.not_mem_nil, false_imp_iff, implies_true, and_true]
  exact ⟨rfl, hwrite, hread, ⟨herror, rfl⟩, hwaiting, rfl⟩

/-- The lookups of a request use mutexes above that of the resolver. -/
theorem ordered_resolve (remote : ℕ) (sockets : List ℕ) :
    (ResolverImpl.resolve remote sockets).ordered Mutex.rank 1 = true := by
  refine ordered_within.mpr ⟨le_refl _, ordered_either.mpr ⟨rfl, ordered_seqs.mpr ?_⟩⟩
  intro p hp
  rcases List.mem_append.mp hp with hp | hp
  · rcases List.mem_cons.mp hp with rfl | hp
    · rfl
    · obtain ⟨socket, -, rfl⟩ := List.mem_map.mp hp
      rfl
  · cases List.mem_singleton.mp hp
    rfl

theorem ordered_create (proxy remote : ℕ) (sockets : List ℕ) :
    (TcpConnection.create proxy remote sockets).ordered Mutex.rank 1 = true := by
  refine ordered_either.mpr ⟨rfl, ordered_seqs.mpr ?_⟩
  rw [List.forall_mem_cons, List.forall_mem_singleton, ordered_perhaps]
  exact ⟨ordered_resolve remote sockets, rfl⟩

/-- A client is called with the `readLock` of its stream locked. -/
theorem ordered_received (c : Client) (upstream : Upstream) :
    (c.received upstream).ordered Mutex.rank 1 = true := by
  cases c with
  | httpProxy proxy =>
    have hcreate := ordered_create proxy upstream.remote upstream.sockets
    have hrequest : (seqs [TcpConnection.create proxy upstream.remote upstream.sockets,
        perhaps (TcpStream.queueWrite proxy)]).ordered Mutex.rank 1 = true := by
      rw [ordered_seqs, List.forall_mem_cons, List.forall_mem_singleton]
      exact ⟨hcreate, rfl⟩
    refine ordered_either.mpr ⟨rfl, ordered_seqs.mpr ?_⟩
    rw [List.forall_mem_cons, List.forall_mem_singleton, ordered_perhaps, ordered_either]
    exact ⟨rfl, rfl, hrequest⟩
  | remote | tcpEcho | tcpSink | tcpSplat => rfl

theorem ordered_handleRead (c : Client) (chunks : List Upstream) :
    (TcpStream.handleRead c.stream (chunks.map c.received)).ordered Mutex.rank 0 = true := by
  refine ordered_within.mpr ⟨le_refl _, ordered_seqs.mpr fun p hp => ?_⟩
  rcases List.mem_append.mp hp with hp | hp
  · obtain ⟨call, hcall, rfl⟩ := List.mem_map.mp hp
    obtain ⟨upstream, -, rfl⟩ := List.mem_map.mp hcall
    rw [ordered_seqs, List.forall_mem_cons, List.forall_mem_cons, List.forall_mem_singleton]
    exact ⟨rfl, rfl, ordered_received c upstream⟩
  · cases List.mem_singleton.mp hp
    rfl

theorem ordered_accept (socket : ℕ) (accepted : List ℕ) :
    (TcpListener.handleRead socket accepted).ordered Mutex.rank 0 = true := by
  refine ordered_seqs.mpr fun p hp => ?_
  rcases List.mem_append.mp hp with hp | hp
  · obtain ⟨stream, -, rfl⟩ := List.mem_map.mp hp
    rfl
  · cases List.mem_singleton.mp hp
    rfl

/-- **Every function locks in order.** -/
theorem ordered_locking (f : EngineFunction) : f.locking.ordered Mutex.rank 0 = true := by
  cases f with
  | runStream c chunks =>
    exact ordered_run rfl (ordered_handleRead c chunks) rfl rfl
  | runListener socket accepted => exact ordered_run rfl (ordered_accept socket accepted) rfl rfl
  | asyncWriteComplete c => cases c <;> rfl
  | createListener | startWorkers | newEvent | handleTimerExpired | wait | signal | popEvent
  | runUdp | asyncDisconnect | asyncEgress | queryTimedout => rfl

/-- **No deadlock**: with any number of threads, no thread waits for a mutex in a circle, and
whoever waits, waits in the end for a thread that can go on. -/
theorem noDeadlock {n : ℕ} {ls : List (LockStep EngineFunction)} {s : LockPool Mutex}
    (hrun : runFrom (LockPool.step EngineFunction.locking) (LockPool.init Mutex n) ls = .ok s) :
    (∀ i, ¬ Relation.TransGen s.Waits i i) ∧
      ∀ i j, s.Waits i j →
        ∃ k, Relation.TransGen s.Waits i k ∧ s.CanGo EngineFunction.locking k :=
  LockPool.noDeadlock_of_run ordered_locking hrun

/-- The epoll thread is in `newEvent` when a worker removes a stream. -/
theorem noDeadlock_newEvent : ∃ s,
    runFrom (LockPool.step EngineFunction.locking) (LockPool.init Mutex 2)
      [.call 0 .newEvent, .go 0 true, .go 0 true, .call 1 (.asyncDisconnect 7), .go 1 true,
        .go 1 true, .go 1 true, .go 1 true] = .ok s ∧
    s.Waits 1 0 ∧
      ∃ k, Relation.TransGen s.Waits 1 k ∧ s.CanGo EngineFunction.locking k := by
  obtain ⟨s, hrun, hwaits⟩ : ∃ s,
      runFrom (LockPool.step EngineFunction.locking) (LockPool.init Mutex 2)
        [.call 0 .newEvent, .go 0 true, .go 0 true, .call 1 (.asyncDisconnect 7), .go 1 true,
          .go 1 true, .go 1 true, .go 1 true] = .ok s ∧ s.Waits 1 0 :=
    ⟨_, rfl, .engine .evHashLock, rfl, rfl⟩
  exact ⟨s, hrun, hwaits, (noDeadlock hrun).2 1 0 hwaits⟩

end Locking

end Epoller
