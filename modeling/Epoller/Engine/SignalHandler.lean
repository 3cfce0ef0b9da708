import Epoller.Foundation.Cursor
import Epoller.Foundation.Runs
import Epoller.Foundation.Threads

/-!
# The Signal Handler

A signal stops the epoll thread wherever it is, and `doSignalHandler` runs on top of
it. It locks `evHashLock`, which is not recursive: if the code underneath holds it, or
an earlier handler does, the thread waits for itself. The epoll thread is followed
through `doEpoll`, `newEvent`, `handleTimerExpired` and `Semaphore::signal` from one
lock operation to the next; workers lock and unlock whatever they like.

## Contents

- `EpollPc`, `EpollPc.action`, `EpollPc.next`, `EpollPc.holds`: the code of the epoll thread
- `EpollThread`, `EpollStep`, `EpollThread.step`: the thread, its handlers and the mutexes
- `Accounted`: a mutex is held by the thread just when a place in the code holds it
- `Safe`, `InterruptsHolder`: no handler waits for its own thread
- `safe_iff_not_interruptsHolder`: that holds in exactly the runs without such a signal
-/

namespace Epoller

open Foundation

/-! ## The Code of the Epoll Thread -/

/-- The mutexes that the epoll thread locks -/
inductive EngineMutex where
  | evHashLock
  | eqLock
  | timerLock
  /-- `Timers::timeLock` -/
  | timeLock
  /-- `Semaphore::mutex` -/
  | semMutex
  /-- `Logger::lock` -/
  | loggerLock
deriving DecidableEq, Repr

/-- What `epEvents[i]` stands for. -/
inductive Reported where
  | timer
  | socket
deriving DecidableEq, Repr

/-- The outcome of `epoll_wait` -/
inductive WaitResult where
  | events (reported : List Reported)
  /-- `EINTR` or `EAGAIN` -/
  | interrupted
  /-- Another error, for which `pErrorThrow` logs and traps -/
  | failed
deriving DecidableEq, Repr

/-- What `newEvent` does next. -/
inductive NewEventPc where
  | lockHash
  | find
  | lockQueue
  | push
  | unlockQueue
  | unlockHash (found : Bool)
deriving DecidableEq, Repr

/-- How the locked part of `Engine::handleTimerExpired` ends. -/
inductive ExpiryOutcome where
  | idle
  | queued
  | thrown
deriving DecidableEq, Repr

/-- What `Engine::handleTimerExpired` does next. -/
inductive TimerPc where
  | lockTimer
  | testEvent
  | clearTimer
  | lockQueue
  | push
  | unlockQueue
  /-- `timerEvent.reset()` -/
  | reset
  /-- `Timers::handleTimerExpired` -/
  | lockTime
  | removeTimer
  | unlockTime (thrown : Bool)
  /-- `logError` of an assertion that fails, in `Timers` or in `clearTimer`, with as many locked
  sections to come before the trap -/
  | assertion (inTimers : Bool) (sections : ℕ)
  | assertionLocked (inTimers : Bool) (sections : ℕ)
  | unlockTimer (outcome : ExpiryOutcome)
deriving DecidableEq, Repr

/-- What `Semaphore::signal` does next. -/
inductive SignalPc where
  | lock
  | increment
  | unlock
deriving DecidableEq, Repr

/-- What the epoll thread does next in `doEpoll` and what it calls; `rest` are the events that are
left for the loop. -/
inductive EpollPc where
  /-- `while(!stopping)` -/
  | loopTest
  | epollWait
  /-- `if(stopping)` -/
  | stopTest (result : WaitResult)
  | forEach (rest : List Reported)
  | newEvent (place : NewEventPc) (rest : List Reported)
  | handleTimerExpired (place : TimerPc) (rest : List Reported)
  | signal (place : SignalPc) (rest : List Reported)
  /-- `logError` in the handlers of the exceptions, or on the way to the trap of `pErrorThrow`, with
  as many locked sections to come -/
  | logError (traps : Bool) (sections : ℕ)
  | logErrorLocked (traps : Bool) (sections : ℕ)
  /-- `doEpoll` has returned. -/
  | left
deriving DecidableEq, Repr

/-- What the environment decides of a step. -/
inductive EpollChoice where
  /-- Nothing -/
  | go
  /-- The outcome of `epoll_wait` -/
  | waited (result : WaitResult)
  /-- Whether `eventHash.find` finds the id, or `timerEvent` is set -/
  | answer (found : Bool)
  /-- An allocation fails, and the call throws. -/
  | throw
  /-- An assertion fails. -/
  | assertion
  /-- A system call fails for which `pErrorThrow` is called. -/
  | pErrorThrow
deriving DecidableEq, Repr

namespace EpollPc

/-- How often `Logger::doLog` locks `Logger::lock` -/
def LOG_SECTIONS : ℕ := 3

def action : EpollPc → MutexAction EngineMutex
  | newEvent .lockHash _ => .lock .evHashLock
  | newEvent (.unlockHash _) _ => .unlock .evHashLock
  | newEvent .lockQueue _ | handleTimerExpired .lockQueue _ => .lock .eqLock
  | newEvent .unlockQueue _ | handleTimerExpired .unlockQueue _ => .unlock .eqLock
  | handleTimerExpired .lockTimer _ => .lock .timerLock
  | handleTimerExpired (.unlockTimer _) _ => .unlock .timerLock
  | handleTimerExpired .lockTime _ => .lock .timeLock
  | handleTimerExpired (.unlockTime _) _ => .unlock .timeLock
  | signal .lock _ => .lock .semMutex
  | signal .unlock _ => .unlock .semMutex
  | logError _ (_ + 1) | handleTimerExpired (.assertion _ (_ + 1)) _ => .lock .loggerLock
  | logErrorLocked .. | handleTimerExpired (.assertionLocked ..) _ => .unlock .loggerLock
  | _ => .none

/-- Where the thread goes on. -/
def next (stopping : Bool) : EpollPc → EpollChoice → Option EpollPc
  | loopTest, .go => some (if stopping = true then left else epollWait)
  | epollWait, .waited result => some (stopTest result)
  | stopTest result, .go =>
    if stopping = true then some left
    else match result with
      | .events reported => some (forEach reported)
      | .interrupted => some loopTest
      -- `pErrorThrow` logs, and so does its assertion
      | .failed => some (logError true (2 * LOG_SECTIONS))
  | forEach [], .go => some loopTest
  | forEach (.timer :: rest), .go => some (handleTimerExpired .lockTimer rest)
  | forEach (.socket :: rest), .go => some (newEvent .lockHash rest)
  | newEvent .lockHash rest, .go => some (newEvent .find rest)
  | newEvent .find rest, .answer found =>
    some (newEvent (if found = true then .lockQueue else .unlockHash false) rest)
  | newEvent .lockQueue rest, .go => some (newEvent .push rest)
  | newEvent .push rest, .go => some (newEvent .unlockQueue rest)
  | newEvent .unlockQueue rest, .go => some (newEvent (.unlockHash true) rest)
  | newEvent (.unlockHash found) rest, .go =>
    some (if found = true then signal .lock rest else forEach rest)
  | handleTimerExpired .lockTimer rest, .go => some (handleTimerExpired .testEvent rest)
  | handleTimerExpired .testEvent rest, .answer found =>
    some (handleTimerExpired (if found = true then .clearTimer else .unlockTimer .idle) rest)
  | handleTimerExpired .clearTimer rest, .go => some (handleTimerExpired .lockQueue rest)
  | handleTimerExpired .clearTimer rest, .pErrorThrow =>
    some (handleTimerExpired (.assertion false (2 * LOG_SECTIONS)) rest)
  | handleTimerExpired .lockQueue rest, .go => some (handleTimerExpired .push rest)
  | handleTimerExpired .push rest, .go => some (handleTimerExpired .unlockQueue rest)
  | handleTimerExpired .unlockQueue rest, .go => some (handleTimerExpired .reset rest)
  | handleTimerExpired .reset rest, .go => some (handleTimerExpired .lockTime rest)
  | handleTimerExpired .lockTime rest, .go => some (handleTimerExpired .removeTimer rest)
  | handleTimerExpired .removeTimer rest, .go =>
    some (handleTimerExpired (.unlockTime false) rest)
  | handleTimerExpired .removeTimer rest, .throw =>
    some (handleTimerExpired (.unlockTime true) rest)
  | handleTimerExpired .removeTimer rest, .assertion =>
    some (handleTimerExpired (.assertion true LOG_SECTIONS) rest)
  | handleTimerExpired .removeTimer rest, .pErrorThrow =>
    some (handleTimerExpired (.assertion true (2 * LOG_SECTIONS)) rest)
  | handleTimerExpired (.assertion inTimers (sections + 1)) rest, .go =>
    some (handleTimerExpired (.assertionLocked inTimers sections) rest)
  | handleTimerExpired (.assertionLocked inTimers sections) rest, .go =>
    some (handleTimerExpired (.assertion inTimers sections) rest)
  | handleTimerExpired (.unlockTime thrown) rest, .go =>
    some (handleTimerExpired (.unlockTimer (if thrown = true then .thrown else .queued)) rest)
  | handleTimerExpired (.unlockTimer .idle) rest, .go => some (forEach rest)
  | handleTimerExpired (.unlockTimer .queued) rest, .go => some (signal .lock rest)
  | handleTimerExpired (.unlockTimer .thrown) _, .go => some (logError false LOG_SECTIONS)
  | signal .lock rest, .go => some (signal .increment rest)
  | signal .increment rest, .go => some (signal .unlock rest)
  | signal .unlock rest, .go => some (forEach rest)
  | logError traps (sections + 1), .go => some (logErrorLocked traps sections)
  | logErrorLocked traps sections, .go => some (logError traps sections)
  -- `stop` does nothing on this thread
  | logError false 0, .go => some left
  -- behind a trap there is no step
  | _, _ => none

/-- The code holds the mutex at this place. -/
def holds : EpollPc → EngineMutex → Bool
  | newEvent .lockHash _, .evHashLock => false
  | newEvent _ _, .evHashLock => true
  | newEvent .push _, .eqLock | newEvent .unlockQueue _, .eqLock => true
  | handleTimerExpired .lockTimer _, .timerLock => false
  | handleTimerExpired _ _, .timerLock => true
  | handleTimerExpired .push _, .eqLock | handleTimerExpired .unlockQueue _, .eqLock => true
  | handleTimerExpired .removeTimer _, .timeLock
  | handleTimerExpired (.unlockTime _) _, .timeLock => true
  | handleTimerExpired (.assertion inTimers _) _, .timeLock
  | handleTimerExpired (.assertionLocked inTimers _) _, .timeLock => inTimers
  | signal .increment _, .semMutex | signal .unlock _, .semMutex => true
  | logErrorLocked .., .loggerLock | handleTimerExpired (.assertionLocked ..) _, .loggerLock => true
  | _, _ => false

/-- What an operation does to the mutexes that are held. -/
theorem holds_next {stopping : Bool} {pc pc' : EpollPc} {choice : EpollChoice}
    (h : pc.next stopping choice = some pc') (m : EngineMutex) :
    pc'.holds m = pc.action.apply pc.holds m := by
  revert h
  fun_cases next stopping pc choice <;> intro h <;> cases h <;> cases m
  all_goals first | rfl | (split <;> rfl)

end EpollPc

/-! ## The Machine -/

/-- The signals that `doInit` gives a handler. -/
inductive Signal where
  | SIGINT
  | SIGQUIT
  | SIGTERM
  | SIGUSR1
deriving DecidableEq, Repr

/-- What `doSignalHandler` does next. -/
inductive HandlerPc where
  /-- `!stopping`, on the epoll thread -/
  | test
  | lock
  | set
  | unlock
  | ret
deriving DecidableEq, Repr

/-- A handler on the stack of the epoll thread -/
structure HandlerFrame where
  signal : Signal
  pc : HandlerPc
deriving DecidableEq, Repr

/-- The handler holds `evHashLock`. -/
def HandlerFrame.holds (f : HandlerFrame) : Bool := f.pc == .set || f.pc == .unlock

inductive MutexOwner where
  | epollThread
  | worker
deriving DecidableEq, Repr

/-- The epoll thread, with the handlers that run on top of it, the innermost first. -/
structure EpollThread where
  pc : EpollPc
  handlers : List HandlerFrame
  stopping : Bool
  owner : EngineMutex → Option MutexOwner

inductive EpollStep where
  /-- The code under the handlers goes on. -/
  | epoll (choice : EpollChoice)
  /-- A signal reaches the epoll thread; on another thread the handler does nothing. -/
  | signal (signal : Signal)
  /-- The innermost handler goes on. -/
  | handler
  | workerLock (m : EngineMutex)
  | workerUnlock (m : EngineMutex)
deriving DecidableEq, Repr

/-- Why a step is refused. -/
inductive ThreadHalt where
  /-- The mutex is held. -/
  | blocked
  /-- The step is not possible now. -/
  | disabled
deriving DecidableEq, Repr

namespace EpollThread

def init : EpollThread := ⟨.loopTest, [], false, fun _ => none⟩

def setOwner (s : EpollThread) (m : EngineMutex) (owner : Option MutexOwner) : EpollThread :=
  { s with owner := Function.update s.owner m owner }

/-- An operation of the epoll thread on a mutex -/
def act (s : EpollThread) (action : MutexAction EngineMutex) : Except ThreadHalt EpollThread :=
  match action.run .epollThread s.owner with
  | some owner => .ok { s with owner }
  | none => .error .blocked

def step (s : EpollThread) : EpollStep → Except ThreadHalt EpollThread
  | .epoll choice =>
    if s.handlers = [] then
      match s.pc.next s.stopping choice with
      | some pc => do
        let t ← s.act s.pc.action
        .ok { t with pc }
      | none => .error .disabled
    else .error .disabled
  | .signal signal =>
    -- a signal is blocked while its handler runs
    if signal ∉ s.handlers.map HandlerFrame.signal then
      .ok { s with handlers := ⟨signal, .test⟩ :: s.handlers }
    else .error .disabled
  | .handler =>
    match s.handlers with
    | [] => .error .disabled
    | ⟨signal, pc⟩ :: rest =>
      match pc with
      | .test =>
        .ok { s with handlers := ⟨signal, if s.stopping = true then .ret else .lock⟩ :: rest }
      | .lock => do
        let t ← s.act (.lock .evHashLock)
        .ok { t with handlers := ⟨signal, .set⟩ :: rest }
      | .set => .ok { s with stopping := true, handlers := ⟨signal, .unlock⟩ :: rest }
      | .unlock => do
        let t ← s.act (.unlock .evHashLock)
        .ok { t with handlers := ⟨signal, .ret⟩ :: rest }
      | .ret => .ok { s with handlers := rest }
  | .workerLock m =>
    if s.owner m = none then .ok (s.setOwner m (some .worker)) else .error .blocked
  | .workerUnlock m =>
    if s.owner m = some .worker then .ok (s.setOwner m none) else .error .disabled

variable {s s' : EpollThread} {l : EpollStep} {ls : List EpollStep}

/-- **Specification of `act`** -/
theorem act_eq_ok_iff {action : MutexAction EngineMutex} : s.act action = .ok s' ↔
    ∃ owner, action.run .epollThread s.owner = some owner ∧ s' = { s with owner } := by
  unfold act
  split <;> simp [*, eq_comm]

/-- **Specification of `step`** -/
inductive Moves (s : EpollThread) : EpollStep → EpollThread → Prop where
  | epoll {choice : EpollChoice} {pc : EpollPc} {owner : EngineMutex → Option MutexOwner}
      (hhandlers : s.handlers = []) (hnext : s.pc.next s.stopping choice = some pc)
      (hrun : s.pc.action.run .epollThread s.owner = some owner) :
      Moves s (.epoll choice) { s with pc, owner }
  | signal {signal : Signal} :
      Moves s (.signal signal) { s with handlers := ⟨signal, .test⟩ :: s.handlers }
  | test {signal : Signal} {rest : List HandlerFrame}
      (hhandlers : s.handlers = ⟨signal, .test⟩ :: rest) :
      Moves s .handler
        { s with handlers := ⟨signal, if s.stopping = true then .ret else .lock⟩ :: rest }
  | lock {signal : Signal} {rest : List HandlerFrame}
      (hhandlers : s.handlers = ⟨signal, .lock⟩ :: rest) (hfree : s.owner .evHashLock = none) :
      Moves s .handler
        { s.setOwner .evHashLock (some .epollThread) with handlers := ⟨signal, .set⟩ :: rest }
  | set {signal : Signal} {rest : List HandlerFrame}
      (hhandlers : s.handlers = ⟨signal, .set⟩ :: rest) :
      Moves s .handler { s with stopping := true, handlers := ⟨signal, .unlock⟩ :: rest }
  | unlock {signal : Signal} {rest : List HandlerFrame}
      (hhandlers : s.handlers = ⟨signal, .unlock⟩ :: rest) :
      Moves s .handler
        { s.setOwner .evHashLock none with handlers := ⟨signal, .ret⟩ :: rest }
  | ret {signal : Signal} {rest : List HandlerFrame}
      (hhandlers : s.handlers = ⟨signal, .ret⟩ :: rest) :
      Moves s .handler { s with handlers := rest }
  | worker {l : EpollStep} {m : EngineMutex} {owner : Option MutexOwner}
      (hbefore : s.owner m ≠ some .epollThread) (hafter : owner ≠ some .epollThread) :
      Moves s l (s.setOwner m owner)

theorem moves_of_step (hstep : s.step l = .ok s') : Moves s l s' := by
  cases l with
  | epoll choice =>
    simp only [step] at hstep
    split at hstep
    · split at hstep
      · obtain ⟨t, hact, hs'⟩ := bind_eq_ok_iff.mp hstep
        obtain ⟨owner, hrun, rfl⟩ := act_eq_ok_iff.mp hact
        cases hs'
        exact .epoll ‹_› ‹_› hrun
      · cases hstep
    · cases hstep
  | signal signal =>
    simp only [step] at hstep
    split at hstep <;> cases hstep
    exact .signal
  | handler =>
    simp only [step] at hstep
    split at hstep
    · cases hstep
    · rename_i signal pc rest hhandlers
      cases pc with
      | test =>
        cases hstep
        exact .test hhandlers
      | lock =>
        obtain ⟨t, hact, hs'⟩ := bind_eq_ok_iff.mp hstep
        obtain ⟨owner, hrun, rfl⟩ := act_eq_ok_iff.mp hact
        obtain ⟨hfree, rfl⟩ := MutexAction.run_lock_eq_some_iff.mp hrun
        cases hs'
        exact .lock hhandlers hfree
      | set =>
        cases hstep
        exact .set hhandlers
      | unlock =>
        cases hstep
        exact .unlock hhandlers
      | ret =>
        cases hstep
        exact .ret hhandlers
  | workerLock m =>
    simp only [step] at hstep
    split at hstep <;> cases hstep
    rename_i hfree
    exact .worker (by rw [hfree]; nofun) nofun
  | workerUnlock m =>
    simp only [step] at hstep
    split at hstep <;> cases hstep
    rename_i howner
    exact .worker (by rw [howner]; nofun) nofun

/-! ## Who Holds the Mutexes -/

/-- How many places in the code of the thread hold the mutex. -/
def holders (pc : EpollPc) (handlers : List HandlerFrame) (m : EngineMutex) : ℕ :=
  (pc.holds m).toNat + if m = .evHashLock then handlers.countP HandlerFrame.holds else 0

/-- The thread holds a mutex just when one place in its code holds it. -/
def Accounted (s : EpollThread) : Prop :=
  ∀ m, (if s.owner m = some .epollThread then 1 else 0) = holders s.pc s.handlers m

/-- A step that changes no owner and no holder -/
theorem Accounted.of_holders (h : Accounted s) (howner : s'.owner = s.owner) (hpc : s'.pc = s.pc)
    (hcount : s'.handlers.countP HandlerFrame.holds = s.handlers.countP HandlerFrame.holds) :
    Accounted s' := by
  intro m
  rw [howner, hpc, holders, hcount]
  exact h m

/-- A step of the code under the handlers -/
theorem Accounted.epoll (h : Accounted s) {choice : EpollChoice} {pc : EpollPc}
    {owner : EngineMutex → Option MutexOwner} (hhandlers : s.handlers = [])
    (hnext : s.pc.next s.stopping choice = some pc)
    (hrun : s.pc.action.run .epollThread s.owner = some owner) :
    Accounted { s with pc, owner } := by
  -- without handlers only the code holds mutexes
  have holders_eq : ∀ pc m, holders pc s.handlers m = (pc.holds m).toNat := by
    intro pc m
    simp [holders, hhandlers]
  have howner : ∀ m, s.owner m = some .epollThread ↔ s.pc.holds m = true := by
    intro m
    have hm := h m
    rw [holders_eq] at hm
    cases hholds : s.pc.holds m <;> simp_all
  intro m
  have hafter := MutexAction.owner_iff howner hrun m
  rw [← EpollPc.holds_next hnext m] at hafter
  change (if owner m = some .epollThread then 1 else 0) = holders pc s.handlers m
  rw [holders_eq]
  cases hholds : pc.holds m <;> simp [hafter, hholds]

/-- A handler locks or unlocks `evHashLock`. -/
theorem Accounted.setOwner (h : Accounted s) (owner : Option MutexOwner)
    (handlers : List HandlerFrame)
    (hcount : (if owner = some .epollThread then 1 else 0) =
      holders s.pc handlers .evHashLock) :
    Accounted { s.setOwner .evHashLock owner with handlers } := by
  intro m
  change (if (Function.update s.owner .evHashLock owner) m = some .epollThread then 1 else 0) =
    holders s.pc handlers m
  by_cases hm : m = .evHashLock
  · subst hm
    rw [Function.update_self]
    exact hcount
  · have hbefore := h m
    rw [Function.update_of_ne hm, hbefore, holders, holders, if_neg hm, if_neg hm]

theorem Accounted.step (h : Accounted s) (hstep : s.step l = .ok s') : Accounted s' := by
  have hevHash := h .evHashLock
  cases moves_of_step hstep with
  | epoll hhandlers hnext hrun => exact h.epoll hhandlers hnext hrun
  | signal => exact h.of_holders rfl rfl (List.countP_cons_of_neg Bool.false_ne_true)
  | @test signal rest hhandlers =>
    refine h.of_holders rfl rfl ?_
    rw [hhandlers]
    split <;> rfl
  | @lock signal rest hhandlers hfree =>
    -- the mutex was free, so this handler is the only holder
    refine h.setOwner _ _ ?_
    rw [hfree, hhandlers] at hevHash
    simp [holders, HandlerFrame.holds] at hevHash ⊢
    omega
  | @set signal rest hhandlers =>
    refine h.of_holders rfl rfl ?_
    rw [hhandlers]
    rfl
  | @unlock signal rest hhandlers =>
    -- this handler was the one holder that there is
    refine h.setOwner _ _ ?_
    rw [hhandlers] at hevHash
    simp [holders, HandlerFrame.holds] at hevHash ⊢
    split at hevHash <;> omega
  | @ret signal rest hhandlers =>
    refine h.of_holders rfl rfl ?_
    rw [hhandlers]
    rfl
  | @worker _ m owner hbefore hafter =>
    intro m'
    rw [← show _ = holders (s.setOwner m owner).pc (s.setOwner m owner).handlers m' from h m']
    by_cases hm : m' = m
    · subst hm
      simp [EpollThread.setOwner, hbefore, hafter]
    · simp [EpollThread.setOwner, hm]

theorem accounted_init : Accounted init := by
  intro m
  cases m <;> rfl

/-! ## Waiting for Oneself -/

/-- The code, or one of the handlers, holds `evHashLock`. -/
def HoldsBelow (pc : EpollPc) (handlers : List HandlerFrame) : Prop :=
  pc.holds .evHashLock = true ∨ ∃ f ∈ handlers, f.holds = true

/-- The handler that is about to lock `evHashLock` does not wait for its own thread. -/
def Safe (s : EpollThread) : Prop :=
  ∀ signal rest, s.handlers = ⟨signal, .lock⟩ :: rest → s.owner .evHashLock ≠ some .epollThread

/-- A handler reads `stopping` as false, and what it has interrupted is inside the locked part of
`newEvent`, or of an earlier handler. -/
def InterruptsHolder (s : EpollThread) : EpollStep → Prop
  | .handler => ∃ signal rest, s.handlers = ⟨signal, .test⟩ :: rest ∧ s.stopping = false ∧
      HoldsBelow s.pc rest
  | _ => False

/-- No handler that is past its test has interrupted a holder. -/
def Clear (pc : EpollPc) : List HandlerFrame → Prop
  | [] => True
  | f :: below => (f.pc = .lock → ¬ HoldsBelow pc below) ∧ Clear pc below

theorem holders_pos_iff {pc : EpollPc} {handlers : List HandlerFrame} :
    0 < holders pc handlers .evHashLock ↔ HoldsBelow pc handlers := by
  rw [holders, if_pos rfl, Nat.add_pos_iff_pos_or_pos, List.countP_pos_iff]
  cases h : pc.holds .evHashLock <;> simp [HoldsBelow, h]

/-- The thread holds `evHashLock` if what its innermost handler has interrupted does. -/
theorem Accounted.owner_iff (h : Accounted s) {f : HandlerFrame} {rest : List HandlerFrame}
    (hhandlers : s.handlers = f :: rest) (hf : f.holds = false) :
    s.owner .evHashLock = some .epollThread ↔ HoldsBelow s.pc rest := by
  have hcount := h .evHashLock
  have hrest : holders s.pc s.handlers .evHashLock = holders s.pc rest .evHashLock := by
    rw [holders, holders, hhandlers, List.countP_cons_of_neg (by rw [hf]; nofun)]
  rw [← holders_pos_iff, ← hrest, ← hcount]
  split <;> simp [*]

theorem Clear.step (h : Clear s.pc s.handlers) (hl : ¬ InterruptsHolder s l)
    (hstep : s.step l = .ok s') : Clear s'.pc s'.handlers := by
  have hbelow : ∀ {f : HandlerFrame} {rest : List HandlerFrame}, s.handlers = f :: rest →
      Clear s.pc rest := fun hhandlers => (hhandlers ▸ h : Clear s.pc (_ :: _)).2
  cases moves_of_step hstep with
  | epoll hhandlers =>
    change Clear _ s.handlers
    rw [hhandlers]
    trivial
  | signal => exact ⟨nofun, h⟩
  | @test signal rest hhandlers =>
    -- past its test the handler stands on what it has interrupted until it returns
    refine ⟨fun hlock => ?_, hbelow hhandlers⟩
    cases hstopping : s.stopping with
    | true => simp [hstopping] at hlock
    | false => exact fun hholds => hl ⟨signal, rest, hhandlers, hstopping, hholds⟩
  | lock hhandlers | set hhandlers | unlock hhandlers => exact ⟨nofun, hbelow hhandlers⟩
  | ret hhandlers => exact hbelow hhandlers
  | worker => exact h

theorem Safe.of_clear (h : Accounted s) (hclear : Clear s.pc s.handlers) : Safe s := by
  intro signal rest hhandlers howner
  rw [hhandlers] at hclear
  exact hclear.1 rfl ((h.owner_iff hhandlers rfl).mp howner)

/-- A handler that interrupts a holder waits for its own thread next. -/
theorem not_interruptsHolder (h : Accounted s) (hstep : s.step l = .ok s') (hsafe : Safe s') :
    ¬ InterruptsHolder s l := by
  intro hinterrupts
  cases l with
  | handler =>
    obtain ⟨signal, rest, hhandlers, hstopping, hholds⟩ := hinterrupts
    have h' := h.step hstep
    simp only [step, hhandlers, hstopping] at hstep
    cases hstep
    exact hsafe signal rest rfl ((h'.owner_iff rfl rfl).mpr hholds)
  | _ => exact hinterrupts

/-- **The signal handler**: in exactly the runs in which no handler interrupts a holder of
`evHashLock` while `stopping` is false, no handler ever tries to lock what its own thread holds. -/
theorem safe_iff_not_interruptsHolder :
    (∀ ms s, ms <+: ls → runFrom step init ms = .ok s → Safe s) ↔
      AllSteps step (fun s l => ¬ InterruptsHolder s l) init ls := by
  constructor
  · refine allSteps_of_forall_prefix Accounted.step
      (fun h _ hstep hsafe => not_interruptsHolder h hstep hsafe) ?_ accounted_init
    intro s l e hrefused hinterrupts
    cases l with
    | handler =>
      -- the test of a handler is never refused
      obtain ⟨signal, rest, hhandlers, -⟩ := hinterrupts
      simp only [step, hhandlers] at hrefused
      cases hrefused
    | _ => exact hinterrupts
  · intro hC ms s hms hrun
    have hkept : ∀ {s l s'}, Accounted s ∧ Clear s.pc s.handlers → ¬ InterruptsHolder s l →
        s.step l = .ok s' → Accounted s' ∧ Clear s'.pc s'.handlers :=
      fun h hl hstep => ⟨h.1.step hstep, Clear.step h.2 hl hstep⟩
    obtain ⟨haccounted, hclear⟩ :=
      forall_prefix_of_allSteps hkept ⟨accounted_init, trivial⟩ hC ms s hms hrun
    exact .of_clear haccounted hclear

/-- A signal comes between the lock and the unlock of `newEvent`. -/
theorem not_safe_in_newEvent : ¬ ∀ ls s, runFrom step init ls = .ok s → Safe s := by
  intro h
  obtain ⟨s, hrun, hhandlers, howner⟩ : ∃ s : EpollThread,
      runFrom step init [.epoll .go, .epoll (.waited (.events [.socket])), .epoll .go, .epoll .go,
        .epoll .go, .signal .SIGINT, .handler] = .ok s ∧
      s.handlers = [⟨.SIGINT, .lock⟩] ∧ s.owner .evHashLock = some .epollThread := by
    decide +kernel
  exact h _ s hrun _ _ hhandlers howner

end EpollThread

end Epoller
