import Epoller.TcpStream.Creation

/-!
# After `disconnect`

`Engine::remove` takes the stream out of `eventHash` and cancels its timers once.
Workers that are past their look-up go on: the loop of `handleRead`, which holds
`readLock`, looks at nothing between two reads, and `handleWrite` only waits for
`writeLock`, which `disconnect` holds until it returns. Both set timers.

## Contents

- `Finality`, `FinalityStep`, `Finality.step`: `handleRead` and `disconnect` step by step
- `Moves`, `moves_of_step`: everything a step can do
- `Final`: no callback and no timer after `disconnect`
- `ReadsOn`, `WritesOn`: the handlers that go on
- `final_of_run`: the law for the runs without them
-/

namespace Epoller

open Foundation

/-! ## What Sets a Timer -/

/-- The call sets a timer of the stream. -/
def EngineCall.setsTimer : EngineCall → Bool
  | setActivity | setEgress _ => true
  | triggerWrites | runWriteComplete => false

namespace TcpStream

variable {start : TimePointNs} {ws : List WriteCall} {p p' : Progress}

theorem writeOnce_refused {w : WriteCall} (hw : ¬ 0 ≤ w.actuallySent) (start : TimePointNs)
    (data : Bytes) (rest : List Bytes) (p : Progress) :
    (writeOnce start w data rest p).1.calls = p.calls ∧
      (writeOnce start w data rest p).2 = false := by
  rw [writeOnce, if_neg hw]
  split <;> exact ⟨rfl, rfl⟩

/-- A `::write` that accepts nothing ends the loop. -/
theorem writeLoop_refused (hrefused : ∀ w ∈ ws, ¬ 0 ≤ w.actuallySent)
    (h : writeLoop start ws p = .ok p') : p'.calls = p.calls := by
  cases ws with
  | nil =>
    rw [(writeLoop_nil h).2]
  | cons w ws =>
    have hw := hrefused w (List.mem_cons_self ..)
    obtain ⟨data, rest, -, -, hround⟩ := writeLoop_cons h
    obtain ⟨hcalls, hdone⟩ := writeOnce_refused hw start data rest p
    rcases hround with ⟨p₁, hmore, -⟩ | ⟨hlast, -⟩
    · rw [hmore] at hdone
      cases hdone
    · rw [hlast] at hcalls
      exact hcalls

/-- `handleWrite` of a connected stream that gets nothing written sets no timer. -/
theorem handleWrite_refused {s : TcpStream} (hconnected : s.connected = true)
    (hrefused : ∀ w ∈ ws, ¬ 0 ≤ w.actuallySent) (h : s.handleWrite start ws = .ok p) :
    ∀ call ∈ p.calls, call.setsTimer = false := by
  simp only [handleWrite, hconnected, if_true] at h
  obtain ⟨p₁, hloop, h⟩ := bind_eq_ok_iff.mp h
  have hcalls : p₁.calls = [] := writeLoop_refused hrefused hloop
  split at h <;> cases h
  · intro call hmem
    rw [hcalls] at hmem
    rw [List.mem_singleton.mp hmem]
    rfl
  · intro call hmem
    rw [hcalls] at hmem
    exact absurd hmem List.not_mem_nil

end TcpStream

namespace StreamSystem

variable {s s' : StreamSystem} {l : StreamStep}

/-- No timer of the stream is in `Timers`. -/
def TimersOff (s : StreamSystem) : Prop := s.activityTimer = false ∧ s.egressTimer = false

theorem TimersOff.newEvent (h : TimersOff s) (events : EpollEvents) :
    TimersOff (s.newEvent events) := by
  unfold StreamSystem.newEvent
  split
  · exact h
  · exact h

theorem TimersOff.engineCalls (h : TimersOff s) {calls : List EngineCall}
    (hcalls : ∀ call ∈ calls, call.setsTimer = false) : TimersOff (s.engineCalls calls) := by
  induction calls generalizing s with
  | nil => exact h
  | cons call calls ih =>
    have hcall := hcalls call (List.mem_cons_self ..)
    refine ih ?_ fun c hc => hcalls c (List.mem_cons_of_mem _ hc)
    cases call with
    | setActivity | setEgress => cases hcall
    | triggerWrites => exact h.newEvent _
    | runWriteComplete => exact h

theorem TimersOff.disconnect (h : TimersOff s) (hdone : s.disconnect = .ok s') : TimersOff s' := by
  rcases disconnect_cases hdone with ⟨-, rfl⟩ | ⟨-, -, rfl⟩ | ⟨-, rfl⟩
  · exact h
  · exact ⟨rfl, rfl⟩
  · exact h

/-- `handleWrite` sets a timer when it connects the stream or gets something written. -/
def WriteSetsTimer (s : StreamSystem) : StreamStep → Prop
  | .write events _ ws =>
    events.out = true ∧ (s.stream.connected = false ∨ ∃ w ∈ ws, 0 ≤ w.actuallySent)
  | _ => False

instance (s : StreamSystem) (l : StreamStep) : Decidable (s.WriteSetsTimer l) :=
  match l with
  | .write events _ ws => inferInstanceAs (Decidable (events.out = true ∧
      (s.stream.connected = false ∨ ∃ w ∈ ws, 0 ≤ w.actuallySent)))
  | .accept | .connect _ | .add | .queueWrite _ | .disconnect | .expireActivity | .expireEgress
  | .report _ | .newEvent | .pop | .check _ | .read .. | .finish _ | .rearm _
  | .asyncWriteComplete | .asyncDisconnect | .asyncEgress => .isFalse id

/-- Of the steps behind `create`, only the loop of `handleRead` and `handleWrite` set timers. -/
theorem TimersOff.step (h : TimersOff s) (hl : ¬ l.isCreate = true)
    (hread : ∀ events received, l = .read events received → ¬ events.inp = true)
    (hwrite : ¬ WriteSetsTimer s l) (hstep : s.step l = .ok s') : TimersOff s' := by
  cases moves_of_step hstep with
  | accept | connect | abandon | add => exact absurd rfl hl
  | queueWrite data =>
    refine TimersOff.engineCalls (by exact h) ?_
    rcases queueWrite_cases s.stream data with ⟨heq, -⟩ | ⟨heq, -⟩ | ⟨heq, -⟩ <;> rw [heq]
    all_goals simp [EngineCall.setsTimer]
  | disconnect hdone | handleError _ _ hdone | asyncDisconnect _ hdone =>
    exact TimersOff.disconnect (by exact h) hdone
  | expireActivity => exact ⟨rfl, h.2⟩
  | expireEgress => exact ⟨h.1, rfl⟩
  | newEvent => exact TimersOff.newEvent (by exact h) _
  | @write events start ws p hmem hout hp =>
    have hquiet : ¬ (s.stream.connected = false ∨ ∃ w ∈ ws, 0 ≤ w.actuallySent) :=
      fun hsets => hwrite ⟨hout, hsets⟩
    obtain ⟨hconnected, hrefused⟩ := not_or.mp hquiet
    refine TimersOff.engineCalls (by exact h) ?_
    exact TcpStream.handleWrite_refused (Bool.eq_true_of_not_eq_false hconnected)
      (fun w hw hsent => hrefused ⟨w, hw, hsent⟩) hp
  | @read events received hmem =>
    have hinp : events.inp = false := Bool.eq_false_of_not_eq_true (hread events received rfl)
    refine ⟨?_, h.2⟩
    change (s.activityTimer || (events.inp && received)) = false
    rw [h.1, hinp]
    rfl
  | asyncEgress => exact TimersOff.newEvent (by exact h) _
  | report | pop | check | skipWrite | finish | rearm | asyncWriteComplete => exact h

end StreamSystem

/-! ## The Machine -/

/-- What the worker that holds `readLock` does next. -/
inductive ReadPhase where
  /-- `::read` -/
  | read
  /-- `setTimer(activity)` -/
  | setTimer
  /-- `client->received` -/
  | received
deriving DecidableEq, Repr

/-- What the thread that holds `writeLock` in `disconnect` does next; `disconnecting` is set. -/
inductive ClosePhase where
  /-- `self.lock()` and `eventHash.erase` -/
  | erase
  /-- `timers.cancelAllTimers` -/
  | cancelAllTimers
  | ret
deriving DecidableEq, Repr

/-- A stream with its `create`, and those that are inside `handleRead` and `disconnect`. -/
structure Finality where
  creation : Creation
  /-- The loop of `handleRead` for an event -/
  reader : Option (EpollEvents × ReadPhase)
  closing : Option ClosePhase
  /-- The handler that is inside the `disconnect`; none if the client has called it -/
  caller : Option Handler
  /-- A `disconnect` of the registered stream has returned. -/
  returned : Bool
deriving DecidableEq, Repr

inductive FinalityStep where
  /-- A worker takes `readLock`. -/
  | handleRead (events : EpollEvents)
  | read (actuallyRead : ℤ)
  | setTimer
  | received
  /-- `disconnect`, called by the client or a handler, up to `Engine::remove` -/
  | disconnect (caller : Option Handler)
  | erase
  | cancelAllTimers
  | ret
  /-- A step of `create`, the epoll thread or a worker, or another call of the client -/
  | other (l : CreationStep)
deriving DecidableEq, Repr

namespace Finality

def init (kind : Kind) : Finality where
  creation := .init kind
  reader := none
  closing := none
  caller := none
  returned := false

/-- The stream in the engine -/
def system (f : Finality) : StreamSystem := f.creation.system

def setSystem (f : Finality) (system : StreamSystem) : Finality :=
  { f with creation := { f.creation with system } }

/-- The handler that has called `disconnect` is done. -/
def leave (f : Finality) : Option Handler → Finality
  | some h => f.setSystem (f.system.advance h none)
  | none => f

/-- `asyncDisconnect` and `handleError` call `disconnect`. -/
def mayDisconnect (f : Finality) : Option Handler → Bool
  | none => true
  | some .activity => decide (.activity ∈ f.system.handlers)
  | some (.finish events) => events.err && decide (.finish events ∈ f.system.handlers)
  | some _ => false

/-- The steps that are taken apart here -/
def isApart : CreationStep → Bool
  | .other (.read events _) => events.inp
  | .other (.finish events) => events.err
  | .other .disconnect | .other .asyncDisconnect => true
  | _ => false

/-- The steps that wait for `writeLock` -/
def takesWriteLock : CreationStep → Bool
  | .other (.write events ..) => events.out
  | .waitingOutEvent | .other (.queueWrite _) | .other (.finish _) | .other .asyncEgress => true
  | _ => false

def step (f : Finality) : FinalityStep → Except StreamHalt Finality
  | .handleRead events =>
    if f.reader = none ∧ .read events ∈ f.system.handlers ∧ events.inp = true then
      .ok { f with reader := some (events, .read) }
    else .error .disabled
  | .read actuallyRead =>
    match f.reader with
    | some (events, .read) =>
      if 0 < actuallyRead then .ok { f with reader := some (events, .setTimer) }
      else .ok { f.setSystem (f.system.advance (.read events) (some (.finish events))) with
        reader := none }
    | _ => .error .disabled
  | .setTimer =>
    match f.reader with
    | some (events, .setTimer) =>
      .ok { f.setSystem { f.system with activityTimer := true } with
        reader := some (events, .received) }
    | _ => .error .disabled
  | .received =>
    match f.reader with
    | some (events, .received) => .ok { f with reader := some (events, .read) }
    | _ => .error .disabled
  | .disconnect caller =>
    if f.closing = none ∧ f.mayDisconnect caller = true then
      if f.system.stream.disconnecting = true then
        .ok { f.leave caller with returned := f.returned || f.system.registered }
      else
        .ok { f.setSystem { f.system with stream := { f.system.stream with disconnecting := true } }
          with closing := some .erase, caller }
    else .error .disabled
  | .erase =>
    if f.closing = some .erase then
      if f.system.stage = .added then
        if f.system.registered = true then
          .ok { f.setSystem { f.system with registered := false } with
            closing := some .cancelAllTimers }
        else .error .notFoundForRemoval
      -- `self` is empty
      else .ok { f.leave f.caller with closing := none, caller := none }
    else .error .disabled
  | .cancelAllTimers =>
    if f.closing = some .cancelAllTimers then
      .ok { f.setSystem { f.system with activityTimer := false, egressTimer := false } with
        closing := some .ret }
    else .error .disabled
  | .ret =>
    if f.closing = some .ret then
      .ok { f.leave f.caller with closing := none, caller := none, returned := true }
    else .error .disabled
  | .other l =>
    if isApart l = true ∨ (takesWriteLock l = true ∧ f.closing ≠ none) then .error .disabled
    else do
      let creation ← f.creation.step l
      .ok { f with creation }

variable {f f' : Finality} {l : FinalityStep} {ls : List FinalityStep}

/-- **Specification of `step`** -/
inductive Moves (f : Finality) : FinalityStep → Finality → Prop where
  | handleRead {events : EpollEvents} :
      Moves f (.handleRead events) { f with reader := some (events, .read) }
  | read {events : EpollEvents} {actuallyRead : ℤ} (hreader : f.reader = some (events, .read))
      (hread : 0 < actuallyRead) :
      Moves f (.read actuallyRead) { f with reader := some (events, .setTimer) }
  | readEnd {events : EpollEvents} {actuallyRead : ℤ} :
      Moves f (.read actuallyRead)
        { f.setSystem (f.system.advance (.read events) (some (.finish events))) with
          reader := none }
  | setTimer {events : EpollEvents} (hreader : f.reader = some (events, .setTimer)) :
      Moves f .setTimer { f.setSystem { f.system with activityTimer := true } with
        reader := some (events, .received) }
  | received {events : EpollEvents} (hreader : f.reader = some (events, .received)) :
      Moves f .received { f with reader := some (events, .read) }
  /-- A `disconnect` was called before. -/
  | again {caller : Option Handler} (hclosing : f.closing = none)
      (hdisconnecting : f.system.stream.disconnecting = true) :
      Moves f (.disconnect caller)
        { f.leave caller with returned := f.returned || f.system.registered }
  | disconnect {caller : Option Handler} (hclosing : f.closing = none) :
      Moves f (.disconnect caller)
        { f.setSystem { f.system with stream := { f.system.stream with disconnecting := true } }
          with closing := some .erase, caller }
  | erase (hclosing : f.closing = some .erase) (hregistered : f.system.registered = true) :
      Moves f .erase { f.setSystem { f.system with registered := false } with
        closing := some .cancelAllTimers }
  /-- The stream was not added yet. -/
  | eraseNone (hclosing : f.closing = some .erase) (hstage : f.system.stage ≠ .added) :
      Moves f .erase { f.leave f.caller with closing := none, caller := none }
  | cancelAllTimers (hclosing : f.closing = some .cancelAllTimers) :
      Moves f .cancelAllTimers
        { f.setSystem { f.system with activityTimer := false, egressTimer := false } with
          closing := some .ret }
  | ret (hclosing : f.closing = some .ret) :
      Moves f .ret { f.leave f.caller with closing := none, caller := none, returned := true }
  | other {l : CreationStep} {creation : Creation} (hapart : ¬ isApart l = true)
      (hlock : takesWriteLock l = true → f.closing = none)
      (hcreation : f.creation.step l = .ok creation) : Moves f (.other l) { f with creation }

theorem moves_of_step (hstep : f.step l = .ok f') : Moves f l f' := by
  cases l with
  | handleRead events =>
    simp only [step] at hstep
    split at hstep <;> cases hstep
    exact .handleRead
  | read actuallyRead =>
    simp only [step] at hstep
    split at hstep
    · split at hstep <;> cases hstep
      · exact .read ‹_› ‹_›
      · exact .readEnd
    · cases hstep
  | setTimer =>
    simp only [step] at hstep
    split at hstep <;> cases hstep
    exact .setTimer ‹_›
  | received =>
    simp only [step] at hstep
    split at hstep <;> cases hstep
    exact .received ‹_›
  | disconnect caller =>
    simp only [step] at hstep
    split at hstep
    · rename_i hfree
      split at hstep <;> cases hstep
      · exact .again hfree.1 ‹_›
      · exact .disconnect hfree.1
    · cases hstep
  | erase =>
    simp only [step] at hstep
    split at hstep
    · split at hstep
      · split at hstep <;> cases hstep
        exact .erase ‹_› ‹_›
      · cases hstep
        exact .eraseNone ‹_› ‹_›
    · cases hstep
  | cancelAllTimers =>
    simp only [step] at hstep
    split at hstep <;> cases hstep
    exact .cancelAllTimers ‹_›
  | ret =>
    simp only [step] at hstep
    split at hstep <;> cases hstep
    exact .ret ‹_›
  | other l =>
    simp only [step] at hstep
    split at hstep
    · cases hstep
    · rename_i hfree
      obtain ⟨hapart, hlock⟩ := not_or.mp hfree
      obtain ⟨creation, hcreation, hf'⟩ := bind_eq_ok_iff.mp hstep
      cases hf'
      exact .other hapart (fun ht => not_not.mp fun hne => hlock ⟨ht, hne⟩) hcreation

/-! ## Disconnect Is Final -/

/-- Once a `disconnect` of the registered stream has returned, the client gets no `received`, and no
timer is pending. -/
structure Final (f : Finality) : Prop where
  silent : f.returned = true → ∀ f', f.step .received ≠ .ok f'
  timers : f.returned = true → f.system.TimersOff

/-- `disconnect` has cancelled the timers. -/
def Cancelled (f : Finality) : Prop := f.closing = some .ret ∨ f.returned = true

instance (f : Finality) : Decidable f.Cancelled :=
  inferInstanceAs (Decidable (f.closing = some .ret ∨ f.returned = true))

/-- `doAdd` registers a stream whose `disconnect` has found `self` empty. -/
def DisconnectedEarly (f : Finality) : FinalityStep → Prop
  | .other .register => f.system.stream.disconnecting = true ∧ f.closing = none
  | _ => False

/-- The loop of `handleRead` reads on after the timers are cancelled; or a worker has read before,
and has not set its timer when they are, or not called `received` when `disconnect` returns. -/
def ReadsOn (f : Finality) : FinalityStep → Prop
  | .read actuallyRead => f.Cancelled ∧ 0 < actuallyRead
  | .cancelAllTimers => f.reader.map Prod.snd = some .setTimer
  | .ret => f.reader.map Prod.snd = some .received
  | _ => False

/-- `handleWrite` runs after `disconnect` and sets a timer. -/
def WritesOn (f : Finality) : FinalityStep → Prop
  | .other (.other l) => f.returned = true ∧ f.system.WriteSetsTimer l
  | _ => False

instance (f : Finality) (l : FinalityStep) : Decidable (f.DisconnectedEarly l) :=
  match l with
  | .other .register =>
    inferInstanceAs (Decidable (f.system.stream.disconnecting = true ∧ f.closing = none))
  | .handleRead _ | .read _ | .setTimer | .received | .disconnect _ | .erase | .cancelAllTimers
  | .ret | .other .accept | .other .setRate | .other (.connect _) | .other .setTimer
  | .other .waitingOutEvent | .other (.other _) => .isFalse id

instance (f : Finality) (l : FinalityStep) : Decidable (f.ReadsOn l) :=
  match l with
  | .read actuallyRead => inferInstanceAs (Decidable (f.Cancelled ∧ 0 < actuallyRead))
  | .cancelAllTimers =>
    inferInstanceAs (Decidable (f.reader.map Prod.snd = some ReadPhase.setTimer))
  | .ret => inferInstanceAs (Decidable (f.reader.map Prod.snd = some ReadPhase.received))
  | .handleRead _ | .setTimer | .received | .disconnect _ | .erase | .other _ => .isFalse id

instance (f : Finality) (l : FinalityStep) : Decidable (f.WritesOn l) :=
  match l with
  | .other (.other l) =>
    inferInstanceAs (Decidable (f.returned = true ∧ f.system.WriteSetsTimer l))
  | .handleRead _ | .read _ | .setTimer | .received | .disconnect _ | .erase | .cancelAllTimers
  | .ret | .other .accept | .other .setRate | .other (.connect _) | .other .setTimer
  | .other .waitingOutEvent | .other .register => .isFalse id

/-! ## The Invariant -/

/-- **The invariant** -/
structure Sound (f : Finality) : Prop where
  unregistered : f.creation.phase ≠ .returned → f.system.registered = false
  added : f.system.AddedIfRegistered
  removed : f.closing = some .erase ∨ f.system.Removed
  phase : f.closing = some .cancelAllTimers ∨ f.Cancelled → f.creation.phase = .returned
  timers : f.Cancelled → f.system.TimersOff
  unread : f.Cancelled → f.reader.map Prod.snd ≠ some .setTimer
  silent : f.returned = true → f.reader.map Prod.snd ≠ some .received

/-- A step of the reader -/
theorem Sound.read (h : Sound f) (reader : Option (EpollEvents × ReadPhase))
    (hunread : f.Cancelled → reader.map Prod.snd ≠ some .setTimer)
    (hsilent : f.returned = true → reader.map Prod.snd ≠ some .received) :
    Sound { f with reader } :=
  { h with unread := hunread, silent := hsilent }

/-- What the handlers are at does not matter. -/
theorem Sound.setHandlers (h : Sound f) (handlers : List Handler) :
    Sound (f.setSystem { f.system with handlers }) :=
  { h with }

theorem leave_eq (f : Finality) (caller : Option Handler) :
    ∃ handlers, f.leave caller = f.setSystem { f.system with handlers } := by
  cases caller with
  | none => exact ⟨f.system.handlers, rfl⟩
  | some handler => exact ⟨_, rfl⟩

/-- A step of `create` before `doAdd` -/
theorem Sound.early (h : Sound f) {system : StreamSystem} {phase : CreatePhase}
    (hphase : f.creation.phase ≠ .returned)
    (hregistered : system.registered = f.system.registered) :
    Sound { f with creation := ⟨system, phase⟩ } := by
  have hfalse : system.registered = false := hregistered.trans (h.unregistered hphase)
  exact {
    h with
    unregistered := fun _ => hfalse
    added := fun htrue => (by cases hfalse.symm.trans htrue)
    removed := Or.inr fun _ => hfalse
    phase := fun hdone => absurd (h.phase hdone) hphase
    timers := fun hcancelled => absurd (h.phase (Or.inr hcancelled)) hphase }

/-- `doAdd` registers the stream: who is in `disconnect` will find it. -/
theorem Sound.register (h : Sound f) (hphase : f.creation.phase ≠ .returned)
    (hearly : ¬ DisconnectedEarly f (.other .register)) (armed : Option Bool) :
    Sound { f with creation := ⟨{ f.system with stage := .added, registered := true, armed },
      .returned⟩ } := by
  refine {
    h with
    unregistered := fun hne => absurd rfl hne
    added := fun _ => rfl
    removed := ?_
    phase := fun _ => rfl
    timers := fun hcancelled => absurd (h.phase (Or.inr hcancelled)) hphase }
  by_cases hdisconnecting : f.system.stream.disconnecting = true
  · refine Or.inl ?_
    change f.closing = some .erase
    cases hclosing : f.closing with
    | none => exact absurd ⟨hdisconnecting, hclosing⟩ hearly
    | some phase =>
      cases phase with
      | erase => rfl
      | cancelAllTimers => exact absurd (h.phase (Or.inl hclosing)) hphase
      | ret => exact absurd (h.phase (Or.inr (Or.inl hclosing))) hphase
  · exact Or.inr fun htrue => absurd htrue hdisconnecting

/-- `create` and the handlers keep the stream out of `eventHash` and its timers off. -/
theorem Sound.other (h : Sound f) {l : CreationStep} {creation : Creation}
    (hapart : ¬ isApart l = true) (hlock : takesWriteLock l = true → f.closing = none)
    (hearly : ¬ DisconnectedEarly f (.other l)) (hwrites : ¬ WritesOn f (.other l))
    (hcreation : f.creation.step l = .ok creation) : Sound { f with creation } := by
  cases Creation.moves_of_step hcreation with
  | accept _ hphase | setRate hphase | connect _ hphase | abandon _ hphase | setTimer hphase
  | waitingOutEvent hphase =>
    exact h.early (by rw [hphase]; nofun) rfl
  | register hphase => exact h.register (by rw [hphase]; nofun) hearly _
  | @other l system hl hsystem =>
    have hkept := StreamSystem.kept_of_step hl hsystem
    -- a `handleWrite` comes after the `disconnect` that holds `writeLock`
    have hwrite : f.Cancelled → ¬ f.system.WriteSetsTimer l := by
      rintro (hclosing | hreturned) hsets
      · cases l with
        | write => cases hclosing.symm.trans (hlock hsets.1)
        | _ => exact hsets
      · exact hwrites ⟨hreturned, hsets⟩
    exact {
      h with
      unregistered := fun hphase => Bool.eq_false_of_not_eq_true fun htrue =>
        Bool.false_ne_true ((h.unregistered hphase).symm.trans (hkept.registered htrue))
      added := h.added.step hsystem
      removed := h.removed.imp_right (hkept.removed h.added)
      timers := fun hcancelled => (h.timers hcancelled).step hl
        (fun events received heq => by subst heq; exact hapart) (hwrite hcancelled) hsystem }

/-- **Step**: the invariant is kept when no handler goes on. -/
theorem Sound.step (h : Sound f) (hearly : ¬ DisconnectedEarly f l) (hreads : ¬ ReadsOn f l)
    (hwrites : ¬ WritesOn f l) (hstep : f.step l = .ok f') : Sound f' := by
  cases moves_of_step hstep with
  | handleRead => exact h.read _ (fun _ => nofun) fun _ => nofun
  | read _ hread =>
    -- the timer it is about to set will still be cancelled
    have hnot : ¬ f.Cancelled := fun hcancelled => hreads ⟨hcancelled, hread⟩
    exact h.read _ (fun hcancelled => absurd hcancelled hnot) fun hreturned =>
      absurd (Or.inr hreturned) hnot
  | readEnd => exact (h.setHandlers _).read none (fun _ => nofun) fun _ => nofun
  | @setTimer events hreader =>
    have hnot : ¬ f.Cancelled := fun hcancelled => h.unread hcancelled (by rw [hreader]; rfl)
    exact {
      h with
      timers := fun hcancelled => absurd hcancelled hnot
      unread := fun hcancelled => absurd hcancelled hnot
      silent := fun hreturned => absurd (Or.inr hreturned) hnot }
  | received => exact h.read _ (fun _ => nofun) fun _ => nofun
  | @again caller hclosing hdisconnecting =>
    -- the stream is gone already: this call is none of a registered stream
    have hremoved : f.system.Removed := h.removed.resolve_left (by rw [hclosing]; nofun)
    obtain ⟨handlers, heq⟩ := f.leave_eq caller
    rw [heq, hremoved hdisconnecting, Bool.or_false]
    exact h.setHandlers handlers
  | disconnect hclosing =>
    exact {
      h with
      removed := Or.inl rfl
      phase := fun hdone =>
        h.phase (Or.inr (Or.inr ((hdone.resolve_left nofun).resolve_left nofun)))
      timers := fun hdone => h.timers (Or.inr (hdone.resolve_left nofun))
      unread := fun hdone => h.unread (Or.inr (hdone.resolve_left nofun)) }
  | erase hclosing hregistered =>
    -- only `doAdd`, the last step of `create`, registers the stream
    have hphase : f.creation.phase = .returned := by
      by_contra hne
      cases (h.unregistered hne).symm.trans hregistered
    exact {
      unregistered := fun _ => rfl
      added := fun hfalse => (by cases hfalse)
      removed := Or.inr fun _ => rfl
      phase := fun _ => hphase
      timers := fun hdone => h.timers (Or.inr (hdone.resolve_left nofun))
      unread := fun hdone => h.unread (Or.inr (hdone.resolve_left nofun))
      silent := h.silent }
  | eraseNone hclosing hstage =>
    have hregistered : f.system.registered = false :=
      Bool.eq_false_of_not_eq_true fun htrue => hstage (h.added htrue)
    obtain ⟨handlers, heq⟩ := f.leave_eq f.caller
    rw [heq]
    exact {
      h with
      removed := Or.inr fun _ => hregistered
      phase := fun hdone =>
        h.phase (Or.inr (Or.inr ((hdone.resolve_left nofun).resolve_left nofun)))
      timers := fun hdone => h.timers (Or.inr (hdone.resolve_left nofun))
      unread := fun hdone => h.unread (Or.inr (hdone.resolve_left nofun)) }
  | cancelAllTimers hclosing =>
    -- `hreads` says that the reader is not about to set another one
    have hremoved : f.system.Removed := h.removed.resolve_left (by rw [hclosing]; nofun)
    exact {
      h with
      removed := Or.inr hremoved
      phase := fun _ => h.phase (Or.inl hclosing)
      timers := fun _ => ⟨rfl, rfl⟩
      unread := fun _ => hreads }
  | ret hclosing =>
    -- and here that it is not about to call `received`
    have hremoved : f.system.Removed := h.removed.resolve_left (by rw [hclosing]; nofun)
    obtain ⟨handlers, heq⟩ := f.leave_eq f.caller
    rw [heq]
    exact {
      h with
      removed := Or.inr hremoved
      phase := fun _ => h.phase (Or.inr (Or.inl hclosing))
      timers := fun _ => h.timers (Or.inl hclosing)
      unread := fun _ => h.unread (Or.inl hclosing)
      silent := fun _ => hreads }
  | other hapart hlock hcreation => exact h.other hapart hlock hearly hwrites hcreation

theorem sound_init (kind : Kind) : Sound (init kind) where
  unregistered _ := rfl
  added := StreamSystem.addedIfRegistered_init kind
  removed := Or.inr fun _ => rfl
  phase := nofun
  timers := nofun
  unread := nofun
  silent := nofun

theorem Sound.final (h : Sound f) : Final f where
  silent hreturned f' hstep := by
    cases moves_of_step hstep with
    | received hreader => exact h.silent hreturned (by rw [hreader]; rfl)
  timers hreturned := h.timers (Or.inr hreturned)

/-! ## Main Results -/

/-- **Disconnect is final**: in every run in which no stream is registered after its `disconnect`
and neither `handleRead` nor `handleWrite` goes on after it, the client gets no `received` and no
timer is pending once it has returned. -/
theorem final_of_run {kind : Kind}
    (hearly : AllSteps step (fun f l => ¬ DisconnectedEarly f l) (init kind) ls)
    (hreads : AllSteps step (fun f l => ¬ ReadsOn f l) (init kind) ls)
    (hwrites : AllSteps step (fun f l => ¬ WritesOn f l) (init kind) ls)
    (hrun : runFrom step (init kind) ls = .ok f) : Final f :=
  (AllSteps.invariant Sound (fun h hC hstep => h.step hC.1.1 hC.1.2 hC.2 hstep) (sound_init kind)
    ((hearly.and hreads).and hwrites) hrun).final

/-- A stream is accepted, a worker reads 5 bytes, and the client disconnects in `received`. -/
def disconnectInReceived : List FinalityStep :=
  [.other .accept, .other .setRate, .other .waitingOutEvent, .other .register, .other (.other .pop),
    .other (.other .asyncWriteComplete), .other (.other (.report ⟨false, true, false⟩)),
    .other (.other .newEvent), .other (.other .pop),
    .other (.other (.check ⟨false, true, false⟩)),
    .other (.other (.write ⟨false, true, false⟩ 0 [])), .handleRead ⟨false, true, false⟩,
    .read 5, .setTimer, .received, .disconnect none, .erase, .cancelAllTimers, .ret]

/-- Nothing more is to be read. -/
theorem final_last_read : ∃ f,
    runFrom step (init .accepted) (disconnectInReceived ++ [.read (-1)]) = .ok f ∧
    f.returned = true ∧ f.system.TimersOff := by
  obtain ⟨f, hrun, hreturned⟩ : ∃ f, runFrom step (init .accepted)
      (disconnectInReceived ++ [.read (-1)]) = .ok f ∧ f.returned = true := by
    decide +kernel
  have hfinal : Final f :=
    final_of_run (by decide +kernel) (by decide +kernel) (by decide +kernel) hrun
  exact ⟨f, hrun, hreturned, hfinal.timers hreturned⟩

/-- More is to be read: the client gets a second `received`, and the timer that was set before it is
pending when all handlers are done. -/
theorem not_final_more_input :
    (¬ ∀ ls f, runFrom step (init .accepted) ls = .ok f → f.returned = true →
      ∀ f', f.step .received ≠ .ok f') ∧
    ¬ ∀ ls f, runFrom step (init .accepted) ls = .ok f → f.returned = true →
      f.system.handlers = [] → f.system.TimersOff := by
  constructor
  · intro h
    obtain ⟨f, hrun, hreturned, f', hreceived, -⟩ : ∃ f,
        runFrom step (init .accepted) (disconnectInReceived ++ [.read 5, .setTimer]) = .ok f ∧
        f.returned = true ∧ ∃ f', f.step .received = .ok f' ∧ f'.returned = true := by
      decide +kernel
    exact h _ f hrun hreturned f' hreceived
  · intro h
    obtain ⟨f, hrun, hreturned, hhandlers, htimer⟩ : ∃ f,
        runFrom step (init .accepted) (disconnectInReceived ++ [.read 5, .setTimer, .received,
          .read (-1), .other (.other (.finish ⟨false, true, false⟩)),
          .other (.other (.rearm false))]) = .ok f ∧
        f.returned = true ∧ f.system.handlers = [] ∧ f.system.activityTimer = true := by
      decide +kernel
    cases htimer.symm.trans (h _ f hrun hreturned hhandlers).1

end Finality

end Epoller
