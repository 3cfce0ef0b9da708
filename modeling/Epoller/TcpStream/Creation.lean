import Epoller.TcpStream.ArmedMask

/-!
# Calls During `create`

The client sees its stream from the first step of `TcpStream::create`, and `self`
and `evId` are set by the last one. A `disconnect` in between finds `self` empty and
only sets a flag that suppresses the next one, and a `triggerWrites` finds no event
id and only sets a flag that suppresses the next one.

## Contents

- `Creation`, `CreationStep`, `Creation.step`: `create` step by step, within the engine
- `Settled`: what is to hold when everything has been run
- `DisconnectedEarly`, `QueuedEarly`, `DropsDuty`: the steps that prevent it
- `settled_of_run`: the law for the runs without them
-/

namespace Epoller

open Foundation

/-- What `create` does next. -/
inductive CreatePhase where
  /-- `client->tcpStream` is assigned. -/
  | attached
  /-- `egressRate = 4096 * 1024`, after `runAsync(notifyWriteComplete)` -/
  | rate
  /-- `setTimer(activity)`, after `connect` -/
  | timer
  /-- `waitingOutEvent` in `doAdd` -/
  | prepared
  /-- The rest of `doAdd` -/
  | register (epollOut : Bool)
  /-- `create` has returned. -/
  | returned
deriving DecidableEq, Repr

/-- A stream in the engine, and `create` that makes it. -/
structure Creation where
  system : StreamSystem
  phase : CreatePhase
deriving DecidableEq, Repr

inductive CreationStep where
  /-- `connected = true` and `runAsync(notifyWriteComplete)` in `create(client, fd)` -/
  | accept
  | setRate
  /-- `connect` and the assignment of `connected` in `create(client, dest)` -/
  | connect (err : ℤ)
  | setTimer
  | waitingOutEvent
  | register
  /-- A step of the client, the epoll thread or a worker -/
  | other (l : StreamStep)
deriving DecidableEq, Repr

/-- A step of `create` -/
def StreamStep.isCreate : StreamStep → Bool
  | accept | connect _ | add => true
  | _ => false

/-! ## Steps Other Than Those of `create` -/

namespace StreamSystem

variable {s s' : StreamSystem} {l : StreamStep}

/-- A stream that was disconnected is not in `eventHash`. -/
def Removed (s : StreamSystem) : Prop :=
  s.stream.disconnecting = true → s.registered = false

/-- What the steps other than those of `create` keep -/
structure Kept (s s' : StreamSystem) : Prop where
  kind : s'.kind = s.kind
  stage : s'.stage = s.stage
  registered : s'.registered = true → s.registered = true
  removed : AddedIfRegistered s → Removed s → Removed s'

/-- A step that does not disconnect -/
theorem Kept.of_registered (hkind : s'.kind = s.kind) (hstage : s'.stage = s.stage)
    (hregistered : s'.registered = s.registered)
    (hdisconnecting : s'.stream.disconnecting = s.stream.disconnecting) : Kept s s' where
  kind := hkind
  stage := hstage
  registered := hregistered.symm.trans
  removed _ h hd := hregistered.trans (h (hdisconnecting.symm.trans hd))

theorem Kept.trans {s'' : StreamSystem} (h : Kept s s') (h' : Kept s' s'') : Kept s s'' where
  kind := h'.kind.trans h.kind
  stage := h'.stage.trans h.stage
  registered := h.registered ∘ h'.registered
  removed hadded hremoved :=
    h'.removed (fun hr => h.stage.trans (hadded (h.registered hr))) (h.removed hadded hremoved)

/-- Calls into the engine behind a step -/
theorem Grows.kept {s₁ : StreamSystem} (hgrows : Grows s₁ s') (h : Kept s s₁) : Kept s s' :=
  h.trans (.of_registered hgrows.kind hgrows.stage hgrows.registered
    (congrArg TcpStream.disconnecting hgrows.stream))

theorem kept_of_disconnect (hdone : s.disconnect = .ok s') : Kept s s' := by
  have hd := disconnects_of_disconnect hdone
  refine ⟨hd.kind, hd.stage, hd.registered, fun hadded h _ => ?_⟩
  by_contra hne
  obtain ⟨hbefore, rfl⟩ := eq_of_disconnect hadded hdone (Bool.eq_true_of_not_eq_false hne)
  exact hne (h hbefore)

theorem kept_of_step (hl : ¬ l.isCreate = true) (hstep : s.step l = .ok s') : Kept s s' := by
  have hsame : ∀ eventQueue activityTimer egressTimer armed report handlers,
      Kept s { s with eventQueue, activityTimer, egressTimer, armed, report, handlers } :=
    fun _ _ _ _ _ _ => .of_registered rfl rfl rfl rfl
  cases moves_of_step hstep with
  | accept | connect | abandon | add => exact absurd rfl hl
  | disconnect hdone => exact kept_of_disconnect hdone
  | handleError _ _ hdone | asyncDisconnect _ hdone =>
    exact (hsame ..).trans (kept_of_disconnect hdone)
  | queueWrite data =>
    refine (engineCalls_grows _ _).kept (.of_registered rfl rfl rfl ?_)
    rcases queueWrite_cases s.stream data with ⟨heq, -⟩ | ⟨heq, -⟩ | ⟨heq, -⟩ <;> rw [heq]
  | newEvent => exact (newEvent_grows _ _).kept (hsame ..)
  | write _ _ hp =>
    refine (engineCalls_grows _ _).kept (.of_registered rfl rfl rfl ?_)
    exact (TcpStream.handleWrite_link hp).2.1
  | asyncEgress => exact (engineCall_grows _ _).kept (hsame ..)
  | expireActivity | expireEgress | report | pop | check | skipWrite | read | finish | rearm
  | asyncWriteComplete => exact hsame ..

/-- Before `Engine::add` only `disconnect` changes what the stream waits for. -/
theorem flags_of_step (hpre : PreAdd s) (hl : ¬ l.isCreate = true) (hstep : s.step l = .ok s')
    (hlive : s'.stream.disconnecting = false) :
    s'.stream.connected = s.stream.connected ∧
      s'.stream.waitingOutEvent = s.stream.waitingOutEvent := by
  -- nobody is inside `Engine::run` or `asyncEgress` yet
  have hnobody : ∀ {x}, x ∈ s.handlers → x = .notifyWriteComplete ∨ x = .activity :=
    fun hx => hpre.handlers _ hx
  cases moves_of_step hstep with
  | accept | connect | abandon | add => exact absurd rfl hl
  | disconnect hdone | handleError _ _ hdone | asyncDisconnect _ hdone =>
    cases (disconnect_disconnecting hdone).symm.trans hlive
  | queueWrite data =>
    rw [(engineCalls_grows _ _).stream]
    rcases queueWrite_cases s.stream data with ⟨heq, -⟩ | ⟨heq, -⟩ | ⟨heq, -⟩ <;> rw [heq] <;>
      exact ⟨rfl, rfl⟩
  | newEvent =>
    rw [(newEvent_grows _ _).stream]
    exact ⟨rfl, rfl⟩
  | write hmem => rcases hnobody hmem with heq | heq <;> cases heq
  | asyncEgress hmem => rcases hnobody hmem with heq | heq <;> cases heq
  | expireActivity | expireEgress | report | pop | check | skipWrite | read | finish | rearm
  | asyncWriteComplete => exact ⟨rfl, rfl⟩

end StreamSystem

/-! ## The Machine -/

namespace Creation

def init (kind : Kind) : Creation where
  system := .init kind
  phase := .attached

def step (c : Creation) : CreationStep → Except StreamHalt Creation
  | .accept =>
    if c.system.kind = .accepted ∧ c.phase = .attached then
      .ok {
        system := { c.system with
          stage := .prepared
          stream := { c.system.stream with connected := true }
          eventQueue := c.system.eventQueue ++ [.notifyWriteComplete] }
        phase := .rate }
    else .error .disabled
  | .setRate =>
    if c.phase = .rate then
      .ok {
        system := { c.system with
          stream := { c.system.stream with egressRate := TcpStream.ACCEPTED_EGRESS_RATE } }
        phase := .prepared }
    else .error .disabled
  | .connect err =>
    if c.system.kind = .outgoing ∧ c.phase = .attached then
      if -1 ≤ err then
        .ok {
          system := { c.system with
            stage := .prepared
            stream := { c.system.stream with connected := decide (0 ≤ err) } }
          phase := .timer }
      else .ok { system := { c.system with stage := .abandoned }, phase := .returned }
    else .error .disabled
  | .setTimer =>
    if c.phase = .timer then
      .ok { system := { c.system with activityTimer := true }, phase := .prepared }
    else .error .disabled
  | .waitingOutEvent =>
    if c.phase = .prepared then .ok { c with phase := .register c.system.stream.waitingOutEvent }
    else .error .disabled
  | .register =>
    match c.phase with
    | .register epollOut =>
      .ok {
        system := { c.system with stage := .added, registered := true, armed := some epollOut }
        phase := .returned }
    | _ => .error .disabled
  | .other l =>
    if l.isCreate = true then .error .disabled
    else do
      let system ← c.system.step l
      .ok { c with system }

variable {c c' : Creation} {l : CreationStep} {ls : List CreationStep}

/-- **Specification of `step`** -/
inductive Moves (c : Creation) : CreationStep → Creation → Prop where
  | accept (hkind : c.system.kind = .accepted) (hphase : c.phase = .attached) :
      Moves c .accept {
        system := { c.system with
          stage := .prepared
          stream := { c.system.stream with connected := true }
          eventQueue := c.system.eventQueue ++ [.notifyWriteComplete] }
        phase := .rate }
  | setRate (hphase : c.phase = .rate) :
      Moves c .setRate {
        system := { c.system with
          stream := { c.system.stream with egressRate := TcpStream.ACCEPTED_EGRESS_RATE } }
        phase := .prepared }
  | connect {err : ℤ} (hkind : c.system.kind = .outgoing) (hphase : c.phase = .attached) :
      Moves c (.connect err) {
        system := { c.system with
          stage := .prepared
          stream := { c.system.stream with connected := decide (0 ≤ err) } }
        phase := .timer }
  | abandon {err : ℤ} (hkind : c.system.kind = .outgoing) (hphase : c.phase = .attached) :
      Moves c (.connect err)
        { system := { c.system with stage := .abandoned }, phase := .returned }
  | setTimer (hphase : c.phase = .timer) :
      Moves c .setTimer { system := { c.system with activityTimer := true }, phase := .prepared }
  | waitingOutEvent (hphase : c.phase = .prepared) :
      Moves c .waitingOutEvent { c with phase := .register c.system.stream.waitingOutEvent }
  | register {epollOut : Bool} (hphase : c.phase = .register epollOut) :
      Moves c .register {
        system := { c.system with stage := .added, registered := true, armed := some epollOut }
        phase := .returned }
  | other {l : StreamStep} {system : StreamSystem} (hl : ¬ l.isCreate = true)
      (hsystem : c.system.step l = .ok system) : Moves c (.other l) { c with system }

theorem moves_of_step (hstep : c.step l = .ok c') : Moves c l c' := by
  cases l with
  | accept =>
    simp only [step] at hstep
    split at hstep <;> cases hstep
    rename_i hready
    exact .accept hready.1 hready.2
  | setRate =>
    simp only [step] at hstep
    split at hstep <;> cases hstep
    exact .setRate ‹_›
  | connect err =>
    simp only [step] at hstep
    split at hstep
    · rename_i hready
      split at hstep <;> cases hstep
      · exact .connect hready.1 hready.2
      · exact .abandon hready.1 hready.2
    · cases hstep
  | setTimer =>
    simp only [step] at hstep
    split at hstep <;> cases hstep
    exact .setTimer ‹_›
  | waitingOutEvent =>
    simp only [step] at hstep
    split at hstep <;> cases hstep
    exact .waitingOutEvent ‹_›
  | register =>
    simp only [step] at hstep
    split at hstep <;> cases hstep
    exact .register ‹_›
  | other l =>
    simp only [step] at hstep
    split at hstep
    · cases hstep
    · rename_i hl
      obtain ⟨system, hsystem, hc'⟩ := bind_eq_ok_iff.mp hstep
      cases hc'
      exact .other hl hsystem

/-! ## What Is to Hold at Rest -/

/-- `create` has returned, and all queued events have been run. -/
def AtRest (c : Creation) : Prop :=
  c.phase = .returned ∧ c.system.eventQueue = [] ∧ c.system.handlers = []

/-- At rest a stream that was disconnected is not in `eventHash`, and data queued on a connected one
are written or have a wake-up pending. -/
def Settled (c : Creation) : Prop :=
  c.AtRest → c.system.Removed ∧
    (c.system.stream.disconnecting = false → c.system.stream.connected = true →
      c.system.stream.writeQueue ≠ [] → c.system.WakeUpPending)

/-- `doAdd` registers a stream whose `disconnect` was called. -/
def DisconnectedEarly (c : Creation) : CreationStep → Prop
  | .register => c.system.stream.disconnecting = true
  | _ => False

/-- Data are queued on an accepted stream before `doAdd`. -/
def QueuedEarly (c : Creation) : CreationStep → Prop
  | .other (.queueWrite data) =>
    data ≠ [] ∧ c.system.kind = .accepted ∧ c.system.stage ≠ .added
  | _ => False

/-- A write fails or accepts nothing, or would block on a rate-limited stream, or a mask that is out
of date is armed. -/
def DropsDuty (c : Creation) : CreationStep → Prop
  | .other (.write events start ws) =>
    ¬ StreamSystem.Progresses (.write events start ws) ∨ c.system.Stalls (.write events start ws)
  | .other (.rearm needOut) => c.system.Stalls (.rearm needOut)
  | _ => False

instance (c : Creation) (l : CreationStep) : Decidable (c.DisconnectedEarly l) :=
  match l with
  | .register => inferInstanceAs (Decidable (c.system.stream.disconnecting = true))
  | .accept | .setRate | .connect _ | .setTimer | .waitingOutEvent | .other _ => .isFalse id

instance (c : Creation) (l : CreationStep) : Decidable (c.QueuedEarly l) :=
  match l with
  | .other (.queueWrite data) => inferInstanceAs
      (Decidable (data ≠ [] ∧ c.system.kind = .accepted ∧ c.system.stage ≠ .added))
  | .accept | .setRate | .connect _ | .setTimer | .waitingOutEvent | .register
  | .other .accept | .other (.connect _) | .other .add | .other .disconnect
  | .other .expireActivity | .other .expireEgress | .other (.report _) | .other .newEvent
  | .other .pop | .other (.check _) | .other (.write ..) | .other (.read ..) | .other (.finish _)
  | .other (.rearm _) | .other .asyncWriteComplete | .other .asyncDisconnect
  | .other .asyncEgress => .isFalse id

instance (c : Creation) (l : CreationStep) : Decidable (c.DropsDuty l) :=
  match l with
  | .other (.write events start ws) => inferInstanceAs
      (Decidable (¬ StreamSystem.Progresses (.write events start ws) ∨
        c.system.Stalls (.write events start ws)))
  | .other (.rearm needOut) => inferInstanceAs (Decidable (c.system.Stalls (.rearm needOut)))
  | .accept | .setRate | .connect _ | .setTimer | .waitingOutEvent | .register
  | .other .accept | .other (.connect _) | .other .add | .other (.queueWrite _)
  | .other .disconnect | .other .expireActivity | .other .expireEgress | .other (.report _)
  | .other .newEvent | .other .pop | .other (.check _) | .other (.read ..) | .other (.finish _)
  | .other .asyncWriteComplete | .other .asyncDisconnect | .other .asyncEgress => .isFalse id

/-! ## Disconnected Streams -/

/-- What holds of a stream from its creation on, unless it is disconnected early. -/
structure Gone (c : Creation) : Prop where
  unregistered : c.phase ≠ .returned → c.system.registered = false
  added : c.system.AddedIfRegistered
  removed : c.system.Removed

/-- A step of `create` before `doAdd` -/
theorem Gone.of_unregistered {system : StreamSystem} {phase : CreatePhase} (h : Gone c)
    (hphase : c.phase ≠ .returned) (hregistered : system.registered = c.system.registered) :
    Gone ⟨system, phase⟩ := by
  have hfalse : system.registered = false := hregistered.trans (h.unregistered hphase)
  refine ⟨fun _ => hfalse, fun htrue => ?_, fun _ => hfalse⟩
  cases hfalse.symm.trans htrue

theorem Gone.step (h : Gone c) (hearly : ¬ DisconnectedEarly c l) (hstep : c.step l = .ok c') :
    Gone c' := by
  cases moves_of_step hstep with
  | accept _ hphase | setRate hphase | connect _ hphase | abandon _ hphase | setTimer hphase
  | waitingOutEvent hphase =>
    exact h.of_unregistered (by rw [hphase]; nofun) rfl
  | register =>
    exact ⟨fun hphase => absurd rfl hphase, fun _ => rfl,
      fun hdisconnecting => absurd hdisconnecting hearly⟩
  | other hl hsystem =>
    have hkept := StreamSystem.kept_of_step hl hsystem
    refine ⟨fun hphase => ?_, h.added.step hsystem, hkept.removed h.added h.removed⟩
    have hbefore := h.unregistered hphase
    refine Bool.eq_false_of_not_eq_true fun htrue => ?_
    cases hbefore.symm.trans (hkept.registered htrue)

theorem gone_init (kind : Kind) : Gone (init kind) :=
  ⟨fun _ => rfl, fun hregistered => (by cases hregistered), fun _ => rfl⟩

/-- A run that registers no stream after its `disconnect` leaves none of them in `eventHash`. -/
theorem removed_of_run {kind : Kind}
    (hdisconnected : AllSteps step (fun c l => ¬ DisconnectedEarly c l) (init kind) ls)
    (hrun : runFrom step (init kind) ls = .ok c) : c.system.Removed :=
  (AllSteps.invariant Gone Gone.step (gone_init kind) hdisconnected hrun).removed

/-! ## Queued Data -/

/-- Where `create` is, and what the stream is like there. -/
def Placed (c : Creation) : Prop :=
  match c.phase with
  | .attached => c.system.stage = .attached ∧ c.system.stream.connected = false
  | .rate => c.system.stage = .prepared ∧ c.system.kind = .accepted ∧
      c.system.stream.connected = true
  | .timer | .prepared => c.system.stage = .prepared
  | .register epollOut => c.system.stage = .prepared ∧
      epollOut = c.system.stream.waitingOutEvent
  | .returned => c.system.stage = .added ∨
      (c.system.stage = .abandoned ∧ c.system.stream.connected = false)

/-- **The invariant** of a stream that is not disconnecting. -/
structure Sound (c : Creation) : Prop where
  live : c.system.Live
  placed : c.Placed

/-- A step other than those of `create` leaves it where it is. -/
theorem Placed.other {system : StreamSystem} (h : Placed c) (hkept : c.system.Kept system)
    (hflags : c.system.stage ≠ .added →
      system.stream.connected = c.system.stream.connected ∧
        system.stream.waitingOutEvent = c.system.stream.waitingOutEvent) :
    Placed { c with system } := by
  have hearly : ∀ {stage}, c.system.stage = stage → stage ≠ .added →
      system.stream.connected = c.system.stream.connected ∧
        system.stream.waitingOutEvent = c.system.stream.waitingOutEvent :=
    fun hstage hne => hflags (hstage ▸ hne)
  unfold Placed at h ⊢
  cases hphase : c.phase with
  | attached =>
    rw [hphase] at h
    obtain ⟨hstage, hconnected⟩ := h
    exact ⟨hkept.stage.trans hstage, (hearly hstage nofun).1.trans hconnected⟩
  | rate =>
    rw [hphase] at h
    obtain ⟨hstage, hkind, hconnected⟩ := h
    exact ⟨hkept.stage.trans hstage, hkept.kind.trans hkind,
      (hearly hstage nofun).1.trans hconnected⟩
  | timer | prepared =>
    rw [hphase] at h
    exact hkept.stage.trans h
  | register epollOut =>
    rw [hphase] at h
    obtain ⟨hstage, hepollOut⟩ := h
    exact ⟨hkept.stage.trans hstage, hepollOut.trans (hearly hstage nofun).2.symm⟩
  | returned =>
    rw [hphase] at h
    rcases h with hstage | ⟨hstage, hconnected⟩
    · exact Or.inl (hkept.stage.trans hstage)
    · exact Or.inr ⟨hkept.stage.trans hstage, (hearly hstage nofun).1.trans hconnected⟩

/-- An accepted stream is connected, and its first event is queued. -/
theorem live_accept {s : StreamSystem} (h : s.Live) (hkind : s.kind = .accepted)
    (hstage : s.stage = .attached) :
    StreamSystem.Live { s with
      stage := .prepared
      stream := { s.stream with connected := true }
      eventQueue := s.eventQueue ++ [.notifyWriteComplete] } := by
  have hpre := h.preAdd (by rw [hstage]; nofun)
  obtain ⟨hqueue, htriggered⟩ := hpre.accepted hkind
  have hpre' := hpre.addEvent .notifyWriteComplete s.activityTimer (Or.inl rfl)
  refine ⟨h.live, fun _ => { hpre' with }, fun hadded => (by cases hadded),
    fun hadded => (by cases hadded), fun _ hne => absurd hqueue hne, fun _ => ⟨rfl, fun hb => ?_⟩,
    fun ht => ?_⟩
  · cases hpre.blocked.symm.trans hb
  · cases htriggered.symm.trans ht

/-- The rate of an accepted stream is set before anything is written. -/
theorem live_setRate {s : StreamSystem} (h : s.Live) (hkind : s.kind = .accepted)
    (hstage : s.stage = .prepared) (hconnected : s.stream.connected = true) (egressRate : ℕ) :
    StreamSystem.Live { s with stream := { s.stream with egressRate } } := by
  have hne : s.stage ≠ .added := by rw [hstage]; nofun
  have hpre := h.preAdd hne
  obtain ⟨hqueue, htriggered⟩ := hpre.accepted hkind
  refine ⟨h.live, fun _ => { hpre with outgoing := fun houtgoing => ?_ },
    fun hadded => absurd hadded hne, fun hadded => absurd hadded hne,
    fun _ hdata => absurd hqueue hdata, fun _ => ⟨hconnected, fun hb => ?_⟩, fun ht => ?_⟩
  · cases hkind.symm.trans houtgoing
  · cases hpre.blocked.symm.trans hb
  · cases htriggered.symm.trans ht

/-- A step other than those of `create` that drops no duty -/
theorem live_other {l : StreamStep} {system : StreamSystem} (h : c.system.Live)
    (hqueued : ¬ QueuedEarly c (.other l)) (hdrops : ¬ DropsDuty c (.other l))
    (hsystem : c.system.step l = .ok system) :
    system.stream.disconnecting = true ∨ system.Live := by
  have hfine : system = c.system ∨ (StreamSystem.Progresses l ∧ ¬ c.system.Stalls l) := by
    cases l with
    | write events start ws =>
      obtain ⟨hprogresses, hstalls⟩ := not_or.mp hdrops
      exact Or.inr ⟨not_not.mp hprogresses, hstalls⟩
    | rearm needOut => exact Or.inr ⟨trivial, hdrops⟩
    | queueWrite data =>
      by_cases hdata : data = []
      · subst hdata
        cases hsystem
        exact Or.inl rfl
      · exact Or.inr ⟨trivial, fun hstalls => hqueued ⟨hdata, hstalls⟩⟩
    | _ => exact Or.inr ⟨trivial, id⟩
  rcases hfine with rfl | ⟨hprogresses, hstalls⟩
  · exact Or.inr h
  · exact h.step hprogresses hstalls hsystem

/-- **Step**: the invariant holds until the stream disconnects. -/
theorem Sound.step (h : Sound c) (hqueued : ¬ QueuedEarly c l) (hdrops : ¬ DropsDuty c l)
    (hstep : c.step l = .ok c') : c'.system.stream.disconnecting = true ∨ Sound c' := by
  have hplaced := h.placed
  cases moves_of_step hstep with
  | accept hkind hphase =>
    simp only [Placed, hphase] at hplaced
    exact Or.inr ⟨live_accept h.live hkind hplaced.1, rfl, hkind, rfl⟩
  | setRate hphase =>
    simp only [Placed, hphase] at hplaced
    obtain ⟨hstage, hkind, hconnected⟩ := hplaced
    exact Or.inr ⟨live_setRate h.live hkind hstage hconnected _, hstage⟩
  | @connect err hkind hphase =>
    simp only [Placed, hphase] at hplaced
    exact Or.inr ⟨h.live.connect hkind hplaced.1 .prepared nofun (decide (0 ≤ err))
      c.system.activityTimer, rfl⟩
  | abandon hkind hphase =>
    simp only [Placed, hphase] at hplaced
    exact Or.inr ⟨h.live.connect hkind hplaced.1 .abandoned nofun c.system.stream.connected
      c.system.activityTimer, Or.inr ⟨rfl, hplaced.2⟩⟩
  | setTimer hphase =>
    simp only [Placed, hphase] at hplaced
    refine Or.inr ⟨h.live.of_same rfl rfl rfl (fun _ hpre => { hpre with }) (fun _ _ hduty => hduty)
      id, hplaced⟩
  | waitingOutEvent hphase =>
    simp only [Placed, hphase] at hplaced
    exact Or.inr ⟨h.live, hplaced, rfl⟩
  | register hphase =>
    simp only [Placed, hphase] at hplaced
    rw [hplaced.2]
    exact Or.inr ⟨h.live.add, Or.inl rfl⟩
  | other hl hsystem =>
    rcases live_other h.live hqueued hdrops hsystem with hdisconnecting | hlive
    · exact Or.inl hdisconnecting
    · refine Or.inr ⟨hlive, hplaced.other (StreamSystem.kept_of_step hl hsystem) fun hne => ?_⟩
      exact StreamSystem.flags_of_step (h.live.preAdd hne) hl hsystem hlive.live

theorem sound_init (kind : Kind) : Sound (init kind) :=
  ⟨StreamSystem.live_init kind, rfl, rfl⟩

/-- A stream that disconnects never stops to. -/
theorem disconnecting_step (h : c.system.stream.disconnecting = true)
    (hstep : c.step l = .ok c') : c'.system.stream.disconnecting = true := by
  cases moves_of_step hstep with
  | other hl hsystem => exact StreamSystem.disconnecting_step h hsystem
  | accept | setRate | connect | abandon | setTimer | waitingOutEvent | register => exact h

/-- At rest every stream with data to write has its wake-up. -/
theorem Sound.wakeUpPending (h : Sound c) (hrest : c.AtRest)
    (hconnected : c.system.stream.connected = true) (hdata : c.system.stream.writeQueue ≠ []) :
    c.system.WakeUpPending := by
  obtain ⟨hphase, hempty, hidle⟩ := hrest
  have hplaced := h.placed
  simp only [Placed, hphase] at hplaced
  have hadded : c.system.stage = .added := by
    refine hplaced.resolve_right fun ⟨_, hunconnected⟩ => ?_
    cases hunconnected.symm.trans hconnected
  refine h.live.noStuckOutput (fun events hevents => ?_) hidle hadded hconnected h.live.live hdata
  rw [hempty] at hevents
  cases hevents

/-! ## Main Results -/

/-- **Calls during `create`**: in every run that registers no stream after its `disconnect`, queues
no data on an accepted stream before `doAdd`, and drops no duty to write, the stream is settled
whenever everything has been run. -/
theorem settled_of_run {kind : Kind}
    (hdisconnected : AllSteps step (fun c l => ¬ DisconnectedEarly c l) (init kind) ls)
    (hqueued : AllSteps step (fun c l => ¬ QueuedEarly c l) (init kind) ls)
    (hdrops : AllSteps step (fun c l => ¬ DropsDuty c l) (init kind) ls)
    (hrun : runFrom step (init kind) ls = .ok c) : Settled c := by
  have hinv := AllSteps.invariant (fun c => c.system.stream.disconnecting = true ∨ Sound c)
    (fun h hC hstep => h.elim (fun hdone => Or.inl (disconnecting_step hdone hstep))
      fun hsound => hsound.step hC.1 hC.2 hstep)
    (Or.inr (sound_init kind)) (hqueued.and hdrops) hrun
  refine fun hrest => ⟨removed_of_run hdisconnected hrun, fun hlive hconnected hdata => ?_⟩
  rcases hinv with hdone | hsound
  · cases hdone.symm.trans hlive
  · exact hsound.wakeUpPending hrest hconnected hdata

/-- Data are queued on an outgoing stream before `doAdd`, and `EPOLLOUT` is armed for them. -/
theorem settled_queued_outgoing : ∃ c,
    runFrom step (init .outgoing) [.connect 0, .other (.queueWrite [1]), .setTimer,
      .waitingOutEvent, .register] = .ok c ∧
    c.AtRest ∧ c.system.stream.writeQueue = [[1]] ∧ c.system.WakeUpPending := by
  obtain ⟨c, hrun, hrest, hdata, hlive, hconnected⟩ : ∃ c,
      runFrom step (init .outgoing) [.connect 0, .other (.queueWrite [1]), .setTimer,
        .waitingOutEvent, .register] = .ok c ∧
      (c.phase = .returned ∧ c.system.eventQueue = [] ∧ c.system.handlers = []) ∧
      c.system.stream.writeQueue = [[1]] ∧ c.system.stream.disconnecting = false ∧
      c.system.stream.connected = true := by
    decide +kernel
  have hsettled : Settled c :=
    settled_of_run (by decide +kernel) (by decide +kernel) (by decide +kernel) hrun
  have hne : c.system.stream.writeQueue ≠ [] := by rw [hdata]; exact List.cons_ne_nil _ _
  exact ⟨c, hrun, hrest, hdata, (hsettled hrest).2 hlive hconnected hne⟩

/-- The client disconnects an outgoing stream before `doAdd`: it is registered for good. And it
queues data on an accepted stream in `writeComplete`, before `doAdd`: nothing ever writes them. -/
theorem not_settled_before_add :
    (¬ ∀ ls c, runFrom step (init .outgoing) ls = .ok c → Settled c) ∧
      ¬ ∀ ls c, runFrom step (init .accepted) ls = .ok c → Settled c := by
  constructor
  · intro h
    obtain ⟨c, hrun, hrest, hdisconnecting, hregistered⟩ : ∃ c,
        runFrom step (init .outgoing) [.connect 0, .other .disconnect, .setTimer,
          .waitingOutEvent, .register] = .ok c ∧
        (c.phase = .returned ∧ c.system.eventQueue = [] ∧ c.system.handlers = []) ∧
        c.system.stream.disconnecting = true ∧ c.system.registered = true := by
      decide +kernel
    cases hregistered.symm.trans ((h _ c hrun hrest).1 hdisconnecting)
  · intro h
    obtain ⟨c, hrun, hrest, hlive, hconnected, hdata, htimer, harmed, hreport⟩ : ∃ c,
        runFrom step (init .accepted) [.accept, .other .pop, .other .asyncWriteComplete,
          .other (.queueWrite [1]), .setRate, .waitingOutEvent, .register] = .ok c ∧
        (c.phase = .returned ∧ c.system.eventQueue = [] ∧ c.system.handlers = []) ∧
        c.system.stream.disconnecting = false ∧ c.system.stream.connected = true ∧
        c.system.stream.writeQueue ≠ [] ∧ c.system.egressTimer = false ∧
        c.system.armed = some false ∧ c.system.report = none := by
      decide +kernel
    have hwake := (h _ c hrun hrest).2 hlive hconnected hdata
    simp [StreamSystem.WakeUpPending, hrest.2.1, htimer, harmed, hreport] at hwake

end Creation

end Epoller
