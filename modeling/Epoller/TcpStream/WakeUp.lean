import Epoller.TcpStream.System

/-!
# No Stuck Output

Data in the write queue of a connected stream must have something that will call
`handleWrite`: an `EPOLLOUT` event, the egress timer, or an `EPOLLOUT`
registration. The duty passes between the flags of the stream, the timers, the
queue and epoll. It is dropped in three places: a write of a rate-limited stream
that would block, a re-arm with a mask that was computed before another worker
blocked, and data queued on an accepted stream before `Engine::add`.

## Contents

- `handleWrite_flags`: in what state `handleWrite` leaves the flags
- `Token`, `OutDuty`: who has the duty
- `Live`: the invariant of a stream that is not disconnecting
- `wakeUp_of_run`: runs without the three steps have no stuck output
-/

namespace Epoller

open Foundation

namespace TcpStream

/-! ## Flags After `handleWrite` -/

variable {start : TimePointNs} {w : WriteCall} {ws : List WriteCall} {p p' : Progress}

/-- How the loop of `handleWrite` ends. -/
inductive LoopExit (ws : List WriteCall) (p p' : Progress) : Prop where
  /-- The queue is empty. -/
  | drained (hqueue : p'.stream.writeQueue = [])
      (hblocked : p'.stream.blocked = p.stream.blocked)
      (htriggered : p'.stream.writeTriggered = p.stream.writeTriggered)
  /-- The rate limit is reached, and the egress timer is set. -/
  | limited (delay : NanoSecs) (hcall : .setEgress delay ∈ p'.calls)
      (hblocked : p'.stream.blocked = true)
      (htriggered : p'.stream.writeTriggered = true)
  /-- A write would block. -/
  | wouldBlock (hmem : ∃ w ∈ ws, w.actuallySent = -1)
      (hblocked : p'.stream.blocked = true)
      (htriggered : p'.stream.writeTriggered = p.stream.writeTriggered)
  /-- A write fails. -/
  | failed (hmem : ∃ w ∈ ws, w.actuallySent = -2)

/-- What the loop never touches. -/
structure SameLink (s s' : TcpStream) : Prop where
  connected : s'.connected = s.connected
  disconnecting : s'.disconnecting = s.disconnecting
  egressRate : s'.egressRate = s.egressRate

theorem SameLink.refl (s : TcpStream) : SameLink s s := ⟨rfl, rfl, rfl⟩

theorem SameLink.trans {s s' s'' : TcpStream} (h : SameLink s s') (h' : SameLink s' s'') :
    SameLink s s'' :=
  ⟨h'.connected.trans h.connected, h'.disconnecting.trans h.disconnecting,
    h'.egressRate.trans h.egressRate⟩

theorem LoopExit.cons {p₁ : Progress} (w : WriteCall) (h : LoopExit ws p₁ p')
    (hblocked : p₁.stream.blocked = p.stream.blocked)
    (htriggered : p₁.stream.writeTriggered = p.stream.writeTriggered) :
    LoopExit (w :: ws) p p' := by
  cases h with
  | drained hqueue hb ht => exact .drained hqueue (hb.trans hblocked) (ht.trans htriggered)
  | limited delay hcall hb ht => exact .limited delay hcall hb ht
  | wouldBlock hmem hb ht =>
    obtain ⟨w', hw', hblock⟩ := hmem
    exact .wouldBlock ⟨w', List.mem_cons_of_mem _ hw', hblock⟩ hb (ht.trans htriggered)
  | failed hmem =>
    obtain ⟨w', hw', herror⟩ := hmem
    exact .failed ⟨w', List.mem_cons_of_mem _ hw', herror⟩

/-- One round either goes on with the flags as they were, or leaves the loop. -/
theorem writeOnce_exit (start : TimePointNs) (w : WriteCall) (p : Progress) (data : Bytes)
    (rest : List Bytes) :
    SameLink p.stream (writeOnce start w data rest p).1.stream ∧
      (((writeOnce start w data rest p).2 = true ∧
        (writeOnce start w data rest p).1.stream.blocked = p.stream.blocked ∧
        (writeOnce start w data rest p).1.stream.writeTriggered = p.stream.writeTriggered) ∨
      ((writeOnce start w data rest p).2 = false ∧
        LoopExit [w] p (writeOnce start w data rest p).1)) := by
  -- what `write` answers: accepted, would block, failed
  unfold writeOnce
  split
  · simp only
    split
    · exact ⟨⟨rfl, rfl, rfl⟩, Or.inr ⟨rfl, .limited _ (List.mem_append_right _
        (List.mem_singleton_self _)) rfl rfl⟩⟩
    · exact ⟨⟨rfl, rfl, rfl⟩, Or.inl ⟨rfl, rfl, rfl⟩⟩
  · rename_i hneg
    split
    · rename_i hblock
      exact ⟨⟨rfl, rfl, rfl⟩,
        Or.inr ⟨rfl, .wouldBlock ⟨w, List.mem_singleton_self w, hblock⟩ rfl rfl⟩⟩
    · rename_i hnblock
      have herror : w.actuallySent = -2 :=
        ((convertFromStdError_cases w.ret w.errno).resolve_left hneg).resolve_left hnblock
      exact ⟨⟨rfl, rfl, rfl⟩, Or.inr ⟨rfl, .failed ⟨w, List.mem_singleton_self w, herror⟩⟩⟩

theorem writeLoop_exit (h : writeLoop start ws p = .ok p') :
    SameLink p.stream p'.stream ∧ LoopExit ws p p' := by
  -- one round for each answer; the rounds before the last leave the flags alone
  induction ws generalizing p with
  | nil =>
    obtain ⟨hqueue, rfl⟩ := writeLoop_nil h
    exact ⟨.refl _, .drained hqueue rfl rfl⟩
  | cons w ws ih =>
    obtain ⟨data, rest, -, -, hloop⟩ := writeLoop_cons h
    obtain ⟨hlink, hround⟩ := writeOnce_exit start w p data rest
    rcases hloop with ⟨p₁, heq, hloop⟩ | ⟨heq, rfl⟩
    · rw [heq] at hlink hround
      rcases hround with ⟨-, hb, ht⟩ | ⟨hstop, -⟩
      · obtain ⟨hlink', hexit⟩ := ih hloop
        exact ⟨hlink.trans hlink', hexit.cons w hb ht⟩
      · cases hstop
    · rw [heq] at hlink hround
      rcases hround with ⟨hgo, -⟩ | ⟨-, hexit⟩
      · cases hgo
      · exact ⟨hlink, hexit⟩

/-- `handleWrite` connects the stream and changes neither its rate nor whether it disconnects. -/
theorem handleWrite_link {s : TcpStream} (h : s.handleWrite start ws = .ok p) :
    p.stream.connected = true ∧ p.stream.disconnecting = s.disconnecting ∧
      p.stream.egressRate = s.egressRate := by
  simp only [handleWrite] at h
  split at h
  · rename_i hconnected
    obtain ⟨p₁, hloop, h⟩ := bind_eq_ok_iff.mp h
    have hlink := (writeLoop_exit hloop).1
    -- the completion event changes `once` only
    split at h <;> cases h <;>
      exact ⟨hlink.connected.trans hconnected, hlink.disconnecting, hlink.egressRate⟩
  · split at h
    · split at h <;> cases h <;> exact ⟨rfl, rfl, rfl⟩
    · cases h

/-- **Flags after `handleWrite`**, unless a write fails: what is left in the queue is blocked or
triggered; a trigger comes with the egress timer or an event; and a blocked stream is also
triggered, unless a write would block. -/
theorem handleWrite_flags {s : TcpStream} (h : s.handleWrite start ws = .ok p)
    (hfails : ∀ w ∈ ws, w.actuallySent ≠ -2) :
    (p.stream.writeQueue ≠ [] → p.stream.blocked = true ∨ p.stream.writeTriggered = true) ∧
      (p.stream.writeTriggered = true →
        (∃ delay, .setEgress delay ∈ p.calls) ∨ .triggerWrites ∈ p.calls) ∧
      (p.stream.blocked = true → p.stream.writeTriggered = true ∨
        ∃ w ∈ ws, w.actuallySent = -1) := by
  simp only [handleWrite] at h
  split at h
  · obtain ⟨p₁, hloop, h⟩ := bind_eq_ok_iff.mp h
    obtain ⟨-, hexit⟩ := writeLoop_exit hloop
    -- behind the loop only `once` changes
    have hsame : p.stream.writeQueue = p₁.stream.writeQueue ∧
        p.stream.blocked = p₁.stream.blocked ∧
        p.stream.writeTriggered = p₁.stream.writeTriggered ∧ p₁.calls ⊆ p.calls := by
      split at h <;> cases h
      · exact ⟨rfl, rfl, rfl, List.subset_append_left ..⟩
      · exact ⟨rfl, rfl, rfl, List.Subset.refl _⟩
    obtain ⟨hq, hb, ht, hsub⟩ := hsame
    rw [hq, hb, ht]
    cases hexit with
    | drained hqueue hblocked htriggered =>
      rw [hqueue, hblocked, htriggered]
      simp
    | limited delay hcall hblocked htriggered =>
      exact ⟨fun _ => Or.inl hblocked, fun _ => Or.inl ⟨delay, hsub hcall⟩,
        fun _ => Or.inl htriggered⟩
    | wouldBlock hmem hblocked htriggered =>
      refine ⟨fun _ => Or.inl hblocked, fun htrue => ?_, fun _ => Or.inr hmem⟩
      rw [htriggered] at htrue
      cases htrue
    | failed hmem =>
      obtain ⟨w, hw, herror⟩ := hmem
      exact absurd herror (hfails w hw)
  · split at h
    · split at h <;> cases h
      · exact ⟨fun _ => Or.inr rfl, fun _ => Or.inr (by simp), fun hb => (by cases hb)⟩
      -- nothing was queued while the stream connected
      · rename_i hempty
        exact ⟨fun hne => absurd hne hempty, fun ht => (by cases ht), fun hb => (by cases hb)⟩
    · cases h

theorem waitingOutEvent_eq_true_iff {s : TcpStream} :
    s.waitingOutEvent = true ↔
      (s.blocked = true ∨ s.once = false ∨ s.connected = false) ∧ s.disconnecting = false ∧
        (s.connected = false ∨ s.egressRate = 0) := by
  simp [waitingOutEvent, and_assoc, or_assoc]

end TcpStream

namespace StreamSystem

/-! ## The Conditions on the Steps -/

/-- Every write accepts at least one byte or would block. -/
def Progresses : StreamStep → Prop
  | .write _ _ ws => ∀ w ∈ ws, 0 < w.actuallySent ∨ w.actuallySent = -1
  | _ => True

instance (l : StreamStep) : Decidable (Progresses l) :=
  match l with
  | .write _ _ ws =>
    inferInstanceAs (Decidable (∀ w ∈ ws, 0 < w.actuallySent ∨ w.actuallySent = -1))
  | .accept | .connect _ | .add | .queueWrite _ | .disconnect | .expireActivity | .expireEgress
  | .report _ | .newEvent | .pop | .check _ | .read _ _ | .finish _ | .rearm _
  | .asyncWriteComplete | .asyncDisconnect | .asyncEgress => inferInstanceAs (Decidable True)

/-- The steps at which the duty to write is dropped: a write of a rate-limited stream would block;
a registration without `EPOLLOUT` is armed although the stream waits for `EPOLLOUT`; data are
queued on an accepted stream that is not registered yet. -/
def Stalls (s : StreamSystem) : StreamStep → Prop
  | .write _ _ ws => s.stream.egressRate ≠ 0 ∧ ∃ w ∈ ws, w.actuallySent = -1
  | .rearm needOut => needOut = false ∧ s.stream.waitingOutEvent = true
  | .queueWrite _ => s.kind = .accepted ∧ s.stage ≠ .added
  | _ => False

instance (s : StreamSystem) (l : StreamStep) : Decidable (s.Stalls l) :=
  match l with
  | .write _ _ ws =>
    inferInstanceAs (Decidable (s.stream.egressRate ≠ 0 ∧ ∃ w ∈ ws, w.actuallySent = -1))
  | .rearm needOut =>
    inferInstanceAs (Decidable (needOut = false ∧ s.stream.waitingOutEvent = true))
  | .queueWrite _ => inferInstanceAs (Decidable (s.kind = .accepted ∧ s.stage ≠ .added))
  | .accept | .connect _ | .add | .disconnect | .expireActivity | .expireEgress | .report _
  | .newEvent | .pop | .check _ | .read _ _ | .finish _ | .asyncWriteComplete | .asyncDisconnect
  | .asyncEgress => inferInstanceAs (Decidable False)

end StreamSystem

/-! ## The Duty -/

/-- The handler arms the registration again, with `EPOLLOUT` if the stream waits for it. -/
def Handler.WillArm : Handler → Prop
  | entered _ | write _ | read _ | finish _ => True
  | rearm needOut => needOut = true
  | notifyWriteComplete | activity | egress => False

/-- The handler leads to a call of `handleWrite`. -/
def Handler.WillWrite : Handler → Prop
  | entered events | write events => events.out = true
  | egress => True
  | read _ | finish _ | rearm _ | notifyWriteComplete | activity => False

namespace StreamSystem

variable {s s' : StreamSystem}

/-- Somebody will arm the registration with `EPOLLOUT`, or it is armed. -/
def OutDuty (s : StreamSystem) : Prop :=
  s.armed = some true ∨ s.report ≠ none ∨ (∃ events, .run events ∈ s.eventQueue) ∨
    ∃ h ∈ s.handlers, h.WillArm

/-- Somebody will call `handleWrite`. -/
def Token (s : StreamSystem) : Prop :=
  (∃ events, events.out = true ∧ .run events ∈ s.eventQueue) ∨ s.egressTimer = true ∨
    .egress ∈ s.eventQueue ∨ ∃ h ∈ s.handlers, h.WillWrite

/-- Before `Engine::add` nothing is written. -/
structure PreAdd (s : StreamSystem) : Prop where
  registered : s.registered = false
  armed : s.armed = none
  once : s.stream.once = false
  blocked : s.stream.blocked = false
  egressTimer : s.egressTimer = false
  report : s.report = none
  events : ∀ event ∈ s.eventQueue, event = .notifyWriteComplete ∨ event = .activity
  handlers : ∀ h ∈ s.handlers, h = .notifyWriteComplete ∨ h = .activity
  accepted : s.kind = .accepted → s.stream.writeQueue = [] ∧ s.stream.writeTriggered = false
  outgoing : s.kind = .outgoing → s.stream.egressRate = 0

/-- **The invariant** of a stream that is not disconnecting. -/
structure Live (s : StreamSystem) : Prop where
  live : s.stream.disconnecting = false
  preAdd : s.stage ≠ .added → PreAdd s
  registered : s.stage = .added → s.registered = true
  outDuty : s.stage = .added → s.stream.waitingOutEvent = true → OutDuty s
  pending : s.stream.connected = true → s.stream.writeQueue ≠ [] →
    s.stream.blocked = true ∨ s.stream.writeTriggered = true ∨ s.stream.waitingOutEvent = true
  limited : s.stream.egressRate ≠ 0 →
    s.stream.connected = true ∧ (s.stream.blocked = true → s.stream.writeTriggered = true)
  token : s.stream.writeTriggered = true → Token s ∨ s.stream.waitingOutEvent = true

/-- A wake-up is pending: an `EPOLLOUT` event in `eventQueue`, the egress timer or its event,
`EPOLLOUT` in the armed registration, or a report that is not queued yet. -/
def WakeUpPending (s : StreamSystem) : Prop :=
  (∃ events, events.out = true ∧ .run events ∈ s.eventQueue) ∨ s.egressTimer = true ∨
    .egress ∈ s.eventQueue ∨ s.armed = some true ∨ s.report ≠ none

/-- While no handler runs, a registered, connected stream with data to write has a wake-up. -/
def NoStuckOutput (s : StreamSystem) : Prop :=
  s.handlers = [] → s.stage = .added → s.stream.connected = true →
    s.stream.disconnecting = false → s.stream.writeQueue ≠ [] → WakeUpPending s

/-- The invariant gives every stream that has data to write its wake-up, or an event whose run
arms `EPOLLOUT`. -/
theorem Live.noStuckOutput (h : Live s)
    (hqueue : ∀ events, .run events ∈ s.eventQueue → events.out = true) : NoStuckOutput s := by
  intro hidle hadded hconnected hlive hdata
  have hnone : ∀ P : Handler → Prop, ¬ ∃ h ∈ s.handlers, P h := by
    rintro P ⟨h, hmem, -⟩
    rw [hidle] at hmem
    cases hmem
  -- a stream that waits for `EPOLLOUT` has a registration or an event that leads to one
  have hout : s.stream.waitingOutEvent = true → WakeUpPending s := by
    intro hwaiting
    rcases h.outDuty hadded hwaiting with harmed | hreport | ⟨events, hevents⟩ | hhandler
    · exact Or.inr (Or.inr (Or.inr (Or.inl harmed)))
    · exact Or.inr (Or.inr (Or.inr (Or.inr hreport)))
    · exact Or.inl ⟨events, hqueue events hevents, hevents⟩
    · exact absurd hhandler (hnone _)
  -- a triggered stream has an event or the egress timer
  have htriggered : s.stream.writeTriggered = true → WakeUpPending s := by
    intro htriggered
    rcases h.token htriggered with htoken | hwaiting
    · rcases htoken with hevents | htimer | hegress | hhandler
      · exact Or.inl hevents
      · exact Or.inr (Or.inl htimer)
      · exact Or.inr (Or.inr (Or.inl hegress))
      · exact absurd hhandler (hnone _)
    · exact hout hwaiting
  -- blocked data wait for `EPOLLOUT` without a rate limit, and for the timer with one
  rcases h.pending hconnected hdata with hblocked | htrue | hwaiting
  · by_cases hrate : s.stream.egressRate = 0
    · exact hout (TcpStream.waitingOutEvent_eq_true_iff.mpr
        ⟨Or.inl hblocked, hlive, Or.inr hrate⟩)
    · exact htriggered ((h.limited hrate).2 hblocked)
  · exact htriggered htrue
  · exact hout hwaiting

/-! ## Calls Into the Engine -/

/-- Calls into the engine only add events and set timers. -/
structure Grows (s s' : StreamSystem) : Prop where
  kind : s'.kind = s.kind
  stage : s'.stage = s.stage
  stream : s'.stream = s.stream
  registered : s'.registered = s.registered
  armed : s'.armed = s.armed
  report : s'.report = s.report
  handlers : s'.handlers = s.handlers
  events : s.eventQueue ⊆ s'.eventQueue
  egressTimer : s.egressTimer = true → s'.egressTimer = true

theorem Grows.refl (s : StreamSystem) : Grows s s :=
  ⟨rfl, rfl, rfl, rfl, rfl, rfl, rfl, List.Subset.refl _, id⟩

theorem Grows.trans {s'' : StreamSystem} (h : Grows s s') (h' : Grows s' s'') : Grows s s'' where
  kind := h'.kind.trans h.kind
  stage := h'.stage.trans h.stage
  stream := h'.stream.trans h.stream
  registered := h'.registered.trans h.registered
  armed := h'.armed.trans h.armed
  report := h'.report.trans h.report
  handlers := h'.handlers.trans h.handlers
  events := List.Subset.trans h.events h'.events
  egressTimer := h'.egressTimer ∘ h.egressTimer

theorem newEvent_grows (s : StreamSystem) (events : EpollEvents) : Grows s (s.newEvent events) := by
  unfold newEvent
  split
  · exact ⟨rfl, rfl, rfl, rfl, rfl, rfl, rfl, List.subset_append_left .., id⟩
  · exact .refl s

theorem engineCall_grows (s : StreamSystem) (call : EngineCall) : Grows s (s.engineCall call) := by
  cases call with
  | setActivity => exact ⟨rfl, rfl, rfl, rfl, rfl, rfl, rfl, List.Subset.refl _, id⟩
  | setEgress => exact ⟨rfl, rfl, rfl, rfl, rfl, rfl, rfl, List.Subset.refl _, fun _ => rfl⟩
  | triggerWrites => exact s.newEvent_grows _
  | runWriteComplete =>
    exact ⟨rfl, rfl, rfl, rfl, rfl, rfl, rfl, List.subset_append_left .., id⟩

theorem engineCalls_grows (s : StreamSystem) (calls : List EngineCall) :
    Grows s (s.engineCalls calls) := by
  induction calls generalizing s with
  | nil => exact .refl s
  | cons call calls ih => exact (s.engineCall_grows call).trans (ih _)

theorem newEvent_mem {events : EpollEvents} (h : s.registered = true) :
    .run events ∈ (s.newEvent events).eventQueue := by
  simp [newEvent, h]

theorem engineCalls_setEgress {calls : List EngineCall} {delay : NanoSecs}
    (h : .setEgress delay ∈ calls) : (s.engineCalls calls).egressTimer = true := by
  induction calls generalizing s with
  | nil => cases h
  | cons call calls ih =>
    rcases List.mem_cons.mp h with rfl | h
    · exact (engineCalls_grows _ calls).egressTimer rfl
    · exact ih h

theorem engineCalls_triggerWrites {calls : List EngineCall} (hregistered : s.registered = true)
    (h : .triggerWrites ∈ calls) :
    .run ⟨true, false, false⟩ ∈ (s.engineCalls calls).eventQueue := by
  induction calls generalizing s with
  | nil => cases h
  | cons call calls ih =>
    rcases List.mem_cons.mp h with rfl | h
    · exact (engineCalls_grows _ calls).events (newEvent_mem hregistered)
    · exact ih ((s.engineCall_grows call).registered.trans hregistered) h

theorem Grows.outDuty (h : Grows s s') (hduty : OutDuty s) : OutDuty s' := by
  unfold OutDuty
  rw [h.armed, h.report, h.handlers]
  exact hduty.imp_right (Or.imp_right (Or.imp_left fun ⟨events, he⟩ => ⟨events, h.events he⟩))

theorem Grows.token (h : Grows s s') (htoken : Token s) : Token s' := by
  unfold Token
  rw [h.handlers]
  rcases htoken with ⟨events, hout, he⟩ | htimer | hegress | hhandler
  · exact Or.inl ⟨events, hout, h.events he⟩
  · exact Or.inr (Or.inl (h.egressTimer htimer))
  · exact Or.inr (Or.inr (Or.inl (h.events hegress)))
  · exact Or.inr (Or.inr (Or.inr hhandler))

/-! ## Handing the Duty On -/

theorem mem_advance {h h' : Handler} {next : Option Handler}
    (hmem : h' ∈ (s.advance h next).handlers) : next = some h' ∨ h' ∈ s.handlers := by
  rcases List.mem_append.mp hmem with hmem | hmem
  · exact Or.inl (Option.mem_toList.mp hmem)
  · exact Or.inr (List.mem_of_mem_erase hmem)

/-- A duty of the handlers survives if the handler that goes on passes its own share on. -/
theorem exists_advance {P : Handler → Prop} {h : Handler} {next : Option Handler}
    (hex : ∃ h' ∈ s.handlers, P h') (hnext : P h → ∃ n, next = some n ∧ P n) :
    ∃ h' ∈ (s.advance h next).handlers, P h' := by
  obtain ⟨h', hmem, hP⟩ := hex
  by_cases heq : h' = h
  · obtain ⟨n, rfl, hn⟩ := hnext (heq ▸ hP)
    exact ⟨n, List.mem_append_left _ (Option.mem_toList.mpr rfl), hn⟩
  · exact ⟨h', List.mem_append_right _ ((List.mem_erase_of_ne heq).mpr hmem), hP⟩

theorem OutDuty.advance {h : Handler} {next : Option Handler} (hduty : OutDuty s)
    (hnext : h.WillArm → ∃ n, next = some n ∧ n.WillArm) : OutDuty (s.advance h next) :=
  hduty.imp_right (Or.imp_right (Or.imp_right fun hex => exists_advance hex hnext))

theorem Token.advance {h : Handler} {next : Option Handler} (htoken : Token s)
    (hnext : h.WillWrite → ∃ n, next = some n ∧ n.WillWrite) : Token (s.advance h next) :=
  htoken.imp_right (Or.imp_right (Or.imp_right fun hex => exists_advance hex hnext))

/-- A step that leaves the stream and its registration alone keeps the invariant if it keeps the
duties. -/
theorem Live.of_same (h : Live s) (hstage : s'.stage = s.stage)
    (hstream : s'.stream = s.stream) (hregistered : s'.registered = s.registered)
    (hpreAdd : s.stage ≠ .added → PreAdd s → PreAdd s')
    (houtDuty : s.stage = .added → s.stream.waitingOutEvent = true → OutDuty s → OutDuty s')
    (htoken : Token s → Token s') : Live s' where
  live := hstream ▸ h.live
  preAdd hne := hpreAdd (hstage ▸ hne) (h.preAdd (hstage ▸ hne))
  registered hadded := hregistered.trans (h.registered (hstage ▸ hadded))
  outDuty hadded hwaiting :=
    houtDuty (hstage ▸ hadded) (hstream ▸ hwaiting)
      (h.outDuty (hstage ▸ hadded) (hstream ▸ hwaiting))
  pending := hstream ▸ h.pending
  limited := hstream ▸ h.limited
  token htriggered := by
    rw [hstream] at htriggered ⊢
    exact (h.token htriggered).imp_left htoken

/-- A worker is inside `Engine::run` or `asyncEgress` only after `Engine::add`. -/
theorem Live.added (h : Live s) {x : Handler} (hmem : x ∈ s.handlers)
    (hx : x ≠ .notifyWriteComplete ∧ x ≠ .activity) : s.stage = .added := by
  by_contra hne
  rcases (h.preAdd hne).handlers x hmem with heq | heq
  · exact hx.1 heq
  · exact hx.2 heq

/-! ## Steps -/

/-- A step of a worker inside `Engine::run` that passes its duties on. -/
theorem Live.advance (hl : Live s) {h : Handler} {next : Option Handler} (hmem : h ∈ s.handlers)
    (hrun : h ≠ .notifyWriteComplete ∧ h ≠ .activity)
    (harm : s.stream.waitingOutEvent = true → h.WillArm → ∃ n, next = some n ∧ n.WillArm)
    (hwrite : h.WillWrite → ∃ n, next = some n ∧ n.WillWrite) : Live (s.advance h next) :=
  hl.of_same rfl rfl rfl (fun hne => absurd (hl.added hmem hrun) hne)
    (fun _ hwaiting hduty => hduty.advance (harm hwaiting)) fun htoken => htoken.advance hwrite

/-- Before `Engine::add` an outgoing stream waits for `EPOLLOUT`. -/
theorem PreAdd.waiting (h : PreAdd s) (hlive : s.stream.disconnecting = false)
    (houtgoing : s.kind = .outgoing) : s.stream.waitingOutEvent = true :=
  TcpStream.waitingOutEvent_eq_true_iff.mpr
    ⟨Or.inr (Or.inl h.once), hlive, Or.inr (h.outgoing houtgoing)⟩

theorem Kind.eq_outgoing {kind : Kind} (h : kind ≠ .accepted) : kind = .outgoing := by
  cases kind with
  | accepted => exact absurd rfl h
  | outgoing => rfl

/-- An outgoing stream may be given data before `Engine::add`. -/
theorem PreAdd.queued (h : PreAdd s) (houtgoing : s.kind = .outgoing) (writeQueue : List Bytes)
    (writeTriggered : Bool) :
    PreAdd { s with stream := { s.stream with writeQueue, writeTriggered } } :=
  { h with accepted := fun haccepted => absurd (houtgoing.symm.trans haccepted) (by decide) }

/-- What `queueWrite` does: it queues the data and, if nothing holds it back, triggers. -/
theorem queueWrite_cases (t : TcpStream) (data : Bytes) :
    (t.queueWrite data = (t, []) ∧ data = []) ∨
    (t.queueWrite data = ({ t with writeQueue := t.writeQueue ++ [data] }, []) ∧
      (t.connected = true → t.blocked = true ∨ t.writeTriggered = true)) ∨
    (t.queueWrite data = ({ t with writeQueue := t.writeQueue ++ [data], writeTriggered := true },
      [.triggerWrites]) ∧ t.connected = true ∧ t.writeTriggered = false) := by
  unfold TcpStream.queueWrite
  split
  · rename_i hdata
    exact Or.inl ⟨rfl, hdata⟩
  · simp only
    split
    · rename_i hcond
      exact Or.inr (Or.inr ⟨rfl, hcond.1, hcond.2.2⟩)
    · rename_i hcond
      refine Or.inr (Or.inl ⟨rfl, fun hconnected => ?_⟩)
      by_contra hnone
      simp only [not_or, Bool.not_eq_true] at hnone
      exact hcond ⟨hconnected, hnone.1, hnone.2⟩

theorem Live.queueWrite (h : Live s) {data : Bytes} (hstalls : ¬ Stalls s (.queueWrite data)) :
    Live ({ s with stream := (s.stream.queueWrite data).1 }.engineCalls
      (s.stream.queueWrite data).2) := by
  -- before `Engine::add` the condition leaves only outgoing streams, which wait for `EPOLLOUT`
  have houtgoing : s.stage ≠ .added → s.kind = .outgoing := fun hne =>
    Kind.eq_outgoing fun haccepted => hstalls ⟨haccepted, hne⟩
  rcases queueWrite_cases s.stream data with ⟨heq, -⟩ | ⟨heq, hheld⟩ | ⟨heq, -⟩
  · rw [heq]
    exact h
  · rw [heq]
    refine ⟨h.live, fun hne => ?_, h.registered, h.outDuty, fun hconnected _ => ?_, h.limited,
      h.token⟩
    · exact (h.preAdd hne).queued (houtgoing hne) _ s.stream.writeTriggered
    -- whatever held the trigger back has a duty already
    · exact (hheld hconnected).imp_right Or.inl
  · rw [heq]
    let s₁ : StreamSystem := { s with
      stream := { s.stream with
        writeQueue := s.stream.writeQueue ++ [data]
        writeTriggered := true } }
    have hgrows : Grows s₁ (s₁.engineCalls [.triggerWrites]) := engineCalls_grows _ _
    have hstream := hgrows.stream
    have hduty : OutDuty s → OutDuty (s₁.engineCalls [.triggerWrites]) := hgrows.outDuty
    refine ⟨hstream ▸ h.live, fun hne => ?_, fun hadded => ?_, fun hadded hwaiting => ?_, ?_, ?_,
      ?_⟩
    · rw [hgrows.stage] at hne
      have hpre := h.preAdd hne
      -- the stream is not in `eventHash` yet, so `newEvent` drops the trigger
      have hdropped : s₁.engineCalls [.triggerWrites] = s₁ := by
        simp [engineCalls, engineCall, StreamSystem.newEvent, s₁, hpre.registered]
      change PreAdd (s₁.engineCalls [.triggerWrites])
      rw [hdropped]
      exact hpre.queued (houtgoing hne) _ true
    · exact hgrows.registered.trans (h.registered (hgrows.stage ▸ hadded))
    · rw [hstream] at hwaiting
      exact hduty (h.outDuty (hgrows.stage ▸ hadded) hwaiting)
    · rw [hstream]
      exact fun _ _ => Or.inr (Or.inl rfl)
    · rw [hstream]
      exact fun hrate => ⟨(h.limited hrate).1, fun _ => rfl⟩
    · rw [hstream]
      intro _
      by_cases hadded : s.stage = .added
      · exact Or.inl (Or.inl ⟨_, rfl, engineCalls_triggerWrites (s := s₁) (h.registered hadded)
          (List.mem_singleton_self _)⟩)
      · exact Or.inr ((h.preAdd hadded).waiting h.live (houtgoing hadded))

theorem Live.write (h : Live s) {events : EpollEvents} {start : TimePointNs} {ws : List WriteCall}
    {p : TcpStream.Progress} (hmem : .write events ∈ s.handlers)
    (hprogresses : Progresses (.write events start ws))
    (hstalls : ¬ Stalls s (.write events start ws))
    (hp : s.stream.handleWrite start ws = .ok p) :
    Live ({ s.advance (.write events) (some (.read events)) with stream := p.stream }.engineCalls
      p.calls) := by
  have hadded : s.stage = .added := h.added hmem ⟨nofun, nofun⟩
  obtain ⟨hconnected, hdisconnecting, hrate⟩ := TcpStream.handleWrite_link hp
  obtain ⟨hpending, htriggered, hblocked⟩ := TcpStream.handleWrite_flags hp fun w hw herror => by
    rcases hprogresses w hw with hpos | hblock <;> omega
  let s₁ : StreamSystem :=
    { s.advance (.write events) (some (.read events)) with stream := p.stream }
  have hgrows : Grows s₁ (s₁.engineCalls p.calls) := engineCalls_grows _ _
  have hstream := hgrows.stream
  have hregistered : s₁.registered = true := h.registered hadded
  -- the fields of `Live` in their order
  refine ⟨?_, fun hne => ?_, fun _ => ?_, fun _ _ => ?_, ?_, ?_, ?_⟩
  · rw [hstream]
    exact hdisconnecting.trans h.live
  · rw [hgrows.stage] at hne
    exact absurd hadded hne
  · exact hgrows.registered.trans hregistered
  · -- the worker goes on in `Engine::run` and arms the registration
    refine hgrows.outDuty (Or.inr (Or.inr (Or.inr ⟨.read events, ?_, trivial⟩)))
    exact List.mem_cons_self ..
  · rw [hstream]
    exact fun _ hqueue => (hpending hqueue).imp_right Or.inl
  · rw [hstream]
    -- a rate-limited stream is blocked without being triggered only by a write that would block
    refine fun hne => ⟨hconnected, fun hb => (hblocked hb).resolve_right fun hblock => ?_⟩
    exact hstalls ⟨fun hzero => hne (hrate.trans hzero), hblock⟩
  · rw [hstream]
    intro ht
    rcases htriggered ht with ⟨delay, hcall⟩ | hcall
    · exact Or.inl (Or.inr (Or.inl (engineCalls_setEgress hcall)))
    · exact Or.inl (Or.inl ⟨_, rfl, engineCalls_triggerWrites hregistered hcall⟩)

theorem PreAdd.addEvent (h : PreAdd s) (event : StreamEvent) (activityTimer : Bool)
    (hevent : event = .notifyWriteComplete ∨ event = .activity) :
    PreAdd { s with eventQueue := s.eventQueue ++ [event], activityTimer } :=
  { h with
    events := fun e he =>
      (List.mem_append.mp he).elim (h.events e) fun he => List.mem_singleton.mp he ▸ hevent }

theorem Live.accept (h : Live s) (hkind : s.kind = .accepted) (hstage : s.stage = .attached) :
    Live { s with
      stage := .prepared
      stream := { s.stream with connected := true, egressRate := TcpStream.ACCEPTED_EGRESS_RATE }
      eventQueue := s.eventQueue ++ [.notifyWriteComplete] } := by
  have hpre := h.preAdd (by rw [hstage]; decide)
  obtain ⟨hqueue, htriggered⟩ := hpre.accepted hkind
  have hpre' := hpre.addEvent .notifyWriteComplete s.activityTimer (Or.inl rfl)
  refine ⟨h.live, fun _ => { hpre' with outgoing := fun houtgoing => ?_ },
    fun hadded => (by cases hadded), fun hadded => (by cases hadded),
    fun _ hne => absurd hqueue hne, fun _ => ⟨rfl, fun hb => ?_⟩, fun ht => ?_⟩
  · cases hkind.symm.trans houtgoing
  · cases hpre.blocked.symm.trans hb
  · cases htriggered.symm.trans ht

theorem Live.connect (h : Live s) (hkind : s.kind = .outgoing) (hstage : s.stage = .attached)
    (stage : Stage) (hnext : stage ≠ .added) (connected activityTimer : Bool) :
    Live { s with stage, stream := { s.stream with connected }, activityTimer } := by
  have hpre := h.preAdd (by rw [hstage]; decide)
  have hpre' : PreAdd { s with stage, stream := { s.stream with connected }, activityTimer } :=
    { hpre with }
  have hwaiting := hpre'.waiting h.live hkind
  exact ⟨h.live, fun _ => hpre', fun hadded => absurd hadded hnext,
    fun hadded => absurd hadded hnext, fun _ _ => Or.inr (Or.inr hwaiting),
    fun hne => absurd (hpre.outgoing hkind) hne, fun _ => Or.inr hwaiting⟩

theorem Live.add (h : Live s) :
    Live { s with
      stage := .added, registered := true, armed := some s.stream.waitingOutEvent } := by
  refine ⟨h.live, fun hne => absurd rfl hne, fun _ => rfl, fun _ hwaiting => ?_, h.pending,
    h.limited, h.token⟩
  exact Or.inl (congrArg some hwaiting)

/-- A worker pops the first event of the queue and is inside its handler. -/
theorem Live.pop (h : Live s) {event : StreamEvent} {rest : List StreamEvent}
    (hqueue : s.eventQueue = event :: rest) :
    Live { s with eventQueue := rest, handlers := event.handler :: s.handlers } := by
  -- a duty of the popped event passes to the worker
  have hmem : ∀ e, e ∈ s.eventQueue → e = event ∨ e ∈ rest := fun e he =>
    List.mem_cons.mp (hqueue ▸ he)
  refine h.of_same rfl rfl rfl (fun _ hpre => ?_) (fun _ _ hduty => ?_) fun htoken => ?_
  · have hevent := hpre.events event (hqueue ▸ List.mem_cons_self ..)
    refine { hpre with
      events := fun e he => hpre.events e (hqueue ▸ List.mem_cons_of_mem _ he)
      handlers := fun x hx => ?_ }
    rcases List.mem_cons.mp hx with rfl | hx
    · rcases hevent with rfl | rfl
      · exact Or.inl rfl
      · exact Or.inr rfl
    · exact hpre.handlers x hx
  · rcases hduty with harmed | hreport | ⟨events, hevents⟩ | ⟨x, hx, harm⟩
    · exact Or.inl harmed
    · exact Or.inr (Or.inl hreport)
    · rcases hmem _ hevents with rfl | hrest
      · exact Or.inr (Or.inr (Or.inr ⟨.entered events, List.mem_cons_self .., trivial⟩))
      · exact Or.inr (Or.inr (Or.inl ⟨events, hrest⟩))
    · exact Or.inr (Or.inr (Or.inr ⟨x, List.mem_cons_of_mem _ hx, harm⟩))
  · rcases htoken with ⟨events, hout, hevents⟩ | htimer | hegress | ⟨x, hx, hwrite⟩
    · rcases hmem _ hevents with rfl | hrest
      · exact Or.inr (Or.inr (Or.inr ⟨.entered events, List.mem_cons_self .., hout⟩))
      · exact Or.inl ⟨events, hout, hrest⟩
    · exact Or.inr (Or.inl htimer)
    · rcases hmem _ hegress with rfl | hrest
      · exact Or.inr (Or.inr (Or.inr ⟨.egress, List.mem_cons_self .., trivial⟩))
      · exact Or.inr (Or.inr (Or.inl hrest))
    · exact Or.inr (Or.inr (Or.inr ⟨x, List.mem_cons_of_mem _ hx, hwrite⟩))

/-- A timer hands its event to the queue. -/
theorem Live.addEvent (h : Live s) (event : StreamEvent) (activityTimer egressTimer : Bool)
    (hpre : s.stage ≠ .added → event = .activity ∧ egressTimer = s.egressTimer)
    (hegress : s.egressTimer = true → egressTimer = true ∨ event = .egress) :
    Live { s with eventQueue := s.eventQueue ++ [event], activityTimer, egressTimer } := by
  have hsub : s.eventQueue ⊆ s.eventQueue ++ [event] := List.subset_append_left ..
  refine h.of_same rfl rfl rfl (fun hne hpre' => ?_) (fun _ _ hduty => ?_) fun htoken => ?_
  · obtain ⟨hevent, htimer⟩ := hpre hne
    have hadd := hpre'.addEvent event activityTimer (Or.inr hevent)
    exact { hadd with egressTimer := htimer.trans hadd.egressTimer }
  · exact hduty.imp_right (Or.imp_right (Or.imp_left fun ⟨events, he⟩ => ⟨events, hsub he⟩))
  · rcases htoken with ⟨events, hout, he⟩ | htimer | hmem | hhandler
    · exact Or.inl ⟨events, hout, hsub he⟩
    · rcases hegress htimer with htrue | rfl
      · exact Or.inr (Or.inl htrue)
      · exact Or.inr (Or.inr (Or.inl (List.mem_append_right _ (List.mem_singleton_self _))))
    · exact Or.inr (Or.inr (Or.inl (hsub hmem)))
    · exact Or.inr (Or.inr (Or.inr hhandler))

/-- A stream that disconnects never stops to. -/
theorem disconnecting_step {l : StreamStep} (h : s.stream.disconnecting = true)
    (hstep : s.step l = .ok s') : s'.stream.disconnecting = true := by
  cases moves_of_step hstep with
  | queueWrite data =>
    rw [(engineCalls_grows _ _).stream]
    rcases queueWrite_cases s.stream data with ⟨heq, -⟩ | ⟨heq, -⟩ | ⟨heq, -⟩ <;>
      rw [heq] <;> exact h
  | newEvent =>
    rw [(newEvent_grows _ _).stream]
    exact h
  | write hmem hout hp =>
    rw [(engineCalls_grows _ _).stream]
    exact (TcpStream.handleWrite_link hp).2.1.trans h
  | asyncEgress =>
    rw [(engineCall_grows _ _).stream]
    exact h
  | disconnect hdone | handleError _ _ hdone | asyncDisconnect _ hdone =>
    exact disconnect_disconnecting hdone
  | _ => exact h

/-- **Step**: the invariant holds until the stream disconnects. -/
theorem Live.step {l : StreamStep} (h : Live s) (hprogresses : Progresses l)
    (hstalls : ¬ Stalls s l) (hstep : s.step l = .ok s') :
    s'.stream.disconnecting = true ∨ Live s' := by
  cases moves_of_step hstep with
  | accept hkind hstage => exact Or.inr (h.accept hkind hstage)
  | @connect err hkind hstage =>
    exact Or.inr (h.connect hkind hstage .prepared (by decide) (decide (0 ≤ err)) true)
  | abandon hkind hstage =>
    exact Or.inr (h.connect hkind hstage .abandoned (by decide) s.stream.connected s.activityTimer)
  | add => exact Or.inr h.add
  | queueWrite data => exact Or.inr (h.queueWrite hstalls)
  | expireActivity =>
    exact Or.inr (h.addEvent .activity false s.egressTimer (fun _ => ⟨rfl, rfl⟩) Or.inl)
  | expireEgress htimer =>
    -- before `Engine::add` no egress timer is set
    refine Or.inr (h.addEvent .egress s.activityTimer false (fun hne => ?_) fun _ => Or.inr rfl)
    cases (h.preAdd hne).egressTimer.symm.trans htimer
  | report harmed =>
    refine Or.inr (h.of_same rfl rfl rfl (fun _ hpre => absurd hpre.armed harmed) ?_ id)
    exact fun _ _ _ => Or.inr (Or.inl (Option.some_ne_none _))
  | @newEvent events hreport =>
    -- the duty of the report passes to the event made from it
    have hgrows := newEvent_grows { s with report := none } events
    refine Or.inr (h.of_same hgrows.stage hgrows.stream hgrows.registered (fun _ hpre => ?_)
      (fun hadded _ _ => ?_) fun htoken => ?_)
    · cases hpre.report.symm.trans hreport
    · exact Or.inr (Or.inr (Or.inl ⟨events, newEvent_mem (h.registered hadded)⟩))
    · exact hgrows.token htoken
  | pop hqueue => exact Or.inr (h.pop hqueue)
  | check hmem =>
    -- a stream that is not disconnecting is still in `eventHash`
    rw [if_pos (h.registered (h.added hmem ⟨nofun, nofun⟩))]
    exact Or.inr (h.advance hmem ⟨nofun, nofun⟩ (fun _ _ => ⟨_, rfl, trivial⟩)
      fun hout => ⟨_, rfl, hout⟩)
  | write hmem _ hp => exact Or.inr (h.write hmem hprogresses hstalls hp)
  | skipWrite hmem hout =>
    -- without `EPOLLOUT` the worker had no duty to write
    exact Or.inr (h.advance hmem ⟨nofun, nofun⟩ (fun _ _ => ⟨_, rfl, trivial⟩)
      fun hwrite => absurd hwrite hout)
  | @read events _ hmem =>
    have hread : Live (s.advance (.read events) (some (.finish events))) :=
      h.advance hmem ⟨nofun, nofun⟩ (fun _ _ => ⟨_, rfl, trivial⟩) fun hwrite => hwrite.elim
    exact Or.inr (hread.of_same rfl rfl rfl (fun hne => absurd (h.added hmem ⟨nofun, nofun⟩) hne)
      (fun _ _ hduty => hduty) id)
  | finish hmem =>
    -- the mask of the re-arm is `waitingOutEvent` at this moment
    exact Or.inr (h.advance hmem ⟨nofun, nofun⟩ (fun hwaiting _ => ⟨_, rfl, hwaiting⟩)
      fun hwrite => hwrite.elim)
  | @rearm needOut hmem =>
    have hadded := h.added hmem ⟨nofun, nofun⟩
    rw [if_pos (h.registered hadded)]
    refine Or.inr (h.of_same rfl rfl rfl (fun hne => absurd hadded hne) (fun _ hwaiting _ => ?_)
      fun htoken => ?_)
    · refine Or.inl (congrArg some ?_)
      -- a mask that lacks `EPOLLOUT` now is a stale one
      by_contra hfalse
      exact hstalls ⟨Bool.eq_false_of_not_eq_true hfalse, hwaiting⟩
    · have htoken' : Token (s.advance (.rearm needOut) none) :=
        htoken.advance fun hwrite => hwrite.elim
      exact htoken'
  | asyncWriteComplete hmem =>
    refine Or.inr (h.of_same rfl rfl rfl (fun _ hpre => ?_) (fun _ _ hduty => ?_) fun htoken => ?_)
    · exact { hpre with
        handlers := fun x hx => hpre.handlers x ((mem_advance hx).resolve_left nofun) }
    · exact hduty.advance fun harm => harm.elim
    · exact htoken.advance fun hwrite => hwrite.elim
  | asyncEgress hmem =>
    have hadded := h.added hmem ⟨nofun, nofun⟩
    -- the trigger takes the duty over from the event of the timer
    let s₁ := s.advance .egress none
    have hgrows : Grows s₁ (s₁.engineCall .triggerWrites) := engineCall_grows _ _
    refine Or.inr (h.of_same hgrows.stage hgrows.stream hgrows.registered
      (fun hne => absurd hadded hne) (fun _ _ hduty => ?_) fun _ => ?_)
    · exact hgrows.outDuty (hduty.advance fun harm => harm.elim)
    · exact Or.inl ⟨_, rfl, newEvent_mem (s := s₁) (h.registered hadded)⟩
  | disconnect hdone | handleError _ _ hdone | asyncDisconnect _ hdone =>
    exact Or.inl (disconnect_disconnecting hdone)

theorem live_init (kind : Kind) : Live (init kind) := by
  refine ⟨rfl, fun _ => ⟨rfl, rfl, rfl, rfl, rfl, rfl, fun _ he => (by cases he),
    fun _ hx => (by cases hx), fun _ => ⟨rfl, rfl⟩, fun _ => rfl⟩, fun hadded => (by cases hadded),
    fun hadded => (by cases hadded), fun hc => (by cases hc), fun hne => absurd rfl hne,
    fun ht => (by cases ht)⟩

/-- **No stuck output**: in every run whose writes accept something or would block, and whose
steps drop no duty, every registered and connected stream with data to write has a wake-up while
no handler runs for it, unless the queue holds an epoll event without `EPOLLOUT`, whose run will
arm the registration. -/
theorem wakeUp_of_run {kind : Kind} {ls : List StreamStep}
    (hprogresses : ∀ l ∈ ls, Progresses l)
    (hstalls : AllSteps step (fun s l => ¬ Stalls s l) (init kind) ls)
    (hrun : runFrom step (init kind) ls = .ok s)
    (hqueue : ∀ events, .run events ∈ s.eventQueue → events.out = true) : NoStuckOutput s := by
  have hinv := AllSteps.invariant
    (fun s => s.stream.disconnecting = true ∨ Live s)
    (fun h hC hstep => h.elim (fun hdone => Or.inl (disconnecting_step hdone hstep))
      fun hlive => hlive.step hC.1 hC.2 hstep)
    (Or.inr (live_init kind)) ((AllSteps.of_forall_mem hprogresses).and hstalls) hrun
  rcases hinv with hdone | hlive
  · exact fun _ _ _ hfalse => absurd hdone (by rw [hfalse]; decide)
  · exact hlive.noStuckOutput hqueue

/-- An outgoing stream whose write would block, and is armed with `EPOLLOUT`. -/
theorem wakeUp_outgoing_would_block :
    ∃ s, runFrom step (init .outgoing) [.connect 0, .add, .queueWrite [1], .pop,
        .check ⟨true, false, false⟩, .write ⟨true, false, false⟩ 0 [⟨-1, .EAGAIN, 1⟩],
        .read ⟨true, false, false⟩ false, .finish ⟨true, false, false⟩, .rearm true] = .ok s ∧
      s.stream.writeQueue = [[1]] ∧ NoStuckOutput s := by
  obtain ⟨s, hrun⟩ : ∃ s, runFrom step (init .outgoing) [.connect 0, .add, .queueWrite [1], .pop,
      .check ⟨true, false, false⟩, .write ⟨true, false, false⟩ 0 [⟨-1, .EAGAIN, 1⟩],
      .read ⟨true, false, false⟩ false, .finish ⟨true, false, false⟩, .rearm true] = .ok s :=
    ⟨_, rfl⟩
  have hempty : s.eventQueue = [.notifyWriteComplete] ∧ s.stream.writeQueue = [[1]] := by
    cases hrun
    exact ⟨rfl, rfl⟩
  refine ⟨s, hrun, hempty.2, wakeUp_of_run (by decide) (by decide) hrun fun events hevents => ?_⟩
  rw [hempty.1] at hevents
  cases List.mem_singleton.mp hevents

/-- An accepted stream whose write would block: it does not wait for `EPOLLOUT`, and no timer is
set. -/
theorem stuck_accepted_would_block :
    ¬ ∀ kind ls s, (∀ l ∈ ls, Progresses l) → runFrom step (init kind) ls = .ok s →
      NoStuckOutput s := by
  intro h
  obtain ⟨s, hrun⟩ : ∃ s, runFrom step (init .accepted) [.accept, .add, .pop, .asyncWriteComplete,
      .queueWrite [1], .pop, .check ⟨true, false, false⟩,
      .write ⟨true, false, false⟩ 0 [⟨-1, .EAGAIN, 1⟩], .read ⟨true, false, false⟩ false,
      .finish ⟨true, false, false⟩, .rearm false, .pop, .asyncWriteComplete] = .ok s := ⟨_, rfl⟩
  have hstuck := h _ _ s (by decide) hrun
  have hstate : s.handlers = [] ∧ s.stage = .added ∧ s.stream.connected = true ∧
      s.stream.disconnecting = false ∧ s.stream.writeQueue = [[1]] ∧ s.eventQueue = [] ∧
      s.egressTimer = false ∧ s.armed = some false ∧ s.report = none := by
    cases hrun
    exact ⟨rfl, rfl, rfl, rfl, rfl, rfl, rfl, rfl, rfl⟩
  obtain ⟨hidle, hadded, hconnected, hlive, hdata, hempty, htimer, harmed, hreport⟩ := hstate
  have hwake := hstuck hidle hadded hconnected hlive (by rw [hdata]; exact List.cons_ne_nil _ _)
  simp [WakeUpPending, hempty, htimer, harmed, hreport] at hwake

end StreamSystem

end Epoller
