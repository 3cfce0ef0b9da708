import Epoller.TcpStream.Draining
import Epoller.HttpProxy.Closing

/-!
# A Close That Is Not Lost

`Remote::disconnect` sets `epDisconnected` before it looks at the queue, and
`HttpProxy::disconnect` the other way round. On the server's side no close can be
lost, therefore: what is behind the flag finds it set. This is about the code of
`Remote`: the only caller of `Remote::disconnect` is `HttpProxy::disconnected`, which
is called in the destructor of the client's stream, and that one does not run, since
the events of a stream keep it alive.

## Contents

- `Awaits`, `NotLost`: a callback that finds the flag set is still to come
- `writeLoop_drains`: a queue that the kernel takes whole
- `scheduled`, `Minded.ends`: the way to the end of the stream
- `closes_of_run`: in every run
-/

namespace Epoller

open Foundation

/-! ## Queues That Are Taken -/

namespace TcpStream

variable {start : TimePointNs} {p : Progress}

/-- Without a limit, a loop whose chunks are taken whole empties the queue. -/
theorem writeLoop_drains (hrate : p.stream.egressRate = 0) : ∃ p',
    writeLoop start (p.stream.writeQueue.map whole) p = .ok p' ∧ p'.stream.writeQueue = [] := by
  induction hqueue : p.stream.writeQueue generalizing p with
  | nil =>
    refine ⟨p, ?_, hqueue⟩
    rw [List.map_nil, writeLoop, if_pos hqueue]
  | cons data rest ih =>
    have hround : ∃ p₁, writeOnce start (whole data) data rest p = (p₁, true) ∧
        p₁.stream.egressRate = 0 ∧ p₁.stream.writeQueue = rest := by
      simp only [writeOnce, whole_actuallySent, Int.natCast_nonneg, if_true, Int.toNat_natCast,
        ne_eq, not_true_eq_false, if_false, hrate, false_and]
      exact ⟨_, rfl, rfl, rfl⟩
    obtain ⟨p₁, hp₁, hrate₁, hqueue₁⟩ := hround
    obtain ⟨p', hloop, hdrained⟩ := ih hrate₁ hqueue₁
    refine ⟨p', ?_, hdrained⟩
    simp only [List.map_cons, writeLoop, hqueue, whole_actuallySent, le_refl, if_true, hp₁]
    exact hloop

/-- A stream that has never called back, or has something to write, calls back. -/
theorem exists_runWriteComplete {s : TcpStream} (hrate : s.egressRate = 0)
    (hconnected : s.connected = true) (hdue : s.writeQueue ≠ [] ∨ s.once = false) :
    ∃ ws p, s.handleWrite start ws = .ok p ∧ .runWriteComplete ∈ p.calls := by
  obtain ⟨p, hloop, hdrained⟩ : ∃ p, writeLoop start (s.writeQueue.map whole) _ = .ok p ∧
      p.stream.writeQueue = [] := writeLoop_drains
    (p := ⟨{ s with writeTriggered := false, blocked := false }, 0, [], []⟩) hrate
  have honce : p.stream.once = s.once := (writeLoop_calls (by simp) hloop).2
  refine ⟨s.writeQueue.map whole, { p with
    stream := { p.stream with once := true }
    calls := p.calls ++ [.runWriteComplete] }, ?_, by simp⟩
  simp only [handleWrite]
  rw [if_pos hconnected, hloop, ok_bind, if_pos]
  rw [honce]
  exact hdue.symm.imp_right fun hqueue => ⟨hqueue, hdrained⟩

/-- The first call on a connected stream calls back. -/
theorem handleWrite_once {s : TcpStream} {ws : List WriteCall} (h : s.handleWrite start ws = .ok p)
    (honce : s.once = false) : p.stream.once = false ∨ .runWriteComplete ∈ p.calls := by
  simp only [handleWrite] at h
  split at h
  · obtain ⟨p₁, hloop, h⟩ := bind_eq_ok_iff.mp h
    have hsame : p₁.stream.once = false := (writeLoop_calls (by simp) hloop).2.trans honce
    rw [if_pos (.inl hsame)] at h
    cases h
    exact .inr (List.mem_append_right _ (List.mem_singleton_self _))
  · split at h
    · split at h <;> cases h <;> exact .inl honce
    · cases h

end TcpStream

/-- A step of the call of `disconnect`, of the stream or of a callback -/
def RemoteStep.isOwn : RemoteStep → Bool
  | .handleWrite .. | .writeComplete | .completeDisconnect | .testQueue | .disconnect => true
  | .attach _ | .flush | .doWrite _ | .setEpDisconnected | .dropped => false

namespace RemoteSide

variable {s s' : RemoteSide} {l : RemoteStep} {ls : List RemoteStep} {initWrite : Bytes}

/-! ## What Is Still to Come -/

/-- A callback is still to come: for data in the queue, the first one of the stream, one that is
scheduled, or one that has found the flag and is still to disconnect. -/
def Awaits (s : RemoteSide) : Prop :=
  (s.out.writeQueue ≠ [] ∨ s.out.stream.once = false) ∨ 0 < s.out.pending ∨ s.completing = true

/-- Behind `Remote::disconnect` the stream is disconnected, or a callback will find the flag. -/
def NotLost (s : RemoteSide) : Prop :=
  s.epDisconnected = true → s.stage = .idle → s.out.stream.disconnecting = true ∨ s.Awaits

/-- The invariant; a stream that does not exist has not called back. -/
structure Minded (s : RemoteSide) : Prop where
  new : s.attached = false → s.out.stream.once = false
  rate : s.out.stream.egressRate = 0
  stage : s.stage ≠ .foundData
  notLost : NotLost s

theorem minded_init (initWrite : Bytes) : Minded (init initWrite) :=
  ⟨fun _ => rfl, rfl, nofun, fun h => (by cases h)⟩

/-- Whatever `handleWrite` does, it leaves something to do. -/
theorem Awaits.handleWrite (h : s.Awaits) {start : TimePointNs} {ws : List WriteCall}
    {out : Notifying} (hout : s.out.handleWrite start ws = .ok out) : Awaits { s with out } := by
  have hsends := Notifying.sends_of_handleWrite hout
  have hkept : s.out.pending ≤ out.pending := by
    rcases hsends.pending with hsame | hmore <;> omega
  rcases h with (hqueue | honce) | hpending | hcompleting
  · by_cases hdrained : out.writeQueue = []
    · exact .inr (.inl (Nat.zero_lt_of_lt (hsends.schedules hqueue hdrained)))
    · exact .inl (.inl hdrained)
  · obtain ⟨p, hp, hs'⟩ := bind_eq_ok_iff.mp hout
    cases hs'
    rcases TcpStream.handleWrite_once hp honce with hnever | hcall
    · exact .inl (.inr hnever)
    · exact .inr (.inl (Nat.add_pos_right _ (List.count_pos_iff.mpr hcall)))
  · exact .inr (.inl (hpending.trans_le hkept))
  · exact .inr (.inr hcompleting)

theorem queueWrite_once (out : Notifying) (data : Bytes) :
    (out.queueWrite data).stream.once = out.stream.once ∧
      (out.queueWrite data).stream.egressRate = out.stream.egressRate := by
  rcases StreamSystem.queueWrite_cases out.stream data with ⟨heq, -⟩ | ⟨heq, -⟩ | ⟨heq, -⟩ <;>
    simp only [Notifying.queueWrite, heq, and_self]

theorem Awaits.queueWrite (h : s.Awaits) (data : Bytes) :
    Awaits { s with out := s.out.queueWrite data } :=
  h.imp_left fun hdue => hdue.imp (fun hqueue => Notifying.queueWrite_ne_nil hqueue data)
    fun honce => (queueWrite_once s.out data).1.trans honce

theorem flushed_awaits (h : s.Awaits) : s.flushed.Awaits := by
  by_cases hinit : s.initWrite = []
  · rwa [flushed_of_nil hinit]
  · rw [flushed_of_ne_nil hinit]
    exact h.queueWrite s.initWrite

/-- What was kept for the stream is in the queue. -/
theorem flushed_writeQueue (hinit : s.initWrite ≠ []) : s.flushed.out.writeQueue ≠ [] := by
  rw [flushed_of_ne_nil hinit]
  have hqueue := TcpStream.queueWrite_writeQueue s.out.stream s.initWrite
  rw [if_neg hinit] at hqueue
  exact fun hnil => List.append_ne_nil_of_right_ne_nil _ (List.cons_ne_nil _ _)
    (hqueue.symm.trans hnil)

@[simp] theorem flushed_once (s : RemoteSide) : s.flushed.out.stream.once = s.out.stream.once := by
  by_cases hinit : s.initWrite = []
  · rw [flushed_of_nil hinit]
  · rw [flushed_of_ne_nil hinit]
    exact (queueWrite_once _ _).1

@[simp] theorem flushed_egressRate (s : RemoteSide) :
    s.flushed.out.stream.egressRate = s.out.stream.egressRate := by
  by_cases hinit : s.initWrite = []
  · rw [flushed_of_nil hinit]
  · rw [flushed_of_ne_nil hinit]
    exact (queueWrite_once _ _).2

@[simp] theorem flushed_stage (s : RemoteSide) : s.flushed.stage = s.stage := by
  unfold flushed
  split <;> rfl

@[simp] theorem flushed_epDisconnected (s : RemoteSide) :
    s.flushed.epDisconnected = s.epDisconnected := by
  unfold flushed
  split <;> rfl

theorem Minded.flushed (h : Minded s) : Minded s.flushed := by
  refine ⟨fun hdetached => ?_, ?_, ?_, fun hclosed hidle => ?_⟩
  · rw [flushed_once]
    rw [flushed_attached] at hdetached
    exact h.new hdetached
  · rw [flushed_egressRate, h.rate]
  · rw [flushed_stage]
    exact h.stage
  · rw [flushed_epDisconnected] at hclosed
    rw [flushed_stage] at hidle
    rw [flushed_disconnecting]
    exact (h.notLost hclosed hidle).imp_right flushed_awaits

theorem Minded.queueWrite (h : Minded s) (x : Bytes) :
    Minded { s with handed := s.handed ++ x, out := s.out.queueWrite x } := by
  obtain ⟨honce, hrate⟩ := queueWrite_once s.out x
  refine ⟨fun hdetached => honce.trans (h.new hdetached), hrate.trans h.rate, h.stage,
    fun hclosed hidle => ?_⟩
  refine (h.notLost hclosed hidle).imp (fun hgone => ?_) fun hawaits => hawaits.queueWrite x
  exact (Notifying.queueWrite_disconnecting _ _).trans hgone

/-- **Step**: no step loses a close. -/
theorem minded_step (h : Minded s) (hstep : s.step l = .ok s') : Minded s' := by
  have hgone := fun hdisconnecting => disconnecting_step hdisconnecting hstep
  by_cases htest : l = .testQueue
  · subst htest
    simp only [step] at hstep
    split at hstep <;> cases hstep
    refine ⟨h.new, h.rate, ?_, fun _ hidle => .inr (.inl ?_)⟩
    · simp only
      split <;> simp
    · by_cases hattached : s.attached = true
      · refine .inl fun hqueue => ?_
        rw [if_pos ⟨hattached, hqueue⟩] at hidle
        cases hidle
      · exact .inr (h.new (Bool.eq_false_iff.mpr hattached))
  cases moves_of_step hstep with
  | attach connected hnew =>
    refine ⟨fun hdetached => (by cases hdetached), h.rate, h.stage, fun hclosed hidle => ?_⟩
    exact .inr (.inl (.inr (h.new hnew)))
  | handleWrite hattached hout =>
    refine ⟨fun hdetached => absurd (hattached.symm.trans hdetached) (by decide), ?_, h.stage,
      fun hclosed hidle => ?_⟩
    · obtain ⟨p, hp, hs'⟩ := bind_eq_ok_iff.mp hout
      cases hs'
      exact (TcpStream.handleWrite_link hp).2.2.trans h.rate
    · exact (h.notLost hclosed hidle).imp hgone fun hawaits => hawaits.handleWrite hout
  | flush => exact h.flushed
  | @doWrite x =>
    have hdone := h.flushed.queueWrite x
    rw [flushed_handed] at hdone
    exact hdone
  | keep hattached hlock => exact ⟨h.new, h.rate, h.stage, h.notLost⟩
  | writeInit hpending hlock hinit =>
    refine ⟨fun hdetached => ?_, ?_, ?_, fun _ _ => .inr (.inl (.inl (flushed_writeQueue hinit)))⟩
    · rw [flushed_once]
      rw [flushed_attached] at hdetached
      exact h.new hdetached
    · rw [flushed_egressRate]
      exact h.rate
    · rw [flushed_stage]
      exact h.stage
  | writeComplete hpending hlock hinit =>
    refine ⟨h.new, h.rate, h.stage, fun hclosed _ => .inr (.inr (.inr hclosed))⟩
  | completeDisconnect => exact ⟨h.new, h.rate, h.stage, fun _ _ => .inl rfl⟩
  | setEpDisconnected => exact ⟨h.new, h.rate, by simp, fun _ hidle => (by cases hidle)⟩
  | disconnect => exact ⟨h.new, h.rate, by simp, fun _ _ => .inl rfl⟩
  | dropped => exact ⟨h.new, h.rate, h.stage, fun _ _ => .inl rfl⟩
  | foundEmpty | leave => exact absurd rfl htest

/-! ## The Way to the End -/

theorem step_handleWrite (hattached : s.attached = true) {start : TimePointNs}
    {ws : List WriteCall} {p : TcpStream.Progress}
    (hp : s.out.stream.handleWrite start ws = .ok p) : ∃ out,
      s.step (.handleWrite start ws) = .ok { s with out } ∧ out.stream = p.stream ∧
        (.runWriteComplete ∈ p.calls → 0 < out.pending) := by
  have hout : s.out.handleWrite start ws = .ok ⟨{ s.out.sending with
      stream := p.stream, wire := s.out.sending.wire ++ p.wire },
        s.out.pending + p.calls.count .runWriteComplete⟩ := by
    simp only [Notifying.handleWrite, hp, ok_bind]
  exact ⟨⟨{ s.out.sending with stream := p.stream, wire := s.out.sending.wire ++ p.wire },
      s.out.pending + p.calls.count .runWriteComplete⟩,
    by simp only [step, hattached, if_true, hout], rfl,
    fun hcall => Nat.add_pos_right _ (List.count_pos_iff.mpr hcall)⟩

/-- The steps of the side alone lead to `Q`. -/
def OwnLeadsTo (Q : RemoteSide → Prop) (s : RemoteSide) : Prop :=
  LeadsTo step (fun l => RemoteStep.isOwn l = true) Q s

/-- The stream of `s` has scheduled a callback, and nothing else has changed. -/
def Scheduled (s t : RemoteSide) : Prop := ∃ out, t = { s with out } ∧ 0 < out.pending

/-- A connected stream schedules a callback. -/
theorem scheduled_connected (hattached : s.attached = true) (hrate : s.out.stream.egressRate = 0)
    (hconnected : s.out.stream.connected = true)
    (hdue : s.out.writeQueue ≠ [] ∨ s.out.stream.once = false) : s.OwnLeadsTo s.Scheduled := by
  obtain ⟨ws, p, hp, hcall⟩ : ∃ ws p, s.out.stream.handleWrite 0 ws = .ok p ∧
      .runWriteComplete ∈ p.calls := TcpStream.exists_runWriteComplete hrate hconnected hdue
  obtain ⟨out, hstep, -, hpending⟩ := step_handleWrite hattached hp
  exact LeadsTo.cons rfl hstep (LeadsTo.here ⟨out, rfl, hpending hcall⟩)

/-- The stream schedules a callback. -/
theorem scheduled (hattached : s.attached = true) (hrate : s.out.stream.egressRate = 0)
    (hdue : s.out.writeQueue ≠ [] ∨ s.out.stream.once = false) : s.OwnLeadsTo s.Scheduled := by
  cases hconnected : s.out.stream.connected with
  | true => exact scheduled_connected hattached hrate hconnected hdue
  | false =>
    -- the first event connects the stream, and calls back if there is nothing to write
    obtain ⟨p, hp, hconnects, hkept, hcall⟩ := TcpStream.handleWrite_connecting 0 hconnected
    obtain ⟨out, hfirst, hstream, hpending⟩ := step_handleWrite hattached hp
    refine LeadsTo.cons rfl hfirst ?_
    by_cases hqueue : s.out.writeQueue = []
    · exact LeadsTo.here ⟨out, rfl, hpending (hcall hqueue)⟩
    · have hrate' : out.stream.egressRate = 0 := by
        rw [hstream, (TcpStream.handleWrite_link hp).2.2, hrate]
      have hqueue' : out.writeQueue ≠ [] := by
        show out.stream.writeQueue ≠ []
        rw [hstream, hkept]
        exact hqueue
      have hnext := scheduled_connected (s := { s with out }) hattached hrate'
        (by rw [hstream, hconnects]) (.inl hqueue')
      refine LeadsTo.mono hnext fun t ht => ?_
      obtain ⟨out', rfl, hpending'⟩ := ht
      exact ⟨out', rfl, hpending'⟩

/-- Steps of the side alone lead to the end of the stream. -/
def Ends (s : RemoteSide) : Prop := s.OwnLeadsTo fun t => t.out.stream.disconnecting = true

theorem Ends.of_step (h : s'.Ends) (hl : l.isOwn = true) (hstep : s.step l = .ok s') : s.Ends :=
  LeadsTo.cons hl hstep h

theorem ends_of_disconnecting (h : s.out.stream.disconnecting = true) : s.Ends := LeadsTo.here h

/-- A callback that has found the flag disconnects. -/
theorem ends_of_completing (h : s.completing = true) : s.Ends :=
  (ends_of_disconnecting (s := { s with out := s.out.disconnect, completing := false }) rfl).of_step
    (l := .completeDisconnect) rfl (if_pos h)

/-- A callback with nothing left in `initWrite` finds the flag. -/
theorem ends_of_last (hclosed : s.epDisconnected = true) (hpending : 0 < s.out.pending)
    (hinit : s.initWrite = []) : s.Ends := by
  cases hcompleting : s.completing with
  | true => exact ends_of_completing hcompleting
  | false =>
    refine Ends.of_step (l := .writeComplete) (ends_of_completing (s := { s with
      out := { s.out with pending := s.out.pending - 1 }, completing := true }) rfl) rfl ?_
    simp [step, hpending, hcompleting, hinit, hclosed]

/-- Another callback passes `initWrite` on, and one comes behind it. -/
theorem ends_of_pending (hattached : s.attached = true) (hrate : s.out.stream.egressRate = 0)
    (hclosed : s.epDisconnected = true) (hpending : 0 < s.out.pending) : s.Ends := by
  by_cases hinit : s.initWrite = []
  · exact ends_of_last hclosed hpending hinit
  · cases hcompleting : s.completing with
    | true => exact ends_of_completing hcompleting
    | false =>
      have hfirst : s.step .writeComplete =
          .ok { s with out := { s.out with pending := s.out.pending - 1 } }.flushed := by
        simp only [step, hpending, hcompleting, and_self, if_true, if_pos hinit]
      refine Ends.of_step ?_ rfl hfirst
      have hnotice := scheduled
        (s := { s with out := { s.out with pending := s.out.pending - 1 } }.flushed)
        (by rw [flushed_attached, hattached]) (by rw [flushed_egressRate]; exact hrate)
        (.inl (flushed_writeQueue
          (s := { s with out := { s.out with pending := s.out.pending - 1 } }) hinit))
      refine LeadsTo.bind hnotice fun t ht => ?_
      obtain ⟨out, rfl, hmore⟩ := ht
      apply ends_of_last _ hmore
      · simp only [flushed_initWrite]
      · simp only [flushed_epDisconnected, hclosed]

/-- **Progress**: a side that is to close gets to the end of its stream. -/
theorem Minded.ends (h : Minded s) (hclosed : s.epDisconnected = true)
    (hattached : s.attached = true) : s.Ends := by
  -- the flag is set, and the call of `disconnect` is done
  have hdone : ∀ t : RemoteSide, Minded t → t.epDisconnected = true → t.attached = true →
      t.stage = .idle → t.Ends := by
    intro t ht hclosed hattached hidle
    rcases ht.notLost hclosed hidle with hgone | hdue | hpending | hcompleting
    · exact ends_of_disconnecting hgone
    · have hnotice := LeadsTo.keeping (scheduled hattached ht.rate hdue) Minded
        (fun h _ hstep => minded_step h hstep) ht
      refine LeadsTo.bind hnotice fun t' ht' => ?_
      obtain ⟨hminded, out, rfl, hpending⟩ := ht'
      exact ends_of_pending (s := { t with out }) hattached hminded.rate hclosed hpending
    · exact ends_of_pending hattached ht.rate hclosed hpending
    · exact ends_of_completing hcompleting
  have hfound : ∀ t : RemoteSide, t.stage = .foundEmpty → t.Ends := fun t hfound =>
    (ends_of_disconnecting (s := { t with out := t.out.disconnect, stage := .idle }) rfl).of_step
      (l := .disconnect) rfl (if_pos hfound)
  cases hstage : s.stage with
  | idle => exact hdone s h hclosed hattached hstage
  | foundEmpty => exact hfound s hstage
  | foundData => exact absurd hstage h.stage
  | flagged =>
    have hstep : s.step .testQueue = .ok _ := if_pos hstage
    refine Ends.of_step ?_ rfl hstep
    by_cases hempty : s.attached = true ∧ s.out.writeQueue = []
    · exact hfound _ (if_pos hempty)
    · exact hdone _ (minded_step h hstep) hclosed hattached (if_neg hempty)

/-! ## Runs -/

/-- **Run**: in every run no close is lost on the server's side: once `Remote::disconnect` has set
the flag on a side that has its stream, the steps of the side alone end the stream. -/
theorem closes_of_run (hrun : runFrom step (init initWrite) ls = .ok s)
    (hclosed : s.epDisconnected = true) :
    NotLost s ∧ (s.attached = true → ∃ ms s', (∀ l ∈ ms, RemoteStep.isOwn l = true) ∧
      runFrom step s ms = .ok s' ∧ s'.out.stream.disconnecting = true) := by
  have h := runFrom_invariant Minded minded_step (minded_init initWrite) hrun
  exact ⟨h.notLost, h.ends hclosed⟩

/-- The client closes before the server's stream exists. -/
theorem closes_before_attach : ∃ s,
    runFrom step (init [71]) [.setEpDisconnected, .testQueue, .attach false] = .ok s ∧
      ∃ ms s', (∀ l ∈ ms, RemoteStep.isOwn l = true) ∧
        runFrom step s ms = .ok s' ∧ s'.out.stream.disconnecting = true := by
  obtain ⟨s, hrun, hclosed, hattached⟩ : ∃ s,
      runFrom step (init [71]) [.setEpDisconnected, .testQueue, .attach false] = .ok s ∧
        s.epDisconnected = true ∧ s.attached = true := by
    decide +kernel
  exact ⟨s, hrun, (closes_of_run hrun hclosed).2 hattached⟩

end RemoteSide

end Epoller
