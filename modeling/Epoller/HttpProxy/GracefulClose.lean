import Epoller.HttpProxy.Closing

/-!
# Graceful Close

A side that disconnects because the other one has closed must have written what it
was handed before. Data waits in two places, `initWrite` and the write queue, and a
`writeComplete` may have been scheduled when there was nothing to write. What breaks
the order is named step by step: a queue that is empty while `initWrite` is not, a
callback older than the data, and a write that fails. The program tells a `Remote`
that its client has closed nowhere but in the destructor of a stream, which does not
run; a `Remote` is told that its server is not to be had by `~TcpConn`.

## Contents

- `Accepted`, `LosesNothing`: what a step that disconnects has to find
- `Orderly`: the steps that leave no old callback behind the close
- `Ordered`: the invariant of either side
- `losesNothing_of_run`: in orderly runs nothing is lost
- `loses_of_pending`, `loses_of_initWrite`: what the other steps lead to
-/

namespace Epoller

open Foundation

/-! ## The Client's Side -/

namespace ClientSide

/-- Something handed over before the close is not accepted. -/
def Unsent (s : ClientSide) : Prop := s.out.sending.wire.length < s.handedBefore.length

/-- What was handed over before the close is accepted; if nothing came since, the queue is empty. -/
def Accepted (s : ClientSide) : Prop :=
  s.handedBefore <+: s.out.sending.wire ∧
    (s.out.sending.queued = s.handedBefore → s.out.writeQueue = [])

/-- The step disconnects the stream because the `Remote` has closed. -/
def Closes (s : ClientSide) : ClientStep → Prop
  | .disconnect => s.out.stream.disconnecting = false ∧ s.stage = .foundEmpty
  | .completeDisconnect => s.out.stream.disconnecting = false ∧ s.completing = true
  | .queueWrite _ | .handleWrite .. | .writeComplete | .testQueue | .setDisconnectWhenCompleted
  | .dropped => False

/-- No write fails, and no callback that was scheduled for less data sees the flag. -/
def Orderly (s : ClientSide) : ClientStep → Prop
  | .handleWrite start ws => (∀ w ∈ ws, w.actuallySent ≠ -2) ∧
    -- the first call schedules a callback, whatever it leaves in the queue
    (s.disconnectWhenCompleted = true → s.out.stream.connected = true → s.out.stream.once = false →
      s.out.Accepts start ws s.handedBefore.length)
  | .setDisconnectWhenCompleted => s.Unsent → s.out.pending = 0
  -- a close of an earlier `Remote` has set the flag
  | .testQueue => s.disconnectWhenCompleted = true → s.out.writeQueue ≠ [] →
    s.out.pending = 0 ∧ s.completing = false
  | .queueWrite _ | .writeComplete | .completeDisconnect | .disconnect | .dropped => True

instance (s : ClientSide) : Decidable s.Unsent := inferInstanceAs (Decidable (_ < _))

instance (s : ClientSide) : Decidable s.Accepted := inferInstanceAs (Decidable (_ ∧ _))

instance (s : ClientSide) (l : ClientStep) : Decidable (s.Closes l) :=
  match l with
  | .disconnect | .completeDisconnect => inferInstanceAs (Decidable (_ ∧ _))
  | .queueWrite _ | .handleWrite .. | .writeComplete | .testQueue | .setDisconnectWhenCompleted
  | .dropped => inferInstanceAs (Decidable False)

instance (s : ClientSide) (l : ClientStep) : Decidable (s.Orderly l) :=
  match l with
  | .handleWrite _ _ => inferInstanceAs (Decidable (_ ∧ (_ → _)))
  | .setDisconnectWhenCompleted | .testQueue => inferInstanceAs (Decidable (_ → _))
  | .queueWrite _ | .writeComplete | .completeDisconnect | .disconnect | .dropped =>
    inferInstanceAs (Decidable True)

/-- What holds of the client's side, while it is not disconnected, in orderly runs. -/
structure Ordered (s : ClientSide) : Prop where
  conserves : s.out.Conserves
  before : s.handedBefore <+: s.out.sending.queued
  locked : s.completing = true → s.disconnectWhenCompleted = true
  found : s.stage = .foundEmpty → ¬ s.Unsent
  /-- No callback is left from before the flag. -/
  fresh : s.disconnectWhenCompleted = true → s.Unsent → s.out.pending = 0 ∧ s.completing = false

variable {s s' : ClientSide} {l : ClientStep}

theorem Closes.live (h : s.Closes l) : s.out.stream.disconnecting = false := by
  cases l with
  | disconnect | completeDisconnect => exact h.1
  | _ => exact h.elim

theorem Ordered.accepted (h : Ordered s) (hsent : ¬ s.Unsent) : s.Accepted := by
  have hle : s.handedBefore.length ≤ s.out.sending.wire.length := not_lt.mp hsent
  refine ⟨h.conserves.prefix_wire h.before hle, fun hqueued => ?_⟩
  rw [h.conserves.writeQueue_eq_nil_iff, hqueued]
  exact hle

/-- With an empty queue everything is accepted. -/
theorem Ordered.not_unsent (h : Ordered s) (hqueue : s.out.writeQueue = []) : ¬ s.Unsent :=
  not_lt.mpr (h.conserves.length_le_wire h.before hqueue)

/-- **Closing**: an ordered side that disconnects has written everything. -/
theorem Ordered.accepted_of_closes (h : Ordered s) (hcloses : s.Closes l) : s.Accepted := by
  apply h.accepted
  cases l with
  | disconnect => exact h.found hcloses.2
  | completeDisconnect =>
    intro hunsent
    have hidle := (h.fresh (h.locked hcloses.2) hunsent).2
    exact absurd (hcloses.2.symm.trans hidle) (by simp)
  | _ => exact hcloses.elim

theorem Ordered.handleWrite {start : TimePointNs} {ws : List WriteCall} {out : Notifying}
    (h : Ordered s) (hl : s.Orderly (.handleWrite start ws))
    (hout : s.out.handleWrite start ws = .ok out) : Ordered { s with out } := by
  obtain ⟨hsucceeds, hfirst⟩ := hl
  have hsends := Notifying.sends_of_handleWrite hout
  have hkept : out.Conserves := h.conserves.handleWrite hout hsucceeds
  have hbefore : s.handedBefore <+: out.sending.queued := by
    rw [hsends.queued]
    exact h.before
  have hstill : Unsent { s with out } → s.Unsent := lt_of_le_of_lt hsends.wire.length_le
  refine ⟨hkept, hbefore, h.locked, fun hfound hunsent => h.found hfound (hstill hunsent),
    fun hflag hunsent => ?_⟩
  obtain ⟨hnone, hlock⟩ := h.fresh hflag (hstill hunsent)
  refine ⟨?_, hlock⟩
  rcases hsends.pending with hsame | hmore
  · exact hsame.trans hnone
  -- a callback that is scheduled now finds everything accepted
  · rcases hsends.cause (by omega) with ⟨-, hdrained⟩ | ⟨-, hempty⟩ | ⟨hconnected, honce⟩
    · exact absurd hunsent (not_lt.mpr (hkept.length_le_wire hbefore hdrained))
    · exact absurd (hstill hunsent) (h.not_unsent hempty)
    · exact absurd hunsent (not_lt.mpr (hfirst hflag hconnected honce out hout))

/-- **Step**: an orderly step disconnects the stream or keeps its side ordered. -/
theorem ordered_step (h : Ordered s) (hl : s.Orderly l) (hstep : s.step l = .ok s') :
    s'.out.stream.disconnecting = true ∨ Ordered s' := by
  cases moves_of_step hstep with
  | queueWrite data =>
    exact .inr ⟨h.conserves.queueWrite data, h.before.trans (List.prefix_append _ _), h.locked,
      h.found, h.fresh⟩
  | handleWrite hout => exact .inr (h.handleWrite hl hout)
  | writeComplete hpending hlock =>
    refine .inr ⟨⟨h.conserves.chunks, h.conserves.content⟩, h.before, id, h.found,
      fun hflag hunsent => ?_⟩
    have hnone := (h.fresh hflag hunsent).1
    omega
  | completeDisconnect | disconnect | dropped => exact .inl rfl
  | foundEmpty hidle hqueue =>
    have hsent : ¬ s.out.sending.wire.length < s.out.sending.queued.length :=
      not_lt.mpr (h.conserves.length_le_wire List.prefix_rfl hqueue)
    exact .inr ⟨h.conserves, List.prefix_rfl, h.locked, fun _ => hsent,
      fun _ hunsent => absurd hunsent hsent⟩
  | foundData hidle hqueue =>
    exact .inr ⟨h.conserves, List.prefix_rfl, h.locked, fun hfound => (by cases hfound),
      fun hflag _ => hl hflag hqueue⟩
  | setDisconnectWhenCompleted hfound =>
    refine .inr ⟨h.conserves, h.before, fun _ => rfl, fun hidle => (by cases hidle),
      fun _ hunsent => ⟨hl hunsent, ?_⟩⟩
    cases hlock : s.completing with
    | false => rfl
    | true => exact absurd (h.fresh (h.locked hlock) hunsent).2 (by simp [hlock])

theorem ordered_init : Ordered init where
  conserves := ⟨fun _ h => (by cases h), rfl⟩
  before := List.prefix_rfl
  locked := fun h => by cases h
  found := fun h => by cases h
  fresh := fun h => by cases h

/-- A callback that is left when the flag is set disconnects a stream with unsent data. -/
theorem loses_of_pending (hunsent : s.Unsent) (hpending : 0 < s.out.pending)
    (hflag : s.disconnectWhenCompleted = true) (hlock : s.completing = false)
    (hlive : s.out.stream.disconnecting = false) :
    ∃ t, s.step .writeComplete = .ok t ∧ t.Closes .completeDisconnect ∧ ¬ t.Accepted := by
  refine ⟨_, if_pos ⟨hpending, hlock⟩, ⟨hlive, hflag⟩, fun haccepted => ?_⟩
  exact not_lt.mpr haccepted.1.length_le hunsent

end ClientSide

/-! ## The Server's Side -/

namespace RemoteSide

def Unsent (s : RemoteSide) : Prop := s.out.sending.wire.length < s.handedBefore.length

/-- What was handed over before the close is accepted; if nothing came since, the queue and
`initWrite` are empty. -/
def Accepted (s : RemoteSide) : Prop :=
  s.handedBefore <+: s.out.sending.wire ∧
    (s.handed = s.handedBefore → s.out.writeQueue = [] ∧ s.initWrite = [])

/-- The step disconnects the stream because the `HttpProxy` has closed. -/
def Closes (s : RemoteSide) : RemoteStep → Prop
  | .disconnect => s.out.stream.disconnecting = false ∧ s.stage = .foundEmpty
  | .completeDisconnect => s.out.stream.disconnecting = false ∧ s.completing = true
  | .attach _ | .handleWrite .. | .flush | .doWrite _ | .writeComplete | .setEpDisconnected
  | .testQueue | .dropped => False

/-- No write fails, `initWrite` is not passed over, and no callback that was scheduled for less
data finds the close. -/
def Orderly (s : RemoteSide) : RemoteStep → Prop
  | .handleWrite start ws => (∀ w ∈ ws, w.actuallySent ≠ -2) ∧
    (s.epDisconnected = true → s.Unsent →
      -- the first two calls schedule a callback each, with `initWrite` still to come
      (s.out.writeQueue = [] → s.out.stream.connected = false ∨ s.out.stream.once = false →
        s.out.pending = 0) ∧
      (s.out.writeQueue ≠ [] → s.out.stream.connected = true → s.out.stream.once = false →
        s.out.Accepts start ws s.handedBefore.length))
  | .flush | .doWrite _ => s.epDisconnected = true → s.Unsent → s.attached = true →
    s.initWrite ≠ [] → s.out.pending = 0
  -- one callback may be left to write `initWrite`
  | .setEpDisconnected => s.out.sending.wire.length < s.handed.length →
    s.out.pending ≤ 1 ∧ (s.initWrite = [] → s.out.pending = 0)
  | .testQueue => s.Unsent → s.attached = true → s.initWrite = []
  | .attach _ | .writeComplete | .completeDisconnect | .disconnect | .dropped => True

instance (s : RemoteSide) : Decidable s.Unsent := inferInstanceAs (Decidable (_ < _))

instance (s : RemoteSide) : Decidable s.Accepted := inferInstanceAs (Decidable (_ ∧ _))

instance (s : RemoteSide) (l : RemoteStep) : Decidable (s.Closes l) :=
  match l with
  | .disconnect | .completeDisconnect => inferInstanceAs (Decidable (_ ∧ _))
  | .attach _ | .handleWrite .. | .flush | .doWrite _ | .writeComplete | .setEpDisconnected
  | .testQueue | .dropped => inferInstanceAs (Decidable False)

instance (s : RemoteSide) (l : RemoteStep) : Decidable (s.Orderly l) :=
  match l with
  | .handleWrite _ _ => inferInstanceAs (Decidable (_ ∧ (_ → _)))
  | .flush | .doWrite _ | .setEpDisconnected | .testQueue => inferInstanceAs (Decidable (_ → _))
  | .attach _ | .writeComplete | .completeDisconnect | .disconnect | .dropped =>
    inferInstanceAs (Decidable True)

/-- What holds of the server's side, while it is not disconnected, in orderly runs. -/
structure Ordered (s : RemoteSide) : Prop where
  conserves : s.out.Conserves
  /-- What is handed over is queued, or waits in `initWrite`. -/
  content : s.out.sending.queued ++ s.initWrite = s.handed
  before : s.handedBefore <+: s.handed
  detached : s.attached = false → s.out.writeQueue = [] ∧ s.out.pending = 0
  first : s.initWrite ≠ [] → s.out.writeQueue = []
  opened : s.epDisconnected = false → s.stage = .idle ∧ s.completing = false
  found : s.stage = .foundEmpty → ¬ s.Unsent
  /-- One callback at most is left from before the close, and that to write `initWrite`. -/
  fresh : s.epDisconnected = true → s.Unsent →
    s.completing = false ∧ s.out.pending ≤ 1 ∧ (s.initWrite = [] → s.out.pending = 0)

variable {s s' : RemoteSide} {l : RemoteStep}

theorem Closes.live (h : s.Closes l) : s.out.stream.disconnecting = false := by
  cases l with
  | disconnect | completeDisconnect => exact h.1
  | _ => exact h.elim

theorem Ordered.accepted (h : Ordered s) (hsent : ¬ s.Unsent) : s.Accepted := by
  have hle : s.handedBefore.length ≤ s.out.sending.wire.length := not_lt.mp hsent
  have hwire : s.out.sending.wire <+: s.handed := by
    rw [← h.content]
    exact h.conserves.content.wire_prefix.trans (List.prefix_append _ _)
  refine ⟨List.prefix_of_prefix_length_le h.before hwire hle, fun hhanded => ?_⟩
  have hlength := congrArg List.length h.content
  rw [List.length_append, hhanded] at hlength
  have hqueued := h.conserves.content.wire_prefix.length_le
  have hnone : s.initWrite.length = 0 := by omega
  exact ⟨h.conserves.writeQueue_eq_nil_iff.mpr (by omega), List.eq_nil_of_length_eq_zero hnone⟩

/-- With nothing in `initWrite` everything handed over has been queued. -/
theorem Ordered.queued (h : Ordered s) (hinit : s.initWrite = []) :
    s.out.sending.queued = s.handed := by
  have hcontent := h.content
  rwa [hinit, List.append_nil] at hcontent

/-- With nothing in the queue and in `initWrite` everything is accepted. -/
theorem Ordered.not_unsent (h : Ordered s) (hqueue : s.out.writeQueue = [])
    (hinit : s.initWrite = []) : ¬ s.Unsent := by
  have hbefore : s.handedBefore <+: s.out.sending.queued := by
    rw [h.queued hinit]
    exact h.before
  exact not_lt.mpr (h.conserves.length_le_wire hbefore hqueue)

/-- **Closing**: an ordered side that disconnects has written everything. -/
theorem Ordered.accepted_of_closes (h : Ordered s) (hcloses : s.Closes l) : s.Accepted := by
  apply h.accepted
  cases l with
  | disconnect => exact h.found hcloses.2
  | completeDisconnect =>
    intro hunsent
    cases hclosed : s.epDisconnected with
    | false => exact absurd (hcloses.2.symm.trans (h.opened hclosed).2) (by simp)
    | true => exact absurd (hcloses.2.symm.trans (h.fresh hclosed hunsent).1) (by simp)
  | _ => exact hcloses.elim

theorem Ordered.handleWrite {start : TimePointNs} {ws : List WriteCall} {out : Notifying}
    (h : Ordered s) (hl : s.Orderly (.handleWrite start ws)) (hattached : s.attached = true)
    (hout : s.out.handleWrite start ws = .ok out) : Ordered { s with out } := by
  obtain ⟨hsucceeds, hfirst⟩ := hl
  have hsends := Notifying.sends_of_handleWrite hout
  have hkept : out.Conserves := h.conserves.handleWrite hout hsucceeds
  have hcontent : out.sending.queued ++ s.initWrite = s.handed := by
    rw [hsends.queued]
    exact h.content
  have hstill : Unsent { s with out } → s.Unsent := lt_of_le_of_lt hsends.wire.length_le
  have hdetached : s.attached = false → out.writeQueue = [] ∧ out.pending = 0 := fun hnone =>
    absurd (hattached.symm.trans hnone) (by simp)
  have hunwritten : s.initWrite ≠ [] → out.writeQueue = [] := fun hinit =>
    hsends.writeQueue_eq_nil h.conserves hkept (h.first hinit)
  have hsent : out.writeQueue = [] → s.initWrite = [] → ¬ Unsent { s with out } := by
    intro hqueue hinit
    have hbefore : s.handedBefore <+: out.sending.queued := by
      rw [hsends.queued, h.queued hinit]
      exact h.before
    exact not_lt.mpr (hkept.length_le_wire hbefore hqueue)
  refine ⟨hkept, hcontent, h.before, hdetached, hunwritten, h.opened,
    fun hfound hunsent => h.found hfound (hstill hunsent), fun hclosed hunsent => ?_⟩
  obtain ⟨hlock, hone, hnone⟩ := h.fresh hclosed (hstill hunsent)
  obtain ⟨hinitial, haccepts⟩ := hfirst hclosed (hstill hunsent)
  refine ⟨hlock, ?_⟩
  rcases hsends.pending with hsame | hmore
  · rw [hsame]
    exact ⟨hone, hnone⟩
  · by_cases hqueue : s.out.writeQueue = []
    -- nothing was written, so `initWrite` is still to come, and this is the only callback
    · have hinit : s.initWrite ≠ [] := fun hinit => h.not_unsent hqueue hinit (hstill hunsent)
      have hzero : s.out.pending = 0 := by
        rcases hsends.cause (by omega) with ⟨hdata, -⟩ | ⟨hconnecting, -⟩ | ⟨-, honce⟩
        · exact absurd hqueue hdata
        · exact hinitial hqueue (.inl hconnecting)
        · exact hinitial hqueue (.inr honce)
      exact ⟨hmore.trans_le (by omega), fun hnil => absurd hnil hinit⟩
    -- everything was written
    · have hinit : s.initWrite = [] := by_contra fun hinit => hqueue (h.first hinit)
      rcases hsends.cause (by omega) with ⟨-, hdrained⟩ | ⟨-, hempty⟩ | ⟨hconnected, honce⟩
      · exact absurd hunsent (hsent hdrained hinit)
      · exact absurd hempty hqueue
      · exact absurd hunsent (not_lt.mpr (haccepts hqueue hconnected honce out hout))

theorem Ordered.flushed (h : Ordered s) (hattached : s.attached = true)
    (hnone : s.epDisconnected = true → s.Unsent → s.initWrite ≠ [] → s.out.pending = 0) :
    Ordered s.flushed := by
  by_cases hinit : s.initWrite = []
  · rw [flushed_of_nil hinit]
    exact h
  · rw [flushed_of_ne_nil hinit]
    refine ⟨h.conserves.queueWrite s.initWrite, ?_, h.before,
      fun hdetached => absurd (hattached.symm.trans hdetached) (by simp), fun hne => absurd rfl hne,
      h.opened, h.found, fun hclosed hunsent => ?_⟩
    · rw [List.append_nil]
      exact h.content
    · have hzero : s.out.pending = 0 := hnone hclosed hunsent hinit
      exact ⟨(h.fresh hclosed hunsent).1, hzero.trans_le (Nat.zero_le 1), fun _ => hzero⟩

/-- Data that is handed over behind a flush goes to the queue. -/
theorem Ordered.doWrite (h : Ordered s) (hattached : s.attached = true) (hinit : s.initWrite = [])
    (x : Bytes) :
    Ordered { s with handed := s.handed ++ x, out := s.out.queueWrite x } := by
  refine ⟨h.conserves.queueWrite x, ?_, h.before.trans (List.prefix_append _ _),
    fun hdetached => absurd (hattached.symm.trans hdetached) (by simp),
    fun hne => absurd hinit hne, h.opened, h.found, h.fresh⟩
  simp only [hinit, List.append_nil]
  exact congrArg (· ++ x) (h.queued hinit)

/-- **Step**: an orderly step disconnects the stream or keeps its side ordered. -/
theorem ordered_step (h : Ordered s) (hl : s.Orderly l) (hstep : s.step l = .ok s') :
    s'.out.stream.disconnecting = true ∨ Ordered s' := by
  cases moves_of_step hstep with
  | attach connected hnew =>
    exact .inr ⟨⟨h.conserves.chunks, h.conserves.content⟩, h.content, h.before,
      fun hdetached => (by cases hdetached), h.first, h.opened, h.found, h.fresh⟩
  | handleWrite hattached hout => exact .inr (h.handleWrite hl hattached hout)
  | flush hattached hlock =>
    exact .inr (h.flushed hattached fun hclosed hunsent => hl hclosed hunsent hattached)
  | doWrite hattached hlock =>
    have hflushed := h.flushed hattached fun hclosed hunsent => hl hclosed hunsent hattached
    have hdone := hflushed.doWrite (s.flushed_attached.trans hattached) s.flushed_initWrite
    rw [s.flushed_handed] at hdone
    exact .inr (hdone _)
  | keep hdetached hlock =>
    obtain ⟨hqueue, hnone⟩ := h.detached hdetached
    refine .inr ⟨h.conserves, ?_, h.before.trans (List.prefix_append _ _), h.detached,
      fun _ => hqueue, h.opened, h.found, fun _ _ => ⟨hlock, hnone.trans_le (Nat.zero_le 1),
        fun _ => hnone⟩⟩
    simp only
    rw [← List.append_assoc, h.content]
  | writeInit hpending hlock hinit =>
    have hattached : s.attached = true := by
      by_contra hdetached
      have hnone := (h.detached (Bool.eq_false_iff.mpr hdetached)).2
      omega
    have hone : Ordered { s with out := { s.out with pending := s.out.pending - 1 } } :=
      ⟨⟨h.conserves.chunks, h.conserves.content⟩, h.content, h.before,
        fun hdetached => absurd (hattached.symm.trans hdetached) (by simp), h.first, h.opened,
        h.found, fun hclosed hunsent => ⟨hlock,
          (Nat.sub_le _ _).trans (h.fresh hclosed hunsent).2.1, fun hnil => absurd hnil hinit⟩⟩
    refine .inr (hone.flushed hattached fun hclosed hunsent _ => ?_)
    have hlast := (h.fresh hclosed hunsent).2.1
    simp only
    omega
  | writeComplete hpending hlock hinit =>
    refine .inr ⟨⟨h.conserves.chunks, h.conserves.content⟩, h.content, h.before,
      fun hdetached => ?_, h.first, fun hopen => ⟨(h.opened hopen).1, hopen⟩, h.found,
      fun hclosed hunsent => ?_⟩
    · have hnone := (h.detached hdetached).2
      omega
    · have hnone := (h.fresh hclosed hunsent).2.2 hinit
      omega
  | completeDisconnect | disconnect | dropped => exact .inl rfl
  | setEpDisconnected hfirst =>
    refine .inr ⟨h.conserves, h.content, List.prefix_rfl, h.detached, h.first,
      fun hopen => (by cases hopen), fun hfound => (by cases hfound), fun _ hunsent => ?_⟩
    exact ⟨(h.opened hfirst).2, hl hunsent⟩
  | foundEmpty hflagged hattached hqueue =>
    refine .inr ⟨h.conserves, h.content, h.before, h.detached, h.first, fun hopen => ?_,
      fun _ hunsent => ?_, h.fresh⟩
    · exact absurd (hflagged.symm.trans (h.opened hopen).1) (by simp)
    · exact h.not_unsent hqueue (hl hunsent hattached) hunsent
  | leave hflagged =>
    exact .inr ⟨h.conserves, h.content, h.before, h.detached, h.first,
      fun hopen => ⟨rfl, (h.opened hopen).2⟩, fun hfound => (by cases hfound), h.fresh⟩

theorem ordered_init (initWrite : Bytes) : Ordered (init initWrite) where
  conserves := ⟨fun _ h => (by cases h), rfl⟩
  content := rfl
  before := List.nil_prefix
  detached := fun _ => ⟨rfl, rfl⟩
  first := fun _ => rfl
  opened := fun _ => ⟨rfl, rfl⟩
  found := fun h => by cases h
  fresh := fun h => by cases h

/-- `disconnect` looks at the write queue only: what is left in `initWrite` is lost. -/
theorem loses_of_initWrite (h : Ordered s) (hunsent : s.Unsent) (hinit : s.initWrite ≠ [])
    (hflagged : s.stage = .flagged) (hattached : s.attached = true)
    (hlive : s.out.stream.disconnecting = false) :
    ∃ t, s.step .testQueue = .ok t ∧ t.Closes .disconnect ∧ ¬ t.Accepted := by
  refine ⟨_, if_pos hflagged, ⟨hlive, if_pos ⟨hattached, h.first hinit⟩⟩, fun haccepted => ?_⟩
  exact not_lt.mpr haccepted.1.length_le hunsent

/-- A callback that finds the close and nothing in `initWrite` disconnects a stream with unsent
data. -/
theorem loses_of_pending (hunsent : s.Unsent) (hpending : 0 < s.out.pending)
    (hclosed : s.epDisconnected = true) (hlock : s.completing = false) (hinit : s.initWrite = [])
    (hlive : s.out.stream.disconnecting = false) :
    ∃ t, s.step .writeComplete = .ok t ∧ t.Closes .completeDisconnect ∧ ¬ t.Accepted := by
  have hstep : s.step .writeComplete = .ok { s with
      out := { s.out with pending := s.out.pending - 1 }
      completing := s.epDisconnected } := by
    simp only [step, hpending, hlock, hinit, and_self, if_true, ne_eq, not_true, if_false]
  refine ⟨_, hstep, ⟨hlive, hclosed⟩, fun haccepted => ?_⟩
  exact not_lt.mpr haccepted.1.length_le hunsent

end RemoteSide

/-! ## Both -/

namespace Closing

/-- A step that disconnects a side because the other one has closed finds that everything handed
over before is accepted. -/
def LosesNothing (s : Closing) : ClosingStep → Prop
  | .client l => s.client.Closes l → s.client.Accepted
  | .remote l => s.remote.Closes l → s.remote.Accepted

/-- The step is orderly, or its side is disconnected. -/
def Orderly (s : Closing) : ClosingStep → Prop
  | .client l => s.client.out.stream.disconnecting = false → s.client.Orderly l
  | .remote l => s.remote.out.stream.disconnecting = false → s.remote.Orderly l

instance (s : Closing) (l : ClosingStep) : Decidable (s.LosesNothing l) :=
  match l with
  | .client _ | .remote _ => inferInstanceAs (Decidable (_ → _))

instance (s : Closing) (l : ClosingStep) : Decidable (s.Orderly l) :=
  match l with
  | .client _ | .remote _ => inferInstanceAs (Decidable (_ → _))

/-- Either side is disconnected or ordered. -/
structure Ordered (s : Closing) : Prop where
  client : s.client.out.stream.disconnecting = true ∨ s.client.Ordered
  remote : s.remote.out.stream.disconnecting = true ∨ s.remote.Ordered

variable {s s' : Closing} {l : ClosingStep} {ls : List ClosingStep} {initWrite : Bytes}

/-- **Step** -/
theorem ordered_step (h : Ordered s) (hl : s.Orderly l) (hstep : s.step l = .ok s') :
    Ordered s' := by
  cases l with
  | client l =>
    obtain ⟨client, hclient, hs'⟩ := bind_eq_ok_iff.mp hstep
    cases hs'
    refine ⟨?_, h.remote⟩
    cases hlive : s.client.out.stream.disconnecting with
    | true => exact .inl (ClientSide.disconnecting_step hlive hclient)
    | false =>
      have hordered := h.client.resolve_left (by simp [hlive])
      exact ClientSide.ordered_step hordered (hl hlive) hclient
  | remote l =>
    obtain ⟨remote, hremote, hs'⟩ := bind_eq_ok_iff.mp hstep
    cases hs'
    refine ⟨h.client, ?_⟩
    cases hlive : s.remote.out.stream.disconnecting with
    | true => exact .inl (RemoteSide.disconnecting_step hlive hremote)
    | false =>
      have hordered := h.remote.resolve_left (by simp [hlive])
      exact RemoteSide.ordered_step hordered (hl hlive) hremote

/-- Nothing is lost where both sides are ordered. -/
theorem Ordered.losesNothing (h : Ordered s) (l : ClosingStep) : s.LosesNothing l := by
  cases l with
  | client l =>
    intro hcloses
    refine (h.client.resolve_left fun hgone => ?_).accepted_of_closes hcloses
    exact absurd (hgone.symm.trans hcloses.live) (by simp)
  | remote l =>
    intro hcloses
    refine (h.remote.resolve_left fun hgone => ?_).accepted_of_closes hcloses
    exact absurd (hgone.symm.trans hcloses.live) (by simp)

theorem ordered_init (initWrite : Bytes) : Ordered (init initWrite) :=
  ⟨.inr ClientSide.ordered_init, .inr (RemoteSide.ordered_init initWrite)⟩

/-- **Run**: in orderly runs a side that disconnects has written everything it was handed before
the other one closed. -/
theorem losesNothing_of_run (horderly : AllSteps step Orderly (init initWrite) ls)
    (hrun : runFrom step (init initWrite) ls = .ok s) (l : ClosingStep) : s.LosesNothing l :=
  (AllSteps.invariant Ordered ordered_step (ordered_init initWrite) horderly hrun).losesNothing l

/-- The request is written when its client closes, and the response when the server does. -/
def bothWritten : List ClosingStep :=
  [.remote (.attach false), .remote (.handleWrite 0 []), .remote .writeComplete,
    .remote (.handleWrite 0 [⟨1, .other 0, 1000⟩]), .client .writeComplete,
    .client (.queueWrite [72]), .client .testQueue,
    .client (.handleWrite 0 [⟨1, .other 0, 1000⟩]), .client .setDisconnectWhenCompleted,
    .client .writeComplete, .remote .setEpDisconnected, .remote .writeComplete]

theorem losesNothing_both_written : ∃ s, runFrom step (init [71]) bothWritten = .ok s ∧
    s.client.Closes .completeDisconnect ∧ s.LosesNothing (.client .completeDisconnect) ∧
      s.remote.Closes .completeDisconnect ∧ s.LosesNothing (.remote .completeDisconnect) := by
  obtain ⟨s, hrun, hclient, hremote⟩ : ∃ s, runFrom step (init [71]) bothWritten = .ok s ∧
      s.client.Closes .completeDisconnect ∧ s.remote.Closes .completeDisconnect := by
    decide +kernel
  have horderly : AllSteps step Orderly (init [71]) bothWritten := by decide +kernel
  exact ⟨s, hrun, hclient, losesNothing_of_run horderly hrun _, hremote,
    losesNothing_of_run horderly hrun _⟩

/-- The name of the server is not found, and the `Remote` is told so while the reply to the request
for a tunnel waits in the queue; the callback that runs then was scheduled with the stream. -/
theorem not_losesNothing_older_callback : ¬ ∀ initWrite ls s,
    runFrom step (init initWrite) ls = .ok s → ∀ l, s.LosesNothing l := by
  intro h
  obtain ⟨s, hrun, hlost⟩ : ∃ s, runFrom step (init []) [.client (.queueWrite [72, 84, 84, 80]),
      .client .testQueue, .client .setDisconnectWhenCompleted, .client .writeComplete] = .ok s ∧
        ¬ s.LosesNothing (.client .completeDisconnect) := by
    decide +kernel
  exact hlost (h _ _ s hrun _)

end Closing

end Epoller
