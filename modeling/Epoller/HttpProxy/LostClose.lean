import Epoller.HttpProxy.Closing

/-!
# A Close That Is Lost

`HttpProxy::disconnect` finds data in the queue and then sets a flag for the next
`writeComplete`. The queue can be emptied in between, and the callback scheduled
for that can run before the flag is set: then no callback is left to see it.

## Contents

- `NotLost`: behind a close the stream is disconnected or will be
- `LeavesNotice`: a callback between the test and the flag does not come last
- `notLost_of_run`: then no close is lost
- `lost_of_last_notice`: otherwise it is lost with the next step
-/

namespace Epoller

open Foundation

namespace ClientSide

/-- A callback is still to come: for data in the queue, one that is scheduled, or one that has read
the flag and is still to disconnect. -/
def Awaits (s : ClientSide) : Prop :=
  s.out.writeQueue ≠ [] ∨ 0 < s.out.pending ∨ s.completing = true

/-- Once `disconnect` has returned the stream is disconnected, or the flag is set and a callback
will see it. -/
def NotLost (s : ClientSide) : Prop :=
  s.returned = true → s.out.stream.disconnecting = true ∨
    (s.disconnectWhenCompleted = true ∧ s.Awaits)

/-- A callback that runs between the test of `disconnect` and its setting the flag leaves data or
another callback behind. -/
def LeavesNotice (s : ClientSide) : ClientStep → Prop
  | .writeComplete => s.stage = .foundData → s.disconnectWhenCompleted = false →
    s.out.stream.disconnecting = true ∨ s.out.writeQueue ≠ [] ∨ 1 < s.out.pending
  | .queueWrite _ | .handleWrite .. | .completeDisconnect | .testQueue | .disconnect
  | .setDisconnectWhenCompleted | .dropped => True

instance (s : ClientSide) (l : ClientStep) : Decidable (LeavesNotice s l) :=
  match l with
  | .writeComplete => inferInstanceAs (Decidable (s.stage = .foundData →
      s.disconnectWhenCompleted = false →
        s.out.stream.disconnecting = true ∨ s.out.writeQueue ≠ [] ∨ 1 < s.out.pending))
  | .queueWrite _ | .handleWrite .. | .completeDisconnect | .testQueue | .disconnect
  | .setDisconnectWhenCompleted | .dropped => inferInstanceAs (Decidable True)

instance (s : ClientSide) : Decidable s.Awaits := inferInstanceAs (Decidable (_ ∨ _ ∨ _))

instance (s : ClientSide) : Decidable s.NotLost := inferInstanceAs (Decidable (_ → _ ∨ _ ∧ _))

/-- From the test of `disconnect` on something is left to do. -/
structure Noticed (s : ClientSide) : Prop where
  awaits : s.stage = .foundData ∨ s.disconnectWhenCompleted = true →
    s.out.stream.disconnecting = true ∨ s.Awaits
  returned : s.returned = true →
    s.out.stream.disconnecting = true ∨ s.disconnectWhenCompleted = true

variable {s s' s'' : ClientSide} {l : ClientStep} {ls : List ClientStep}

theorem Noticed.notLost (h : Noticed s) : NotLost s := by
  intro hreturned
  rcases h.returned hreturned with hdisconnecting | hflag
  · exact .inl hdisconnecting
  · exact (h.awaits (.inr hflag)).imp_right fun hawaits => ⟨hflag, hawaits⟩

/-- Whatever a step of the stream does, it leaves something to do. -/
theorem Awaits.of_sends (h : s.Awaits) {out : Notifying} (hsends : Notifying.Sends s.out out) :
    Awaits { s with out } := by
  rcases h with hqueue | hpending | hcompleting
  · by_cases hdrained : out.writeQueue = []
    · exact .inr (.inl (Nat.zero_lt_of_lt (hsends.schedules hqueue hdrained)))
    · exact .inl hdrained
  · have hkept := hsends.pending
    refine .inr (.inl ?_)
    simp only
    omega
  · exact .inr (.inr hcompleting)

theorem Awaits.queueWrite (h : s.Awaits) (data : Bytes) :
    Awaits { s with out := s.out.queueWrite data } :=
  h.imp_left fun hqueue => Notifying.queueWrite_ne_nil hqueue data

/-- **Step**: a callback that leaves something behind keeps the close. -/
theorem noticed_step (h : Noticed s) (hl : LeavesNotice s l) (hstep : s.step l = .ok s') :
    Noticed s' := by
  have hgone := fun hdisconnecting => disconnecting_step hdisconnecting hstep
  cases moves_of_step hstep with
  | queueWrite data =>
    exact ⟨fun hclosing => (h.awaits hclosing).imp hgone fun hawaits => hawaits.queueWrite data,
      fun hreturned => (h.returned hreturned).imp_left hgone⟩
  | handleWrite hout =>
    have hsends := Notifying.sends_of_handleWrite hout
    exact ⟨fun hclosing => (h.awaits hclosing).imp hgone fun hawaits => hawaits.of_sends hsends,
      fun hreturned => (h.returned hreturned).imp_left hgone⟩
  | writeComplete hpending hlock =>
    refine ⟨fun hclosing => ?_, h.returned⟩
    cases hflag : s.disconnectWhenCompleted with
    | true => exact .inr (.inr (.inr rfl))
    | false =>
      -- the flag comes too late for this callback
      have hfound : s.stage = .foundData := hclosing.resolve_right (by simp [hflag])
      rcases hl hfound hflag with hdisconnecting | hqueue | hanother
      · exact .inl hdisconnecting
      · exact .inr (.inl hqueue)
      · exact .inr (.inr (.inl (Nat.sub_pos_of_lt hanother)))
  | completeDisconnect | disconnect | dropped => exact ⟨fun _ => .inl rfl, fun _ => .inl rfl⟩
  | foundEmpty hidle hqueue =>
    refine ⟨fun hclosing => ?_, h.returned⟩
    rcases hclosing with hfound | hflag
    · cases hfound
    · exact h.awaits (.inr hflag)
  | foundData hidle hqueue => exact ⟨fun _ => .inr (.inl hqueue), h.returned⟩
  | setDisconnectWhenCompleted hfound => exact ⟨fun _ => h.awaits (.inl hfound), fun _ => .inr rfl⟩

theorem noticed_init : Noticed init := ⟨fun h => by simp [init] at h, fun h => by cases h⟩

/-- **Run**: no close is lost in a run in which no callback that comes last runs between the test
and the flag. -/
theorem notLost_of_run (hnotice : AllSteps step LeavesNotice init ls)
    (hrun : runFrom step init ls = .ok s) : NotLost s :=
  (AllSteps.invariant Noticed noticed_step noticed_init hnotice hrun).notLost

/-- The stream drains between the test and the flag, and the callback reads the flag behind it. -/
theorem notLost_drained_behind : ∃ s, runFrom step init [.writeComplete, .queueWrite [71],
    .testQueue, .handleWrite 0 [⟨1, .other 0, 1000⟩], .setDisconnectWhenCompleted] = .ok s ∧
      NotLost s := by
  have hnotice : AllSteps step LeavesNotice init [.writeComplete, .queueWrite [71], .testQueue,
      .handleWrite 0 [⟨1, .other 0, 1000⟩], .setDisconnectWhenCompleted] := by
    decide +kernel
  exact ⟨_, rfl, notLost_of_run hnotice rfl⟩

/-- A callback that leaves nothing behind loses the close, once the flag is set. -/
theorem lost_of_last_notice (hl : ¬ LeavesNotice s .writeComplete)
    (hstep : s.step .writeComplete = .ok s')
    (hset : s'.step .setDisconnectWhenCompleted = .ok s'') : ¬ NotLost s'' := by
  simp only [LeavesNotice, Classical.not_imp, not_or] at hl
  obtain ⟨-, hflag, hdisconnecting, hqueue, hlast⟩ := hl
  cases moves_of_step hstep with
  | writeComplete hpending hlock =>
    cases moves_of_step hset with
    | setDisconnectWhenCompleted hfound =>
      intro hkept
      rcases hkept rfl with hgone | ⟨-, hdata | hcallback | hcompleting⟩
      · exact hdisconnecting hgone
      · exact hqueue hdata
      · simp only at hcallback
        omega
      · exact absurd (hflag.symm.trans hcompleting) (by simp)

/-- The stream drains and its callback runs between the test and the flag: the flag is set, the
queue is empty, and nothing is left to see it. -/
theorem not_notLost_drained_between : ¬ ∀ ls s, runFrom step init ls = .ok s → NotLost s := by
  intro h
  obtain ⟨s, hrun, hlost⟩ : ∃ s, runFrom step init [.writeComplete, .queueWrite [71], .testQueue,
      .handleWrite 0 [⟨1, .other 0, 1000⟩], .writeComplete, .setDisconnectWhenCompleted] = .ok s ∧
        ¬ NotLost s := by
    decide +kernel
  exact hlost (h _ s hrun)

end ClientSide

end Epoller
