import Epoller.TcpStream.ArmedMask
import Epoller.UdpSocket

/-!
# Deaf Sockets

A report disarms the one-shot registration of its socket, and `Engine::run` arms it
again, unless the report tells of an error. Then it calls `handleError`, which is to
remove the socket. `UdpSocket::handleError` only tells the client, and
`TcpStream::disconnect` does nothing if it was called before: such a socket stays in
`eventHash` and never hears of anything again.

## Contents

- `NotDeaf`: a registered socket is armed, or a run of it will arm it
- `Deafens`: the last run of a socket ends with an error and leaves it registered
- `notDeaf_iff_not_deafens`: no socket is deaf in exactly the runs without such a step
-/

namespace Epoller

open Foundation

/-! ## TCP Streams -/

namespace StreamSystem

/-- A registered stream is armed in epoll, or a run of it is in progress, queued or reported. -/
def NotDeaf (s : StreamSystem) : Prop :=
  s.registered = true → s.armed ≠ none ∨ s.InProgress

/-- The last run of a stream whose `disconnect` was called before `Engine::add` ends with
`handleError`. -/
def Deafens (s : StreamSystem) : StreamStep → Prop
  | .finish events => .finish events ∈ s.handlers ∧ events.err = true ∧ s.registered = true ∧
      s.stream.disconnecting = true ∧ s.armed = none ∧
      ¬ (s.advance (.finish events) none).InProgress
  | _ => False

variable {s s' : StreamSystem} {l : StreamStep}

theorem NotDeaf.of_inProgress (h : InProgress s) : NotDeaf s := fun _ => Or.inr h

/-- A step that leaves the registration alone, and ends no run. -/
theorem NotDeaf.of_same (h : NotDeaf s) (hprogress : InProgress s → InProgress s')
    (hregistered : s'.registered = true → s.registered = true) (harmed : s'.armed = s.armed) :
    NotDeaf s' := by
  intro hr
  rw [harmed]
  exact (h (hregistered hr)).imp_right hprogress

theorem notDeaf_handleError {events : EpollEvents} (hadded : AddedIfRegistered s)
    (hmem : .finish events ∈ s.handlers) (herr : events.err = true)
    (hdone : (s.advance (.finish events) none).disconnect = .ok s') :
    NotDeaf s' ↔ ¬ Deafens s (.finish events) := by
  have hadded' : AddedIfRegistered (s.advance (.finish events) none) := hadded
  constructor
  · rintro h ⟨-, -, hregistered, hdisconnecting, hunarmed, hrest⟩
    have hsame : s' = s.advance (.finish events) none := by
      have hdone' : (s.advance (.finish events) none).disconnect =
          .ok (s.advance (.finish events) none) := if_pos hdisconnecting
      exact Except.ok.inj (hdone.symm.trans hdone')
    rw [hsame] at h
    rcases h hregistered with harmed | hprogress
    · exact harmed hunarmed
    · exact hrest hprogress
  · intro hdeafens hregistered
    obtain ⟨hdisconnecting, rfl⟩ := eq_of_disconnect hadded' hdone hregistered
    by_contra hdeaf
    obtain ⟨hunarmed, hrest⟩ := not_or.mp hdeaf
    exact hdeafens ⟨hmem, herr, hregistered, hdisconnecting, not_not.mp hunarmed, hrest⟩

/-- **Step**: a step leaves no stream deaf if and only if it does not deafen it. -/
theorem notDeaf_step (hadded : AddedIfRegistered s) (h : NotDeaf s) (hstep : s.step l = .ok s') :
    NotDeaf s' ↔ ¬ Deafens s l := by
  have hmoves := moves_of_step hstep
  cases hmoves with
  | handleError hmem herr hdone => exact notDeaf_handleError hadded hmem herr hdone
  -- the worker goes on to the re-arm
  | finish hmem herr =>
    exact iff_of_true (.of_inProgress (inProgress_advance rfl)) fun hdeafens => herr hdeafens.2.1
  | accept => exact iff_of_true (h.of_same (fun hp => hp.addEvent .notifyWriteComplete) id rfl) id
  | connect | abandon => exact iff_of_true (h.of_same id id rfl) id
  | add => exact iff_of_true (fun _ => Or.inl (Option.some_ne_none _)) id
  | queueWrite data =>
    have hgrows := engineCalls_grows { s with stream := (s.stream.queueWrite data).1 }
      (s.stream.queueWrite data).2
    refine iff_of_true (h.of_same (fun hp => hgrows.inProgress hp) (fun hr => ?_) hgrows.armed) id
    exact hgrows.registered.symm.trans hr
  | disconnect hdone =>
    have hd := disconnects_of_disconnect hdone
    refine iff_of_true (h.of_same (fun hp => ?_) hd.registered hd.armed) id
    exact hd.inProgress hp
  | asyncDisconnect hmem hdone =>
    have hd := disconnects_of_disconnect hdone
    have hrest : NotDeaf (s.advance .activity none) :=
      h.of_same (fun hp => hp.advance fun hrun => (by cases hrun)) id rfl
    exact iff_of_true (hrest.of_same hd.inProgress hd.registered hd.armed) id
  | expireActivity => exact iff_of_true (h.of_same (fun hp => hp.addEvent .activity) id rfl) id
  | expireEgress => exact iff_of_true (h.of_same (fun hp => hp.addEvent .egress) id rfl) id
  | report => exact iff_of_true (.of_inProgress (Or.inl (Option.some_ne_none _))) id
  | @newEvent events hreport =>
    refine iff_of_true (fun hregistered => Or.inr ?_) id
    have hgrows := newEvent_grows { s with report := none } events
    exact inProgress_newEvent (s := { s with report := none })
      (hgrows.registered.symm.trans hregistered)
  | pop hqueue => exact iff_of_true (h.of_same (fun hp => hp.pop hqueue) id rfl) id
  -- only a socket that is not registered is dropped by the look-up
  | check =>
    refine iff_of_true (fun hregistered => Or.inr ?_) id
    have hregistered' : s.registered = true := hregistered
    rw [if_pos hregistered']
    exact inProgress_advance rfl
  | write =>
    refine iff_of_true (.of_inProgress ((engineCalls_grows _ _).inProgress ?_)) id
    exact Or.inr (Or.inr ⟨_, List.mem_cons_self .., rfl⟩)
  | skipWrite => exact iff_of_true (.of_inProgress (inProgress_advance rfl)) id
  | read =>
    exact iff_of_true (.of_inProgress (Or.inr (Or.inr ⟨_, List.mem_cons_self .., rfl⟩))) id
  | rearm =>
    refine iff_of_true (fun hregistered => Or.inl ?_) id
    have hregistered' : s.registered = true := hregistered
    change (if s.registered = true then _ else _) ≠ none
    rw [if_pos hregistered']
    exact Option.some_ne_none _
  | asyncWriteComplete =>
    exact iff_of_true (h.of_same (fun hp => hp.advance fun hrun => (by cases hrun)) id rfl) id
  | asyncEgress =>
    have hgrows := engineCall_grows (s.advance .egress none) .triggerWrites
    have hrest : NotDeaf (s.advance .egress none) :=
      h.of_same (fun hp => hp.advance fun hrun => (by cases hrun)) id rfl
    refine iff_of_true (hrest.of_same hgrows.inProgress (fun hr => ?_) hgrows.armed) id
    exact hgrows.registered.symm.trans hr

/-- Who is refused is not deafened: the second `disconnect` of a stream goes through. -/
theorem not_deafens_of_refused {e : StreamHalt} (hrefused : s.step l = .error e) :
    ¬ Deafens s l := by
  intro hdeafens
  cases l with
  | finish events =>
    obtain ⟨hmem, herr, -, hdisconnecting, -⟩ := hdeafens
    have hdone : (s.advance (.finish events) none).disconnect =
        .ok (s.advance (.finish events) none) := if_pos hdisconnecting
    simp only [step, handlerStep, if_pos hmem, if_pos herr, hdone] at hrefused
    cases hrefused
  | _ => exact hdeafens

end StreamSystem

/-! ## UDP Sockets -/

namespace UdpSystem

/-- A registered socket is armed in epoll, or a run of it is in progress, queued or reported. -/
def NotDeaf (s : UdpSystem) : Prop :=
  s.registered = true → s.armed ≠ none ∨ s.report ≠ none ∨ s.eventQueue ≠ [] ∨ s.handlers ≠ []

/-- `client->disconnected()` returns to the last run of a socket, and the client has not called
`disconnect`. -/
def Deafens (s : UdpSystem) : UdpStep → Prop
  | .disconnected => .disconnected ∈ s.handlers ∧ s.registered = true ∧ s.armed = none ∧
      s.report = none ∧ s.eventQueue = [] ∧ s.handlers.erase .disconnected = []
  | _ => False

variable {s s' : UdpSystem} {l : UdpStep}

theorem eq_disconnected_of_deafens (h : Deafens s l) : l = .disconnected := by
  cases l with
  | disconnected => rfl
  | _ => cases h

theorem notDeaf_disconnected (hmem : .disconnected ∈ s.handlers) :
    NotDeaf (s.advance .disconnected none) ↔ ¬ Deafens s .disconnected := by
  constructor
  · rintro h ⟨-, hregistered, hunarmed, hreport, hqueue, hhandlers⟩
    rcases h hregistered with harmed | hr | hq | hx
    · exact harmed hunarmed
    · exact hr hreport
    · exact hq hqueue
    · exact hx hhandlers
  · intro hdeafens hregistered
    -- were the socket deaf, all that `Deafens` asks for would hold
    by_contra hdeaf
    simp only [not_or, not_not] at hdeaf
    obtain ⟨hunarmed, hreport, hqueue, hhandlers⟩ := hdeaf
    exact hdeafens ⟨hmem, hregistered, hunarmed, hreport, hqueue, hhandlers⟩

/-- **Step**: a step leaves no socket deaf if and only if it does not deafen it. -/
theorem notDeaf_step (h : NotDeaf s) (hstep : s.step l = .ok s') :
    NotDeaf s' ↔ ¬ Deafens s l := by
  cases moves_of_step hstep with
  | disconnected hmem => exact notDeaf_disconnected hmem
  | add => exact iff_of_true (fun _ => Or.inl (Option.some_ne_none _)) id
  | remove => exact iff_of_true (fun hregistered => (by cases hregistered)) id
  | early => exact iff_of_true h id
  | report => exact iff_of_true (fun _ => Or.inr (Or.inl (Option.some_ne_none _))) id
  | newEvent =>
    refine iff_of_true (fun hregistered => Or.inr (Or.inr (Or.inl ?_))) id
    have hregistered' : s.registered = true := hregistered
    change (if s.registered = true then _ else _) ≠ []
    rw [if_pos hregistered']
    exact List.append_ne_nil_of_right_ne_nil _ (List.cons_ne_nil _ _)
  | pop => exact iff_of_true (fun _ => Or.inr (Or.inr (Or.inr (List.cons_ne_nil _ _)))) id
  | check =>
    refine iff_of_true (fun hregistered => Or.inr (Or.inr (Or.inr ?_))) id
    have hregistered' : s.registered = true := hregistered
    rw [if_pos hregistered']
    exact List.cons_ne_nil _ _
  | proceed _ hl =>
    exact iff_of_true (fun _ => Or.inr (Or.inr (Or.inr (List.cons_ne_nil _ _))))
      fun hdeafens => hl (eq_disconnected_of_deafens hdeafens)
  | rearm =>
    refine iff_of_true (fun hregistered => Or.inl ?_) id
    have hregistered' : s.registered = true := hregistered
    change (if s.registered = true then _ else _) ≠ none
    rw [if_pos hregistered']
    exact Option.some_ne_none _

theorem not_deafens_of_refused {e : StreamHalt} (hrefused : s.step l = .error e) :
    ¬ Deafens s l := by
  intro hdeafens
  cases eq_disconnected_of_deafens hdeafens
  simp only [step, handlerStep, if_pos hdeafens.1] at hrefused
  cases hrefused

end UdpSystem

/-! ## Main Results -/

/-- **No deaf socket**: in every state that a run of a stream, or of a UDP socket, reaches it is not
deaf, if and only if no step of the run deafens it. -/
theorem notDeaf_iff_not_deafens (kind : Kind) (ls : List StreamStep) (us : List UdpStep) :
    ((∀ ms t, ms <+: ls → runFrom StreamSystem.step (.init kind) ms = .ok t → t.NotDeaf) ↔
      AllSteps StreamSystem.step (fun s l => ¬ s.Deafens l) (.init kind) ls) ∧
    ((∀ ms t, ms <+: us → runFrom UdpSystem.step .init ms = .ok t → t.NotDeaf) ↔
      AllSteps UdpSystem.step (fun s l => ¬ s.Deafens l) .init us) := by
  constructor
  · exact forall_prefix_iff_allSteps StreamSystem.AddedIfRegistered.step
      StreamSystem.notDeaf_step StreamSystem.not_deafens_of_refused
      (StreamSystem.addedIfRegistered_init kind) fun hregistered => (by cases hregistered)
  · exact forall_prefix_iff_allSteps (J := fun _ => True) (fun _ _ => trivial)
      (fun _ => UdpSystem.notDeaf_step) UdpSystem.not_deafens_of_refused trivial
      fun hregistered => (by cases hregistered)

/-- A UDP socket has an error, and its client does nothing in `disconnected`. -/
theorem not_notDeaf_udp_error :
    ¬ ((∀ kind ls s, runFrom StreamSystem.step (.init kind) ls = .ok s → s.NotDeaf) ∧
      ∀ ls s, runFrom UdpSystem.step .init ls = .ok s → s.NotDeaf) := by
  rintro ⟨-, h⟩
  obtain ⟨s, hrun, hregistered, harmed, hreport, hqueue, hhandlers⟩ : ∃ s,
      runFrom UdpSystem.step .init [.add, .report ⟨false, false, true⟩, .newEvent, .pop,
        .check ⟨false, false, true⟩, .write ⟨false, false, true⟩, .read ⟨false, false, true⟩,
        .finish ⟨false, false, true⟩, .disconnected] = .ok s ∧
      s.registered = true ∧ s.armed = none ∧ s.report = none ∧ s.eventQueue = [] ∧
      s.handlers = [] := by
    decide +kernel
  rcases h _ s hrun hregistered with harmed' | hreport' | hqueue' | hhandlers'
  · exact harmed' harmed
  · exact hreport' hreport
  · exact hqueue' hqueue
  · exact hhandlers' hhandlers

end Epoller
