import Epoller.Foundation.Runs

/-!
# What Some Steps Can Bring About

From a state some party of a machine can bring about a condition by steps of its own,
whatever the others have done before and without their help. The rules are those of
"leads to": do nothing, take one step, go on from there, keep an invariant, and come
nearer by a measure.

## Contents

- `LeadsTo`: steps of the party lead to a state with the condition
- `LeadsTo.bind`: one condition after the other
- `LeadsTo.keeping`: an invariant of the party's steps is kept on the way
- `LeadsTo.of_measure`: as long as the condition does not hold, a measure can be made smaller
-/

namespace Epoller.Foundation

universe u v w

variable {σ : Type u} {ι : Type v} {ε : Type w} {step : σ → ι → Except ε σ} {own : ι → Prop}
  {P Q : σ → Prop} {s s' : σ} {l : ι}

/-- Steps that meet `own` lead from `s` to a state with `Q`. -/
def LeadsTo (step : σ → ι → Except ε σ) (own : ι → Prop) (Q : σ → Prop) (s : σ) : Prop :=
  ∃ ms t, (∀ l ∈ ms, own l) ∧ runFrom step s ms = .ok t ∧ Q t

namespace LeadsTo

theorem here (h : Q s) : LeadsTo step own Q s := ⟨[], s, by simp, rfl, h⟩

theorem cons (hown : own l) (hstep : step s l = .ok s') (h : LeadsTo step own Q s') :
    LeadsTo step own Q s := by
  obtain ⟨ms, t, hms, hrun, ht⟩ := h
  refine ⟨l :: ms, t, List.forall_mem_cons.mpr ⟨hown, hms⟩, ?_, ht⟩
  rw [runFrom_cons_ok ms hstep, hrun]

theorem mono (h : LeadsTo step own P s) (himp : ∀ t, P t → Q t) : LeadsTo step own Q s := by
  obtain ⟨ms, t, hms, hrun, ht⟩ := h
  exact ⟨ms, t, hms, hrun, himp t ht⟩

theorem of_imp {own' : ι → Prop} (h : LeadsTo step own Q s) (himp : ∀ l, own l → own' l) :
    LeadsTo step own' Q s := by
  obtain ⟨ms, t, hms, hrun, ht⟩ := h
  exact ⟨ms, t, fun l hl => himp l (hms l hl), hrun, ht⟩

/-- **Transitivity** -/
theorem bind (h : LeadsTo step own P s) (hnext : ∀ t, P t → LeadsTo step own Q t) :
    LeadsTo step own Q s := by
  obtain ⟨ms, t, hms, hrun, ht⟩ := h
  obtain ⟨ns, t', hns, hrun', ht'⟩ := hnext t ht
  refine ⟨ms ++ ns, t', fun l hl => ?_, ?_, ht'⟩
  · exact (List.mem_append.mp hl).elim (hms l) (hns l)
  · rw [runFrom_append_ok hrun, hrun']

/-- **Invariants** are kept on the way. -/
theorem keeping (h : LeadsTo step own Q s) (Inv : σ → Prop)
    (hstep : ∀ {s l s'}, Inv s → own l → step s l = .ok s' → Inv s') (h0 : Inv s) :
    LeadsTo step own (fun t => Inv t ∧ Q t) s := by
  obtain ⟨ms, t, hms, hrun, ht⟩ := h
  have hall : AllSteps step (fun _ l => own l) s ms := AllSteps.of_forall_mem hms
  exact ⟨ms, t, hms, hrun, hall.invariant Inv hstep h0 hrun, ht⟩

/-- **Measures**: if the steps can make a measure smaller wherever the condition does not hold, they
can bring it about. -/
theorem of_measure (Inv : σ → Prop) (measure : σ → ℕ)
    (hprogress : ∀ s, Inv s → ¬ Q s →
      LeadsTo step own (fun t => Inv t ∧ measure t < measure s) s) (h0 : Inv s) :
    LeadsTo step own (fun t => Inv t ∧ Q t) s := by
  induction hm : measure s using Nat.strong_induction_on generalizing s with
  | h n ih =>
    by_cases hQ : Q s
    · exact here ⟨h0, hQ⟩
    · refine (hprogress s h0 hQ).bind fun t ht => ?_
      exact ih (measure t) (hm ▸ ht.2) ht.1 rfl

end LeadsTo

end Epoller.Foundation
