import Mathlib

/-!
# Runs of Labelled Machines

A machine is a step function `σ → ι → Except ε σ`: a label `ι` resolves every
choice of the environment (which thread moves, what the clock reads, what a
system call returns), and an `error` says why the machine refuses the label.

## Contents

- `runFrom`: take a list of labels one after the other
- `AllSteps`: a condition on the state and the label of every step of a run
- `AllSteps.invariant`: what each step preserves holds after every run
- `AllSteps.imp_of_invariant`: one condition on all steps from another
- `runFrom_latch`: what some step of a run has brought about, and no step undoes
- `exists_runFrom_ok_iff`: which runs go through
- `allSteps_of_forall_prefix`, `forall_prefix_of_allSteps`, `forall_prefix_iff_allSteps`: which
  runs keep a property in every state
- `AbsRun` and `runFrom_simulates`: forward simulation by an abstract step relation
-/

namespace Epoller.Foundation

universe u v w x

variable {σ : Type u} {ι : Type v} {ε : Type w} {α : Type x}

/-! ## Runs -/

/-- Take the steps labelled `ls` from `s`; the first refused label ends the run. -/
def runFrom (step : σ → ι → Except ε σ) : σ → List ι → Except ε σ
  | s, [] => .ok s
  | s, l :: ls =>
    match step s l with
    | .ok s' => runFrom step s' ls
    | .error e => .error e

variable {step : σ → ι → Except ε σ}

@[simp] theorem runFrom_nil (s : σ) : runFrom step s [] = .ok s := rfl

theorem runFrom_cons_ok {s s' : σ} {l : ι} (ls : List ι) (h : step s l = .ok s') :
    runFrom step s (l :: ls) = runFrom step s' ls := by
  simp only [runFrom, h]

theorem runFrom_cons_error {s : σ} {l : ι} {e : ε} (ls : List ι) (h : step s l = .error e) :
    runFrom step s (l :: ls) = .error e := by
  simp only [runFrom, h]

/-- A run of `l :: ls` is a step labelled `l` followed by a run of `ls`. -/
theorem runFrom_cons_eq_ok {s t : σ} {l : ι} {ls : List ι} :
    runFrom step s (l :: ls) = .ok t ↔ ∃ s', step s l = .ok s' ∧ runFrom step s' ls = .ok t := by
  cases hstep : step s l with
  | ok s' => simp [runFrom_cons_ok ls hstep]
  | error e => simp [runFrom_cons_error ls hstep]

/-- A run goes on where its first part has ended. -/
theorem runFrom_append_ok {s t : σ} {ls : List ι} (h : runFrom step s ls = .ok t) (ms : List ι) :
    runFrom step s (ls ++ ms) = runFrom step t ms := by
  induction ls generalizing s with
  | nil =>
    cases h
    rfl
  | cons l ls ih =>
    obtain ⟨s', hs', hrun⟩ := runFrom_cons_eq_ok.mp h
    rw [List.cons_append, runFrom_cons_ok (ls ++ ms) hs', ih hrun]

/-! ## Conditions on the Steps of a Run -/

/-- Every step of the run of `ls` from `s` meets `C`; labels after a refused one are not steps. -/
def AllSteps (step : σ → ι → Except ε σ) (C : σ → ι → Prop) : σ → List ι → Prop
  | _, [] => True
  | s, l :: ls => C s l ∧
    match step s l with
    | .ok s' => AllSteps step C s' ls
    | .error _ => True

instance AllSteps.decidable (C : σ → ι → Prop) [∀ s l, Decidable (C s l)] :
    ∀ (s : σ) (ls : List ι), Decidable (AllSteps step C s ls)
  | _, [] => instDecidableTrue
  | s, l :: ls =>
    match hstep : step s l with
    | .ok s' =>
      have := AllSteps.decidable C s' ls
      decidable_of_iff (C s l ∧ AllSteps step C s' ls) (by simp only [AllSteps, hstep])
    | .error _ => decidable_of_iff (C s l) (by simp only [AllSteps, hstep, and_true])

variable {C D : σ → ι → Prop}

theorem AllSteps.head {s : σ} {l : ι} {ls : List ι} (h : AllSteps step C s (l :: ls)) : C s l :=
  h.1

theorem AllSteps.tail {s s' : σ} {l : ι} {ls : List ι} (h : AllSteps step C s (l :: ls))
    (hstep : step s l = .ok s') : AllSteps step C s' ls := by
  have h2 := h.2
  rwa [hstep] at h2

/-- What a condition on all steps says behind a run. -/
theorem AllSteps.append_right {s t : σ} {ls ms : List ι} (h : AllSteps step C s (ls ++ ms))
    (hrun : runFrom step s ls = .ok t) : AllSteps step C t ms := by
  induction ls generalizing s with
  | nil =>
    cases hrun
    exact h
  | cons l ls ih =>
    obtain ⟨s', hs', hrun'⟩ := runFrom_cons_eq_ok.mp hrun
    exact ih (AllSteps.tail h hs') hrun'

/-- A condition on the labels alone holds of a run when it holds of each label. -/
theorem AllSteps.of_forall_mem {P : ι → Prop} {s : σ} {ls : List ι} (h : ∀ l ∈ ls, P l) :
    AllSteps step (fun _ l => P l) s ls := by
  induction ls generalizing s with
  | nil => trivial
  | cons l ls ih =>
    refine ⟨h l (List.mem_cons_self ..), ?_⟩
    split
    · exact ih fun l' hl' => h l' (List.mem_cons_of_mem _ hl')
    · trivial

theorem AllSteps.and {s : σ} {ls : List ι} (hC : AllSteps step C s ls)
    (hD : AllSteps step D s ls) : AllSteps step (fun s l => C s l ∧ D s l) s ls := by
  induction ls generalizing s with
  | nil => trivial
  | cons l ls ih =>
    refine ⟨⟨hC.1, hD.1⟩, ?_⟩
    split
    · rename_i s' hstep
      exact ih (hC.tail hstep) (hD.tail hstep)
    · trivial

/-- **Invariant rule**: what every step that meets `C` preserves holds after every run all of
whose steps meet `C`. -/
theorem AllSteps.invariant (Inv : σ → Prop)
    (hstep : ∀ {s l s'}, Inv s → C s l → step s l = .ok s' → Inv s')
    {s t : σ} {ls : List ι} (h0 : Inv s) (hC : AllSteps step C s ls)
    (hrun : runFrom step s ls = .ok t) : Inv t := by
  induction ls generalizing s with
  | nil =>
    cases hrun
    exact h0
  | cons l ls ih =>
    obtain ⟨s', hs', hrun'⟩ := runFrom_cons_eq_ok.mp hrun
    exact ih (hstep h0 hC.head hs') (hC.tail hs') hrun'

/-- **Consequence rule**: in a run all of whose steps meet `C`, which keep an invariant, every step
meets what `C` gives under the invariant. -/
theorem AllSteps.imp_of_invariant (Inv : σ → Prop)
    (himp : ∀ {s l}, Inv s → C s l → D s l)
    (hstep : ∀ {s l s'}, Inv s → C s l → step s l = .ok s' → Inv s')
    {s : σ} {ls : List ι} (h0 : Inv s) (hC : AllSteps step C s ls) : AllSteps step D s ls := by
  induction ls generalizing s with
  | nil => trivial
  | cons l ls ih =>
    refine ⟨himp h0 hC.head, ?_⟩
    split
    · rename_i s' hs'
      exact ih (hstep h0 hC.head hs') (hC.tail hs')
    · trivial

/-- Invariant rule for runs without a condition on the steps. -/
theorem runFrom_invariant (Inv : σ → Prop)
    (hstep : ∀ {s l s'}, Inv s → step s l = .ok s' → Inv s')
    {s t : σ} {ls : List ι} (h0 : Inv s) (hrun : runFrom step s ls = .ok t) : Inv t :=
  AllSteps.invariant (C := fun _ _ => True) Inv (fun h _ => hstep h) h0
    (AllSteps.of_forall_mem fun _ _ => trivial) hrun

/-- **Latch rule**: where every step on the way to a state with `Q` keeps `P`, and brings it about
exactly if it meets `C`, `P` says whether some step has met `C`. -/
theorem runFrom_latch {P Q : σ → Prop}
    (hQ : ∀ {s l s'}, step s l = .ok s' → Q s' → Q s)
    (hstep : ∀ {s l s'}, step s l = .ok s' → Q s' → (P s' ↔ P s ∨ C s l))
    {s t : σ} {ls : List ι} (hrun : runFrom step s ls = .ok t) (ht : Q t) :
    Q s ∧ (P t ↔ P s ∨ ¬ AllSteps step (fun s l => ¬ C s l) s ls) := by
  induction ls generalizing s with
  | nil =>
    cases hrun
    exact ⟨ht, by simp [AllSteps]⟩
  | cons l ls ih =>
    obtain ⟨s', hs', hrun'⟩ := runFrom_cons_eq_ok.mp hrun
    obtain ⟨hQ', hrest⟩ := ih hrun'
    refine ⟨hQ hs' hQ', hrest.trans ?_⟩
    rw [hstep hs' hQ', AllSteps, hs', not_and_or, not_not, or_assoc]

/-- **Completion rule**: if, in a state with the invariant, the steps that go through are those
that meet `C`, the runs that go through are those all of whose steps meet `C`. -/
theorem exists_runFrom_ok_iff {Inv : σ → Prop}
    (hok : ∀ {s l}, Inv s → D s l → ((∃ s', step s l = .ok s') ↔ C s l))
    (hstep : ∀ {s l s'}, Inv s → D s l → step s l = .ok s' → Inv s')
    {s : σ} {ls : List ι} (h0 : Inv s) (hD : AllSteps step D s ls) :
    (∃ t, runFrom step s ls = .ok t) ↔ AllSteps step C s ls := by
  induction ls generalizing s with
  | nil => simp [AllSteps]
  | cons l ls ih =>
    have hC := hok h0 hD.head
    cases hs : step s l with
    | error e =>
      have hnot : ¬ C s l := fun hc => by simpa [hs] using hC.mpr hc
      simp [runFrom_cons_error ls hs, AllSteps, hnot]
    | ok s' =>
      have hc : C s l := hC.mp ⟨s', hs⟩
      simp only [runFrom_cons_ok ls hs, AllSteps, hs, hc, true_and]
      exact ih (hstep h0 hD.head hs) (hD.tail hs)

/-- If a step from a state with the property to one with the property meets `C`, all steps of a run
that keeps the property in every state meet `C`. -/
theorem allSteps_of_forall_prefix {J P : σ → Prop}
    (hJ : ∀ {s l s'}, J s → step s l = .ok s' → J s')
    (hC : ∀ {s l s'}, J s → P s → step s l = .ok s' → P s' → C s l)
    (hrefused : ∀ {s l e}, step s l = .error e → C s l)
    {s : σ} {ls : List ι} (hs : J s)
    (hall : ∀ ms t, ms <+: ls → runFrom step s ms = .ok t → P t) : AllSteps step C s ls := by
  induction ls generalizing s with
  | nil => trivial
  | cons l ls ih =>
    cases hstep : step s l with
    | error e => exact ⟨hrefused hstep, by simp only [hstep]⟩
    | ok s' =>
      have h0 : P s := hall [] s List.nil_prefix rfl
      have hs' : P s' := hall [l] s' (List.cons_prefix_cons.mpr ⟨rfl, List.nil_prefix⟩)
        (runFrom_cons_ok [] hstep)
      refine ⟨hC hs h0 hstep hs', ?_⟩
      simp only [hstep]
      refine ih (hJ hs hstep) fun ms t hms hrun => ?_
      exact hall (l :: ms) t (List.cons_prefix_cons.mpr ⟨rfl, hms⟩)
        ((runFrom_cons_ok ms hstep).trans hrun)

/-- What every step that meets `C` preserves holds in every state of a run all of whose steps meet
`C`. -/
theorem forall_prefix_of_allSteps {Inv : σ → Prop}
    (hinv : ∀ {s l s'}, Inv s → C s l → step s l = .ok s' → Inv s')
    {s : σ} {ls : List ι} (h0 : Inv s) (hC : AllSteps step C s ls) :
    ∀ ms t, ms <+: ls → runFrom step s ms = .ok t → Inv t := by
  rintro ms t ⟨rest, rfl⟩ hrun
  induction ms generalizing s with
  | nil =>
    cases hrun
    exact h0
  | cons m ms ih =>
    obtain ⟨s', hs', hrun'⟩ := runFrom_cons_eq_ok.mp hrun
    exact ih (hinv h0 hC.head hs') (hC.tail hs') hrun'

/-- **Exactness rule**: if a step from a state with the property keeps it just when it meets `C`,
every state that a run reaches has the property if and only if all steps of the run meet `C`. -/
theorem forall_prefix_iff_allSteps {J Inv : σ → Prop}
    (hJ : ∀ {s l s'}, J s → step s l = .ok s' → J s')
    (hiff : ∀ {s l s'}, J s → Inv s → step s l = .ok s' → (Inv s' ↔ C s l))
    (hrefused : ∀ {s l e}, step s l = .error e → C s l)
    {s : σ} {ls : List ι} (hs : J s) (h0 : Inv s) :
    (∀ ms t, ms <+: ls → runFrom step s ms = .ok t → Inv t) ↔ AllSteps step C s ls := by
  constructor
  · exact allSteps_of_forall_prefix hJ (fun hj h hstep h' => (hiff hj h hstep).mp h') hrefused hs
  · intro hC ms t hms hrun
    have hstep' : ∀ {s l s'}, J s ∧ Inv s → C s l → step s l = .ok s' → J s' ∧ Inv s' :=
      fun h hc hstep => ⟨hJ h.1 hstep, (hiff h.1 h.2 hstep).mpr hc⟩
    exact (forall_prefix_of_allSteps hstep' ⟨hs, h0⟩ hC ms t hms hrun).2

/-! ## Simulation -/

/-- Runs of an abstract step relation. -/
inductive AbsRun (astep : α → ι → α → Prop) : α → List ι → α → Prop where
  | nil (a : α) : AbsRun astep a [] a
  | cons {a a' b : α} {l : ι} {ls : List ι} :
      astep a l a' → AbsRun astep a' ls b → AbsRun astep a (l :: ls) b

/-- **Simulation rule**: if every step from a state with the invariant is an abstract step between
the abstractions, every run is an abstract run between the abstractions. -/
theorem runFrom_simulates (Inv : σ → Prop) {astep : α → ι → α → Prop} (abs : σ → α)
    (hstep : ∀ {s l s'}, Inv s → step s l = .ok s' → Inv s' ∧ astep (abs s) l (abs s'))
    {s t : σ} {ls : List ι} (h0 : Inv s) (hrun : runFrom step s ls = .ok t) :
    AbsRun astep (abs s) ls (abs t) := by
  induction ls generalizing s with
  | nil =>
    cases hrun
    exact .nil _
  | cons l ls ih =>
    obtain ⟨s', hs', hrun'⟩ := runFrom_cons_eq_ok.mp hrun
    obtain ⟨hinv, ha⟩ := hstep h0 hs'
    exact .cons ha (ih hinv hrun')

end Epoller.Foundation
