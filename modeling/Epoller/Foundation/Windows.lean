import Mathlib

/-!
# Rates over Time Windows

A log holds amounts with the times at which they passed. A limit on the rate that
allows a burst bounds what passes in any window of time. `unit` scales amounts to
the product of a rate and a time.

## Contents

- `amountFrom`, `amountIn`: what passes from a time on, and in a window
- `Within`: the limit holds in every window
- `Covered`: what passes from any time on, measured at one moment
- `Covered.shift`, `Covered.append`, `Within.append`: how both go on
-/

namespace Epoller.Foundation

/-! ## Logs -/

/-- What passes at time `x` or later. -/
def amountFrom (log : List (ℤ × ℕ)) (x : ℤ) : ℕ :=
  ((log.filter fun e => x ≤ e.1).map Prod.snd).sum

/-- What passes from time `x` to time `y`. -/
def amountIn (log : List (ℤ × ℕ)) (x y : ℤ) : ℕ :=
  ((log.filter fun e => x ≤ e.1 ∧ e.1 ≤ y).map Prod.snd).sum

variable {log : List (ℤ × ℕ)} {x y now now' a : ℤ} {n : ℕ}

theorem amountFrom_append (log : List (ℤ × ℕ)) (a x : ℤ) (n : ℕ) :
    amountFrom (log ++ [(a, n)]) x = amountFrom log x + if x ≤ a then n else 0 := by
  by_cases hx : x ≤ a <;> simp [amountFrom, List.filter_append, hx]

theorem amountIn_append (log : List (ℤ × ℕ)) (a x y : ℤ) (n : ℕ) :
    amountIn (log ++ [(a, n)]) x y = amountIn log x y + if x ≤ a ∧ a ≤ y then n else 0 := by
  by_cases hxy : x ≤ a ∧ a ≤ y
  · simp [amountIn, List.filter_append, hxy]
  · simp only [amountIn, List.filter_append, if_neg hxy, Nat.add_zero]
    simp [hxy]

/-- In a window that ends last everything counts that passes from its start on. -/
theorem amountIn_eq_amountFrom (hpast : ∀ e ∈ log, e.1 ≤ y) :
    amountIn log x y = amountFrom log x := by
  have hfilter : (log.filter fun e => x ≤ e.1 ∧ e.1 ≤ y) = log.filter fun e => x ≤ e.1 :=
    List.filter_congr fun e he => by simp [hpast e he]
  rw [amountIn, amountFrom, hfilter]

/-! ## Limits -/

/-- In every window passes at most what `rate` allows and a burst. -/
def Within (rate unit burst : ℤ) (log : List (ℤ × ℕ)) : Prop :=
  ∀ x y, x ≤ y → unit * amountIn log x y ≤ rate * (y - x) + burst

/-- What passes from any time on is, at the moment `now`, at most what `rate` allows and a slack. -/
def Covered (rate unit now slack : ℤ) (log : List (ℤ × ℕ)) : Prop :=
  ∀ x, amountFrom log x ≠ 0 → unit * amountFrom log x ≤ rate * (now - x) + slack

variable {rate unit burst slack slack' : ℤ}

theorem within_nil (hrate : 0 ≤ rate) (hburst : 0 ≤ burst) : Within rate unit burst [] := by
  intro x y hxy
  have hwindow : 0 ≤ rate * (y - x) := mul_nonneg hrate (by omega)
  simp only [amountIn, List.filter_nil, List.map_nil, List.sum_nil, Nat.cast_zero, mul_zero]
  omega

theorem covered_nil : Covered rate unit now slack [] :=
  fun _ hne => absurd rfl hne

/-- The same log at another moment -/
theorem Covered.shift (h : Covered rate unit now slack log)
    (hslack : rate * now + slack ≤ rate * now' + slack') : Covered rate unit now' slack' log := by
  intro x hne
  have hcovered := h x hne
  rw [mul_sub] at hcovered ⊢
  omega

/-- An amount that passes when the slack is not exceeded yet adds to the slack. -/
theorem Covered.append (h : Covered rate unit now slack log) (hrate : 0 ≤ rate) (hunit : 0 ≤ unit)
    (hlate : n ≠ 0 → rate * (a - now) ≤ slack) :
    Covered rate unit now (slack + unit * n) (log ++ [(a, n)]) := by
  intro x hne
  have hadded : 0 ≤ unit * (n : ℤ) := mul_nonneg hunit (Int.natCast_nonneg n)
  rw [amountFrom_append] at hne ⊢
  -- only an amount that is not zero and not before `x` is counted
  by_cases hnew : x ≤ a ∧ n ≠ 0
  · rw [if_pos hnew.1, Nat.cast_add, mul_add]
    by_cases hzero : amountFrom log x = 0
    · -- nothing else counts, and `x` is not later than `a`
      have hearlier : rate * (x - now) ≤ rate * (a - now) :=
        mul_le_mul_of_nonneg_left (by omega) hrate
      have hbound := hlate hnew.2
      rw [hzero, Nat.cast_zero, mul_zero]
      rw [mul_sub] at hearlier hbound ⊢
      rw [mul_sub] at hearlier
      omega
    · have hcovered := h x hzero
      omega
  · have hsame : (if x ≤ a then n else 0) = 0 := by
      split
      · by_contra hn
        exact hnew ⟨‹_›, hn⟩
      · rfl
    rw [hsame, Nat.add_zero] at hne ⊢
    have hcovered := h x hne
    omega

/-- An amount that passes last keeps the limit if what is covered leaves room for it. -/
theorem Within.append (h : Within rate unit burst log) (hcovered : Covered rate unit now slack log)
    (hrate : 0 ≤ rate) (hpast : ∀ e ∈ log, e.1 ≤ a) (hburst : unit * n ≤ burst)
    (hroom : slack + unit * n ≤ rate * (a - now) + burst) :
    Within rate unit burst (log ++ [(a, n)]) := by
  intro x y hxy
  rw [amountIn_append]
  by_cases hwindow : x ≤ a ∧ a ≤ y
  -- the window ends behind everything, so it counts what passes from `x` on
  · have hwide : rate * (a - x) ≤ rate * (y - x) := mul_le_mul_of_nonneg_left (by omega) hrate
    rw [if_pos hwindow, amountIn_eq_amountFrom fun e he => (hpast e he).trans hwindow.2,
      Nat.cast_add, mul_add]
    by_cases hzero : amountFrom log x = 0
    · have hpos : 0 ≤ rate * (a - x) := mul_nonneg hrate (by omega)
      rw [hzero, Nat.cast_zero, mul_zero]
      omega
    · have hbefore := hcovered x hzero
      rw [mul_sub] at hbefore hroom hwide
      rw [mul_sub] at hwide ⊢
      omega
  · rw [if_neg hwindow, Nat.add_zero]
    exact h x y hxy

end Epoller.Foundation
