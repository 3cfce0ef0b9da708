import Mathlib.Data.Nat.Digits.Lemmas

/-!
# Numerals

The digits of a number in a base, the most significant one first, without leading
zeros: `Nat.digits` has them the other way round, and none for zero.

## Contents

- `numeral`, `numeralValue`: write and read a number
- `numeralValue_numeral`: what was written is read back
- `numeral_lt`, `numeral_length_le`, `numeral_head_ne_zero`: its digits, and how many there are
-/

namespace Epoller.Foundation

/-- The digits of `n` in base `b`, the most significant one first -/
def numeral (b n : ℕ) : List ℕ := if n = 0 then [0] else (b.digits n).reverse

/-- Read digits on from the value `v` of those before them. -/
def numeralValue (b v : ℕ) (ds : List ℕ) : ℕ := ds.foldl (fun v d => v * b + d) v

variable {b n k d v : ℕ} {ds : List ℕ}

@[simp] theorem numeralValue_nil (b v : ℕ) : numeralValue b v [] = v := rfl

@[simp] theorem numeralValue_cons (b v d : ℕ) (ds : List ℕ) :
    numeralValue b v (d :: ds) = numeralValue b (v * b + d) ds := rfl

/-- Digits do not make the value smaller. -/
theorem le_numeralValue (hb : 0 < b) (v : ℕ) (ds : List ℕ) : v ≤ numeralValue b v ds := by
  induction ds generalizing v with
  | nil => exact le_refl v
  | cons d ds ih =>
    calc v ≤ v * b := Nat.le_mul_of_pos_right v hb
      _ ≤ v * b + d := Nat.le_add_right ..
      _ ≤ numeralValue b v (d :: ds) := ih (v * b + d)

/-- **Round trip** -/
theorem numeralValue_numeral (b n : ℕ) : numeralValue b 0 (numeral b n) = n := by
  unfold numeral
  split
  · rename_i hzero
    simp [hzero]
  · have hread : numeralValue b 0 (b.digits n).reverse = Nat.ofDigits b (b.digits n) := by
      rw [numeralValue, List.foldl_reverse, Nat.ofDigits_eq_foldr]
      refine congrArg (fun f => List.foldr f 0 (b.digits n)) (funext fun d => funext fun v => ?_)
      rw [Nat.cast_id, mul_comm, add_comm]
    rw [hread, Nat.ofDigits_digits]

theorem numeral_ne_nil (b n : ℕ) : numeral b n ≠ [] := by
  unfold numeral
  split
  · exact List.cons_ne_nil _ _
  · rename_i hn
    simpa using Nat.digits_ne_nil_iff_ne_zero.mpr hn

theorem numeral_lt (hb : 1 < b) (hd : d ∈ numeral b n) : d < b := by
  unfold numeral at hd
  split at hd
  · rw [List.mem_singleton.mp hd]
    omega
  · exact Nat.digits_lt_base hb (List.mem_reverse.mp hd)

/-- A number below `b ^ k` has at most `k` digits, but one if it is zero. -/
theorem numeral_length_le (hb : 1 < b) (hk : 0 < k) (hn : n < b ^ k) :
    (numeral b n).length ≤ k := by
  unfold numeral
  split
  · exact hk
  · rw [List.length_reverse]
    exact (Nat.digits_length_le_iff hb n).mpr hn

/-- A number that is not zero has no leading zero. -/
theorem numeral_head_ne_zero (hn : n ≠ 0) : (numeral b n).head? ≠ some 0 := by
  rw [numeral, if_neg hn, List.head?_reverse]
  intro hlast
  have hne : b.digits n ≠ [] := Nat.digits_ne_nil_iff_ne_zero.mpr hn
  rw [List.getLast?_eq_some_getLast hne] at hlast
  exact Nat.getLast_digit_ne_zero b hn (Option.some.inj hlast)

end Epoller.Foundation
