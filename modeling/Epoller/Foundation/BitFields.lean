import Mathlib.Data.Nat.Bitwise

/-!
# Fields of Bits

Several small numbers in one word, each in some bits next to each other. A field is
read by a mask and a shift, and written by two masks; both are described here by what
they do to each bit.

## Contents

- `bitField`: the number in a field
- `Puts`: one field of a word is replaced
- `Puts.bitField_same`, `Puts.bitField_other`: what is read behind it
- `eq_of_bitFields`: fields that cover a word determine it
-/

namespace Epoller.Foundation

variable {n m v w start len start' len' i : ℕ}

/-! ## Reading -/

/-- The number in the `len` bits from the bit `start` on -/
def bitField (n start len : ℕ) : ℕ := (n >>> start) % 2 ^ len

theorem testBit_bitField (n start len i : ℕ) :
    (bitField n start len).testBit i = (decide (i < len) && n.testBit (start + i)) := by
  rw [bitField, Nat.testBit_mod_two_pow, Nat.testBit_shiftRight]

theorem bitField_lt (n start len : ℕ) : bitField n start len < 2 ^ len :=
  Nat.mod_lt _ (Nat.two_pow_pos len)

/-- The bits of a mask -/
theorem testBit_mask (start len i : ℕ) :
    ((2 ^ len - 1) <<< start).testBit i = (decide (start ≤ i) && decide (i < start + len)) := by
  rw [Nat.testBit_shiftLeft, Nat.testBit_two_pow_sub_one]
  by_cases hstart : start ≤ i
  · simp only [hstart, decide_true, Bool.true_and, decide_eq_decide]
    omega
  · simp [hstart]

/-- **Reading** with a mask and a shift -/
theorem and_mask_shiftRight (n start len : ℕ) :
    (n &&& (2 ^ len - 1) <<< start) >>> start = bitField n start len := by
  apply Nat.eq_of_testBit_eq
  intro i
  rw [Nat.testBit_shiftRight, Nat.testBit_and, testBit_mask, testBit_bitField]
  simp [Bool.and_comm]

/-! ## Writing -/

/-- `m` is `n` with the bits of a field replaced by those of `v`. -/
def Puts (n start len v m : ℕ) : Prop :=
  ∀ i, m.testBit i = if start ≤ i ∧ i < start + len then v.testBit (i - start) else n.testBit i

/-- **Writing** with two masks, in a word of `w` bits -/
theorem puts_masks (hn : n < 2 ^ w) (hw : start + len ≤ w) (v : ℕ) :
    Puts n start len v
      ((n &&& (2 ^ w - ((2 ^ len - 1) <<< start + 1))) ||| (v &&& (2 ^ len - 1)) <<< start) := by
  have hmask : (2 ^ len - 1) <<< start < 2 ^ w := by
    refine Nat.lt_pow_two_of_testBit _ fun i hi => ?_
    rw [testBit_mask, decide_eq_false (by omega : ¬ i < start + len), Bool.and_false]
  intro i
  rw [Nat.testBit_or, Nat.testBit_and, Nat.testBit_two_pow_sub_succ hmask, testBit_mask,
    Nat.testBit_shiftLeft, Nat.testBit_and, Nat.testBit_two_pow_sub_one]
  by_cases hin : start ≤ i ∧ i < start + len
  · have hlow : i - start < len := by omega
    simp [hin, hlow]
  · rw [if_neg hin]
    have hout : (decide (start ≤ i) && decide (i < start + len)) = false := by simpa using hin
    rw [hout]
    by_cases hstart : start ≤ i
    · have hhigh : ¬ i - start < len := by omega
      by_cases hi : i < w
      · simp [hi, hhigh]
      · have hzero : n.testBit i = false :=
          Nat.testBit_lt_two_pow (hn.trans_le (Nat.pow_le_pow_right (by decide) (by omega)))
        simp [hzero, hhigh]
    · have hi : i < w := by omega
      simp [hi, hstart]

/-- What was written is read back, cut to the field. -/
theorem Puts.bitField_same (h : Puts n start len v m) : bitField m start len = v % 2 ^ len := by
  apply Nat.eq_of_testBit_eq
  intro i
  rw [testBit_bitField, Nat.testBit_mod_two_pow]
  by_cases hi : i < len
  · have hin : start ≤ start + i ∧ start + i < start + len := by omega
    rw [h, if_pos hin, Nat.add_sub_cancel_left]
  · simp [hi]

/-- **Frame**: the other fields are left as they are. -/
theorem Puts.bitField_other (h : Puts n start len v m)
    (hdisjoint : start' + len' ≤ start ∨ start + len ≤ start') :
    bitField m start' len' = bitField n start' len' := by
  apply Nat.eq_of_testBit_eq
  intro i
  rw [testBit_bitField, testBit_bitField]
  by_cases hi : i < len'
  · have hout : ¬ (start ≤ start' + i ∧ start' + i < start + len) := by omega
    rw [h, if_neg hout]
  · simp [hi]

/-- Two words whose fields agree are the same if the fields cover them. -/
theorem eq_of_bitFields (fields : List (ℕ × ℕ)) (hn : n < 2 ^ w) (hm : m < 2 ^ w)
    (hcover : ∀ i < w, ∃ f ∈ fields, f.1 ≤ i ∧ i < f.1 + f.2)
    (hfields : ∀ f ∈ fields, bitField n f.1 f.2 = bitField m f.1 f.2) : n = m := by
  apply Nat.eq_of_testBit_eq
  intro i
  by_cases hi : i < w
  · obtain ⟨f, hf, hlow, hhigh⟩ := hcover i hi
    have hbit := congrArg (fun x => x.testBit (i - f.1)) (hfields f hf)
    simp only [testBit_bitField] at hbit
    rw [Nat.add_sub_cancel' hlow, decide_eq_true (by omega : i - f.1 < f.2)] at hbit
    simpa using hbit
  · have hpow : 2 ^ w ≤ 2 ^ i := Nat.pow_le_pow_right (by decide) (by omega)
    rw [Nat.testBit_lt_two_pow (hn.trans_le hpow), Nat.testBit_lt_two_pow (hm.trans_le hpow)]

end Epoller.Foundation
