import Mathlib

/-!
# Checked Reads at a Cursor

A decoder walks a byte string with an index. An index at or beyond the size is
an error that names it, so "reads nothing beyond the end" is the statement that
the decoder does not fail.

## Contents

- `readAt`, `readVector`: one element, `n` consecutive elements
- `StandsAt`: a word stands at an index, with its composition rules
- `readAt_eq_ok_iff`, `readVector_eq_ok_iff`: reads in terms of words
-/

namespace Epoller.Foundation

universe u v w

variable {α : Type u} {β : Type v} {ε : Type w}

/-! ## Results of Fallible Code -/

/-- A sequenced computation succeeds when its two parts do. -/
theorem bind_eq_ok_iff {γ : Type v} {x : Except ε γ} {f : γ → Except ε β} {b : β} :
    (x >>= f) = .ok b ↔ ∃ a, x = .ok a ∧ f a = .ok b := by
  cases x <;> simp [bind, Except.bind]

theorem ok_bind {γ : Type v} (a : γ) (f : γ → Except ε β) :
    ((Except.ok a : Except ε γ) >>= f) = f a := rfl

/-- A result is a value or an error. -/
theorem exists_ok_iff_forall_ne_error {x : Except ε α} :
    (∃ a, x = .ok a) ↔ ∀ e, x ≠ .error e := by
  cases x <;> simp

/-- A computation on given inputs, with what its result is checked for. -/
theorem exists_ok_of_check {x : Except ε α} {p : α → Prop} [DecidablePred p]
    (h : (match x with
      | .ok a => decide (p a)
      | .error _ => false) = true) : ∃ a, x = .ok a ∧ p a := by
  cases x with
  | ok a => exact ⟨a, rfl, of_decide_eq_true h⟩
  | error e => cases h

instance decidableExistsOk {p : α → Prop} [DecidablePred p] (x : Except ε α) :
    Decidable (∃ a, x = .ok a ∧ p a) :=
  match x with
  | .ok a => decidable_of_iff (p a) ⟨fun h => ⟨a, rfl, h⟩, fun ⟨_, heq, h⟩ => by cases heq; exact h⟩
  | .error _ => .isFalse fun ⟨_, heq, _⟩ => by cases heq

/-! ## Reads -/

/-- A read of index `index` of a string of size `size ≤ index`. -/
structure OutOfBounds where
  index : ℕ
  size : ℕ
deriving DecidableEq, Repr

/-- The element at index `i`. -/
def readAt (data : List α) (i : ℕ) : Except OutOfBounds α :=
  match data[i]? with
  | some a => .ok a
  | none => .error ⟨i, data.length⟩

/-- The `n` elements from index `i` on, read in ascending order. -/
def readVector (data : List α) (i : ℕ) : (n : ℕ) → Except OutOfBounds (Vector α n)
  | 0 => .ok #v[]
  | n + 1 => do
    let v ← readVector data i n
    let a ← readAt data (i + n)
    .ok (v.push a)

theorem readAt_eq_ok_iff {data : List α} {i : ℕ} {a : α} :
    readAt data i = .ok a ↔ data[i]? = some a := by
  unfold readAt
  cases data[i]? <;> simp

/-! ## Words at an Index -/

/-- The word `word` stands at index `i` of `data`. -/
def StandsAt (data : List α) (i : ℕ) (word : List α) : Prop := word <+: data.drop i

instance [DecidableEq α] (data : List α) (i : ℕ) (word : List α) :
    Decidable (StandsAt data i word) := inferInstanceAs (Decidable (_ <+: _))

@[simp] theorem standsAt_nil (data : List α) (i : ℕ) : StandsAt data i [] := List.nil_prefix

theorem standsAt_cons {data : List α} {i : ℕ} {a : α} {word : List α} :
    StandsAt data i (a :: word) ↔ data[i]? = some a ∧ StandsAt data (i + 1) word := by
  unfold StandsAt
  cases hget : data[i]? with
  | none =>
    have hle := List.getElem?_eq_none_iff.mp hget
    simp [List.drop_eq_nil_of_le hle]
  | some b =>
    obtain ⟨hlt, rfl⟩ := List.getElem?_eq_some_iff.mp hget
    rw [List.drop_eq_getElem_cons hlt, List.cons_prefix_cons, Option.some.injEq, eq_comm]

theorem standsAt_append {data : List α} {i : ℕ} {word word' : List α} :
    StandsAt data i (word ++ word') ↔
      StandsAt data i word ∧ StandsAt data (i + word.length) word' := by
  induction word generalizing i with
  | nil => simp
  | cons a word ih =>
    rw [List.cons_append, standsAt_cons, standsAt_cons, ih, and_assoc, List.length_cons,
      show i + 1 + word.length = i + (word.length + 1) by omega]

/-- In `pre ++ word ++ post` the word stands behind `pre`. -/
theorem standsAt_of_eq {data pre word : List α} (post : List α) (h : data = pre ++ word ++ post) :
    StandsAt data pre.length word := by
  subst h
  simp [StandsAt, List.append_assoc]

/-- What stands behind the word does not matter. -/
theorem StandsAt.take {data : List α} {i : ℕ} {word : List α} (h : StandsAt data i word) :
    StandsAt (data.take (i + word.length)) i word := by
  rw [StandsAt, List.drop_take, Nat.add_sub_cancel_left]
  exact List.prefix_take_iff.mpr ⟨h, le_refl _⟩

/-- A range read returns the `n` elements that stand at the cursor. -/
theorem readVector_eq_ok_iff {data : List α} {i n : ℕ} {v : Vector α n} :
    readVector data i n = .ok v ↔ StandsAt data i v.toList := by
  induction n with
  | zero =>
    have hv : v = #v[] := Vector.eq_empty
    simp [readVector, hv]
  | succ n ih =>
    rw [← Vector.push_pop_back v]
    simp only [readVector, bind_eq_ok_iff, ih, readAt_eq_ok_iff, Except.ok.injEq,
      Vector.toList_push, standsAt_append, Vector.length_toList, standsAt_cons, standsAt_nil,
      and_true]
    constructor
    · rintro ⟨w, hw, a, ha, hpush⟩
      obtain ⟨rfl, rfl⟩ := Vector.push_eq_push.mp hpush
      exact ⟨hw, ha⟩
    · rintro ⟨hw, ha⟩
      exact ⟨_, hw, _, ha, rfl⟩

theorem StandsAt.readAt_eq {data : List α} {i : ℕ} {a : α} {word : List α}
    (h : StandsAt data i (a :: word)) : readAt data i = .ok a :=
  readAt_eq_ok_iff.mpr (standsAt_cons.mp h).1

end Epoller.Foundation
