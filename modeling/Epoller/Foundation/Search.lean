import Mathlib

/-!
# Cutting and Searching Lists

Two ways to look through a list from the front. Cutting at a separator gives the
segments that a separator ends, and a remainder. A search that forgets compares
one element after the other with what is left of its pattern; at a mismatch it
starts over behind the element that did not match, so it is an automaton whose
state is what is left of the pattern.

## Contents

- `terminated`, `remainder`: the segments, and what stands behind the last separator
- `cut_induction`: induction along the segments
- `terminated_append`: cutting a list in two pieces
- `intercalate_cons_eq_append_flatMap`: joining lists
- `scan`, `after`: the search, and its state behind a list
- `scan_append`: searching a list in two pieces
-/

namespace Epoller.Foundation

universe u v

variable {α : Type u} {β : Type v}

/-! ## Cutting -/

section Cutting

variable [DecidableEq α] {sep : α} {xs ys : List α}

/-- The segments that a separator ends. -/
def terminated (sep : α) (xs : List α) : List (List α) := (xs.splitOn sep).dropLast

/-- What stands behind the last separator. -/
def remainder (sep : α) (xs : List α) : List α :=
  (xs.splitOn sep).getLast (List.splitOn_ne_nil sep xs)

theorem terminated_of_notMem (h : sep ∉ xs) : terminated sep xs = [] := by
  rw [terminated, List.splitOn_eq_singleton h, List.dropLast_singleton]

theorem remainder_of_notMem (h : sep ∉ xs) : remainder sep xs = xs := by
  simp only [remainder, List.splitOn_eq_singleton h, List.getLast_singleton]

/-- The first separator ends the first segment. -/
theorem terminated_append_cons (h : sep ∉ xs) :
    terminated sep (xs ++ sep :: ys) = xs :: terminated sep ys := by
  rw [terminated, List.splitOn_append_cons_self_of_not_mem h, terminated,
    List.dropLast_cons_of_ne_nil (List.splitOn_ne_nil sep ys)]

theorem remainder_append_cons (xs ys : List α) :
    remainder sep (xs ++ sep :: ys) = remainder sep ys := by
  simp only [remainder, List.splitOn_append_cons_self]
  exact List.getLast_append_of_ne_nil _ (List.splitOn_ne_nil sep ys)

/-- Induction along the segments. -/
@[elab_as_elim]
theorem cut_induction {motive : List α → Prop} (sep : α) (rest : ∀ xs, sep ∉ xs → motive xs)
    (segment : ∀ xs ys, sep ∉ xs → motive ys → motive (xs ++ sep :: ys)) (xs : List α) :
    motive xs := by
  induction hn : xs.length using Nat.strong_induction_on generalizing xs with
  | h n ih =>
    by_cases h : sep ∈ xs
    · obtain ⟨as, bs, rfl, has⟩ := List.eq_append_cons_of_mem h
      rw [List.length_append, List.length_cons] at hn
      exact segment as bs has (ih bs.length (by omega) bs rfl)
    · exact rest xs h

/-- **Cutting in two pieces**: the remainder of the first piece goes on in the second. -/
theorem terminated_append (xs ys : List α) :
    terminated sep (xs ++ ys) = terminated sep xs ++ terminated sep (remainder sep xs ++ ys) := by
  induction xs using cut_induction sep with
  | rest xs h => rw [terminated_of_notMem h, remainder_of_notMem h, List.nil_append]
  | segment xs zs h ih =>
    rw [List.append_assoc, List.cons_append, terminated_append_cons h, terminated_append_cons h,
      remainder_append_cons, ih, List.cons_append]

omit [DecidableEq α] in
/-- Joining lists puts a separator before each but the first. -/
theorem intercalate_cons_eq_append_flatMap (sep : α) (xs : List α) (xss : List (List α)) :
    [sep].intercalate (xs :: xss) = xs ++ xss.flatMap (sep :: ·) := by
  induction xss generalizing xs with
  | nil => rw [List.intercalate_singleton, List.flatMap_nil, List.append_nil]
  | cons ys xss ih =>
    rw [List.intercalate_cons_cons, ih ys, List.flatMap_cons, List.append_assoc,
      List.singleton_append, List.cons_append]

end Cutting

/-! ## Searching -/

section Searching

-- `accepts` says which elements a symbol of the pattern stands for
variable (accepts : β → α → Bool) (pattern : List β)

/-- What is left of the pattern behind one more element. -/
def advance : List β → α → List β
  | [], _ => pattern
  | c :: left, a => if accepts c a then left else pattern

/-- The search with `left` still to come: behind how many elements the first match ends. -/
def scan : List β → List α → Option ℕ
  | _, [] => none
  | left, a :: xs =>
    if advance accepts pattern left a = [] then some 1
    else (scan (advance accepts pattern left a) xs).map (· + 1)

/-- What is left of the pattern behind a list. -/
def after (left : List β) (xs : List α) : List β := xs.foldl (advance accepts pattern) left

variable {accepts pattern} {left : List β} {xs ys : List α} {a : α} {k : ℕ}

@[simp] theorem scan_nil : scan accepts pattern left ([] : List α) = none := by
  unfold scan
  rfl

theorem scan_cons (left : List β) (a : α) (xs : List α) :
    scan accepts pattern left (a :: xs) =
      if advance accepts pattern left a = [] then some 1
      else (scan accepts pattern (advance accepts pattern left a) xs).map (· + 1) := by
  rw [scan]

@[simp] theorem after_nil : after accepts pattern left ([] : List α) = left := rfl

@[simp] theorem after_cons : after accepts pattern left (a :: xs) =
    after accepts pattern (advance accepts pattern left a) xs := rfl

theorem after_append : after accepts pattern left (xs ++ ys) =
    after accepts pattern (after accepts pattern left xs) ys := List.foldl_append

/-- A match ends inside the list. -/
theorem scan_le (h : scan accepts pattern left xs = some k) : k ≤ xs.length := by
  induction xs generalizing left k with
  | nil => simp at h
  | cons a xs ih =>
    rw [scan_cons] at h
    split at h
    · cases h
      simp
    · obtain ⟨j, hj, rfl⟩ := Option.map_eq_some_iff.mp h
      have := ih hj
      rw [List.length_cons]
      omega

/-- A match is as long as what is left of the pattern. -/
theorem le_of_scan (hleft : left.length ≤ pattern.length)
    (h : scan accepts pattern left xs = some k) : left.length ≤ k := by
  induction xs generalizing left k with
  | nil => simp at h
  | cons a xs ih =>
    have hadvance : left.length ≤ (advance accepts pattern left a).length + 1 ∧
        (advance accepts pattern left a).length ≤ pattern.length := by
      cases left with
      | nil => exact ⟨Nat.zero_le _, le_refl _⟩
      | cons c left =>
        rw [List.length_cons] at hleft ⊢
        rw [advance]
        split <;> omega
    rw [scan_cons] at h
    split at h
    · rename_i hnil
      cases h
      rw [hnil] at hadvance
      exact hadvance.1
    · obtain ⟨j, hj, rfl⟩ := Option.map_eq_some_iff.mp h
      exact hadvance.1.trans (Nat.succ_le_succ (ih hadvance.2 hj))

/-- **Searching in two pieces**: a match in the first piece stands, and otherwise the search goes
on in the second. -/
theorem scan_append (left : List β) (xs ys : List α) :
    scan accepts pattern left (xs ++ ys) =
      (scan accepts pattern left xs).or
        ((scan accepts pattern (after accepts pattern left xs) ys).map (· + xs.length)) := by
  induction xs generalizing left with
  | nil => simp
  | cons a xs ih =>
    rw [List.cons_append, scan_cons, scan_cons, after_cons]
    split
    · rfl
    · rw [ih]
      cases scan accepts pattern (advance accepts pattern left a) xs with
      | some k => rfl
      | none =>
        simp only [Option.map_none, Option.none_or, Option.map_map, List.length_cons]
        congr 1

/-- A match in the first piece. -/
theorem scan_append_of_some (h : scan accepts pattern left xs = some k) (ys : List α) :
    scan accepts pattern left (xs ++ ys) = some k := by
  rw [scan_append, h, Option.some_or]

/-- No match in the first piece. -/
theorem scan_append_of_none (h : scan accepts pattern left xs = none) (ys : List α) :
    scan accepts pattern left (xs ++ ys) =
      (scan accepts pattern (after accepts pattern left xs) ys).map (· + xs.length) := by
  rw [scan_append, h, Option.none_or]

/-- A word that what is left of the pattern stands for is a match. -/
theorem scan_word (h : List.Forall₂ (fun c a => accepts c a = true) left xs) (hne : left ≠ [])
    (ys : List α) : scan accepts pattern left (xs ++ ys) = some xs.length := by
  induction h with
  | nil => exact absurd rfl hne
  | @cons c a left xs hca hrest ih =>
    have hadvance : advance accepts pattern (c :: left) a = left := by rw [advance, if_pos hca]
    rw [List.cons_append, scan_cons, hadvance]
    cases hrest with
    | nil => rfl
    | cons => rw [if_neg (List.cons_ne_nil _ _), ih (List.cons_ne_nil _ _)]; rfl

/-- An element that no symbol stands for makes the search start over. -/
theorem advance_of_forall (h : ∀ c ∈ left, accepts c a = false) :
    advance accepts pattern left a = pattern := by
  cases left with
  | nil => rfl
  | cons c left => rw [advance, if_neg (by simp [h c (List.mem_cons_self ..)])]

/-- A list of such elements has no match, and the search stands at its start behind it. -/
theorem scan_of_forall (hpattern : pattern ≠ []) (h : ∀ a ∈ xs, ∀ c ∈ pattern, accepts c a = false)
    (hne : xs ≠ []) (hleft : left ⊆ pattern) :
    scan accepts pattern left xs = none ∧ after accepts pattern left xs = pattern := by
  induction xs generalizing left with
  | nil => exact absurd rfl hne
  | cons a xs ih =>
    have hadvance : advance accepts pattern left a = pattern :=
      advance_of_forall fun c hc => h a (List.mem_cons_self ..) c (hleft hc)
    rw [scan_cons, after_cons, hadvance, if_neg hpattern]
    cases xs with
    | nil => exact ⟨by rw [scan_nil, Option.map_none], rfl⟩
    | cons b xs =>
      obtain ⟨hscan, hafter⟩ := ih (fun x hx => h x (List.mem_cons_of_mem _ hx))
        (List.cons_ne_nil _ _) (List.Subset.refl _)
      exact ⟨by rw [hscan, Option.map_none], hafter⟩

end Searching

end Epoller.Foundation
