import Mathlib

/-!
# Cyclic Order

The positions below `n` in the order in which a search meets them that starts
behind `last` and goes on at 0 behind the end. A search that stops at the first
position of some kind, and starts again where it stopped, visits all of that kind
before it visits one of them again.

## Contents

- `cyclic`: the position so many places behind another
- `IsNext`: the first position of a kind, in cyclic order
- `Visits`: one search after the other
- `Visits.perm`: as many searches as there are such positions visit each of them once
-/

namespace Epoller.Foundation

open scoped List

variable {n last c d p q : ℕ} {P : ℕ → Prop} {ps : List ℕ}

/-! ## Positions -/

/-- The position `d` places behind `last`. -/
def cyclic (n last d : ℕ) : ℕ := (last + d) % n

theorem cyclic_eq (hlast : last < n) (hd : d ≤ n) :
    cyclic n last d = if last + d < n then last + d else last + d - n := by
  unfold cyclic
  split
  · exact Nat.mod_eq_of_lt ‹_›
  · rw [Nat.mod_eq_sub_mod (by omega), Nat.mod_eq_of_lt (by omega)]

theorem cyclic_lt (hlast : last < n) (d : ℕ) : cyclic n last d < n :=
  Nat.mod_lt _ (Nat.zero_lt_of_lt hlast)

theorem cyclic_cyclic (n last c d : ℕ) : cyclic n (cyclic n last c) d = cyclic n last (c + d) := by
  rw [cyclic, cyclic, cyclic, Nat.mod_add_mod, Nat.add_assoc]

/-- Once round -/
theorem cyclic_self (hlast : last < n) : cyclic n last n = last := by
  rw [cyclic, Nat.add_mod_right, Nat.mod_eq_of_lt hlast]

/-- The `n` positions behind `last`, the last of which is `last` itself, are all there are. -/
theorem map_cyclic_perm (hlast : last < n) :
    (List.range' 1 n).map (cyclic n last) ~ List.range n := by
  -- two positions less than `n` places apart differ
  have hinj : ∀ d ∈ List.range' 1 n, ∀ e ∈ List.range' 1 n,
      cyclic n last d = cyclic n last e → d = e := by
    intro d hd e he heq
    rw [List.mem_range'_1] at hd he
    rw [cyclic_eq hlast (by omega), cyclic_eq hlast (by omega)] at heq
    split at heq <;> split at heq <;> omega
  refine (List.perm_ext_iff_of_nodup
    (List.Nodup.map_on hinj (List.nodup_range' 1)) List.nodup_range).mpr fun p => ?_
  rw [List.mem_map, List.mem_range]
  constructor
  · rintro ⟨d, -, rfl⟩
    exact cyclic_lt hlast d
  · intro hp
    by_cases hbehind : last < p
    · refine ⟨p - last, List.mem_range'_1.mpr (by omega), ?_⟩
      rw [cyclic_eq hlast (by omega)]
      split <;> omega
    · refine ⟨p + n - last, List.mem_range'_1.mpr (by omega), ?_⟩
      rw [cyclic_eq hlast (by omega)]
      split <;> omega

/-! ## Searching -/

/-- `p` is the first position behind `last` that meets `P`. -/
def IsNext (n : ℕ) (P : ℕ → Prop) (last p : ℕ) : Prop :=
  ∃ d, 0 < d ∧ d ≤ n ∧ p = cyclic n last d ∧ P p ∧ ∀ e, 0 < e → e < d → ¬ P (cyclic n last e)

theorem IsNext.unique (hp : IsNext n P last p) (hq : IsNext n P last q) : p = q := by
  obtain ⟨d, hd, -, rfl, hPd, hfirst⟩ := hp
  obtain ⟨e, he, -, rfl, hPe, hfirst'⟩ := hq
  rcases lt_trichotomy d e with hlt | rfl | hlt
  · exact absurd hPd (hfirst' d hd hlt)
  · rfl
  · exact absurd hPe (hfirst e he hlt)

/-- Searches one after the other, each from where the one before has stopped. -/
inductive Visits (n : ℕ) (P : ℕ → Prop) : ℕ → List ℕ → Prop where
  | nil (last : ℕ) : Visits n P last []
  | cons {last p : ℕ} {ps : List ℕ} :
      IsNext n P last p → Visits n P p ps → Visits n P last (p :: ps)

/-- The first number of a range that passes a filter, and what the filter leaves behind it. -/
theorem filter_range'_eq_cons {s m : ℕ} {ds : List ℕ} {f : ℕ → Bool}
    (h : (List.range' s m).filter f = d :: ds) :
    s ≤ d ∧ d < s + m ∧ f d = true ∧ (∀ e, s ≤ e → e < d → f e = false) ∧
      ds = (List.range' (d + 1) (s + m - (d + 1))).filter f := by
  induction m generalizing s with
  | zero => cases h
  | succ m ih =>
    -- either `s` is the first one, or it is filtered out and the search goes on behind it
    rw [List.range'_succ, List.filter_cons] at h
    cases hs : f s with
    | true =>
      rw [hs, if_pos rfl] at h
      obtain ⟨rfl, rfl⟩ := List.cons.inj h
      refine ⟨le_refl _, by omega, hs, fun e hse hed => by omega, ?_⟩
      rw [Nat.add_comm m 1, ← Nat.add_assoc, Nat.add_sub_cancel_left]
    | false =>
      rw [hs, if_neg Bool.false_ne_true] at h
      obtain ⟨hsd, hdm, hfd, hfirst, hds⟩ := ih h
      refine ⟨by omega, by omega, hfd, fun e hse hed => ?_, ?_⟩
      · by_cases heq : e = s
        · exact heq ▸ hs
        · exact hfirst e (by omega) hed
      · rw [hds, show s + 1 + m - (d + 1) = s + (m + 1) - (d + 1) by omega]

variable [DecidablePred P]

/-- As long as no search comes round, the positions are visited in cyclic order. -/
theorem Visits.eq_take (h : Visits n P (cyclic n last c) ps) {ds : List ℕ}
    (hds : ds = (List.range' (c + 1) (n - c)).filter (fun d => P (cyclic n last d)))
    (hlen : ps.length ≤ ds.length) : ps = (ds.take ps.length).map (cyclic n last) := by
  induction ps generalizing c ds with
  | nil => simp
  | cons p ps ih =>
    cases h with
    | cons hnext hrest =>
    cases ds with
    | nil => simp at hlen
    | cons d ds =>
      obtain ⟨hcd, hdn, hPd, hfirst, hds'⟩ := filter_range'_eq_cons hds.symm
      -- what the search finds first is the next in the range
      have hd : IsNext n P (cyclic n last c) (cyclic n last d) := by
        refine ⟨d - c, by omega, by omega, ?_, of_decide_eq_true hPd, fun e he hed => ?_⟩
        · rw [cyclic_cyclic, Nat.add_sub_cancel' (by omega)]
        · rw [cyclic_cyclic]
          exact of_decide_eq_false (hfirst (c + e) (by omega) (by omega))
      obtain rfl := hnext.unique hd
      rw [show c + 1 + (n - c) - (d + 1) = n - d by omega] at hds'
      rw [List.length_cons, List.take_succ_cons, List.map_cons]
      exact congrArg _ (ih hrest hds' (by simpa using hlen))

/-- **Round robin**: as many searches as there are positions that meet `P` visit each of them
once. -/
theorem Visits.perm (hlast : last < n) (h : Visits n P last ps)
    (hcount : ps.length = (List.range n).countP P) : ps ~ (List.range n).filter P := by
  have hperm : ((List.range' 1 n).filter (fun d => P (cyclic n last d))).map (cyclic n last) ~
      (List.range n).filter P := by
    have hfilter := (map_cyclic_perm hlast).filter (fun p => decide (P p))
    rwa [List.filter_map] at hfilter
  have hlen : ((List.range' 1 n).filter (fun d => P (cyclic n last d))).length = ps.length := by
    rw [hcount, List.countP_eq_length_filter, ← hperm.length_eq, List.length_map]
  have hzero : cyclic n last 0 = last := by rw [cyclic, Nat.add_zero, Nat.mod_eq_of_lt hlast]
  rw [← hzero] at h
  -- for `c = 0` the range starts at the position behind `last`
  have hrange : (List.range' 1 n).filter (fun d => P (cyclic n last d)) =
      (List.range' (0 + 1) (n - 0)).filter fun d => P (cyclic n last d) := rfl
  rw [h.eq_take hrange hlen.ge, ← hlen, List.take_length]
  exact hperm

end Epoller.Foundation
