import Mathlib

/-!
# Unordered Maps

The associative container behind `std::unordered_map`: at most one value for each
key, in no particular order.

## Contents

- `lookup_insert_eq`, `lookup_erase_eq`: what an edit leaves behind
- `tally`: how many entries have a value of a kind, with its rule for each edit
-/

namespace Epoller.Foundation

universe u v

/-- A map with unique keys. -/
abbrev UnorderedMap (κ : Type u) (ν : Type v) := AList fun _ : κ => ν

namespace UnorderedMap

variable {κ : Type u} {ν : Type v} [DecidableEq κ]

/-! ## Edits -/

theorem lookup_insert_eq (m : UnorderedMap κ ν) (k k' : κ) (v : ν) :
    (m.insert k v).lookup k' = if k' = k then some v else m.lookup k' := by
  split
  · rename_i heq
    rw [heq, AList.lookup_insert]
  · rename_i hne
    exact AList.lookup_insert_ne hne

theorem lookup_erase_eq (m : UnorderedMap κ ν) (k k' : κ) :
    (m.erase k).lookup k' = if k' = k then none else m.lookup k' := by
  split
  · rename_i heq
    rw [heq, AList.lookup_erase]
  · rename_i hne
    exact AList.lookup_erase_ne hne

/-- An entry behind `insert` is the new one, or was there under another key. -/
theorem lookup_insert_eq_some_iff {m : UnorderedMap κ ν} {k k' : κ} {v w : ν} :
    (m.insert k v).lookup k' = some w ↔ (k' = k ∧ w = v) ∨ (k' ≠ k ∧ m.lookup k' = some w) := by
  rw [lookup_insert_eq]
  split
  · rename_i heq
    simp [heq, eq_comm]
  · rename_i hne
    simp [hne]

/-- An entry behind `erase` was there under another key. -/
theorem lookup_erase_eq_some_iff {m : UnorderedMap κ ν} {k k' : κ} {v : ν} :
    (m.erase k).lookup k' = some v ↔ k' ≠ k ∧ m.lookup k' = some v := by
  rw [lookup_erase_eq]
  split
  · rename_i heq
    simp [heq]
  · rename_i hne
    simp [hne]

theorem mem_iff_lookup {m : UnorderedMap κ ν} {k : κ} : k ∈ m ↔ ∃ v, m.lookup k = some v := by
  rw [← AList.lookup_isSome, Option.isSome_iff_exists]

/-- An entry and what is left when it is erased are all the entries. -/
theorem entries_perm_erase {m : UnorderedMap κ ν} {k : κ} {v : ν} (h : m.lookup k = some v) :
    m.entries.Perm (⟨k, v⟩ :: (m.erase k).entries) := by
  obtain ⟨w, before, behind, hkey, hentries, herase⟩ :=
    List.exists_of_kerase (AList.mem_keys.mp (AList.lookup_isSome.mp (by rw [h]; rfl)))
  have hvalue : w = v := by
    have hw : (⟨k, w⟩ : Sigma fun _ : κ => ν) ∈ m.entries := by
      rw [hentries]
      exact List.mem_append_right _ (List.mem_cons_self ..)
    have hlookup := (AList.mem_lookup_iff (s := m)).mpr hw
    rw [Option.mem_def, h] at hlookup
    exact (Option.some.inj hlookup).symm
  subst hvalue
  have herased : (m.erase k).entries = before ++ behind := herase
  rw [herased, hentries]
  exact List.perm_middle

/-! ## Counting Entries -/

/-- How many entries have a value with `p`. -/
def tally (p : ν → Prop) [DecidablePred p] (m : UnorderedMap κ ν) : ℕ :=
  m.entries.countP fun e => p e.2

variable {p : ν → Prop} [DecidablePred p] {m : UnorderedMap κ ν} {k : κ} {v : ν}

theorem tally_erase (h : m.lookup k = some v) :
    tally p m = tally p (m.erase k) + if p v then 1 else 0 := by
  have hperm := (entries_perm_erase h).countP_eq fun e => decide (p e.2)
  rw [tally, hperm, List.countP_cons]
  simp [tally]

theorem tally_insert_of_notMem (h : k ∉ m) :
    tally p (m.insert k v) = tally p m + if p v then 1 else 0 := by
  rw [tally, AList.entries_insert_of_notMem h, List.countP_cons]
  simp [tally]

/-- A value of the same kind takes the place of another. -/
theorem tally_insert_of_iff {w : ν} (h : m.lookup k = some v) (hiff : p w ↔ p v) :
    tally p (m.insert k w) = tally p m := by
  have hinserted : (m.insert k w).entries = ⟨k, w⟩ :: (m.erase k).entries := AList.entries_insert
  rw [tally_erase h, tally, hinserted, List.countP_cons]
  simp [tally, hiff]

end UnorderedMap

end Epoller.Foundation
