import Mathlib

/-!
# Ordered Maps with Unique Keys

The associative container behind `std::map`: entries in strictly increasing key
order. `emplace` leaves an existing key alone, `erase` removes one key, `begin?`
is the entry with the smallest key.

## Contents

- `SortedMap`: the entries together with the proof that their keys increase
- `find?_eq_some_iff`: the map as the set of its entries
- `emplace_perm`: inserting a new key adds exactly one entry
- `begin?_eq_some_iff`: the first entry is the one with the smallest key
-/

namespace Epoller.Foundation

universe u v

/-- Entries in strictly increasing key order. -/
structure SortedMap (κ : Type u) (ν : Type v) [LinearOrder κ] where
  /-- The entries, smallest key first -/
  entries : List (κ × ν)
  /-- Keys increase strictly, so no key occurs twice -/
  sorted : entries.Pairwise fun a b => a.1 < b.1

namespace SortedMap

variable {κ : Type u} {ν : Type v} [LinearOrder κ]

@[ext] theorem ext {m m' : SortedMap κ ν} (h : m.entries = m'.entries) : m = m' := by
  cases m
  cases m'
  simpa using h

instance [DecidableEq ν] : DecidableEq (SortedMap κ ν) := fun m m' =>
  decidable_of_iff (m.entries = m'.entries) ⟨ext, fun h => h ▸ rfl⟩

instance : Membership (κ × ν) (SortedMap κ ν) := ⟨fun m e => e ∈ m.entries⟩

theorem mem_def {m : SortedMap κ ν} {e : κ × ν} : e ∈ m ↔ e ∈ m.entries := Iff.rfl

/-! ## Operations -/

/-- The map without entries. -/
def empty : SortedMap κ ν := ⟨[], .nil⟩

/-- Number of entries. -/
def size (m : SortedMap κ ν) : ℕ := m.entries.length

/-- The entry with the smallest key, if there is one. -/
def begin? (m : SortedMap κ ν) : Option (κ × ν) := m.entries.head?

/-- The value stored under `k`. -/
def find? (m : SortedMap κ ν) (k : κ) : Option ν :=
  (m.entries.find? fun e => e.1 = k).map Prod.snd

/-- Insert `(k, v)` in key order; a key that is there keeps its value. -/
def insertSorted (k : κ) (v : ν) : List (κ × ν) → List (κ × ν)
  | [] => [(k, v)]
  | e :: es =>
    if k < e.1 then (k, v) :: e :: es
    else if e.1 < k then e :: insertSorted k v es
    else e :: es

theorem mem_insertSorted {k : κ} {v : ν} {es : List (κ × ν)} {x : κ × ν}
    (hx : x ∈ insertSorted k v es) : x = (k, v) ∨ x ∈ es := by
  induction es with
  | nil => exact Or.inl (List.mem_singleton.mp hx)
  | cons e es ih =>
    simp only [insertSorted] at hx
    split at hx
    · exact List.mem_cons.mp hx
    · split at hx
      · rcases List.mem_cons.mp hx with rfl | hx
        · exact Or.inr (List.mem_cons_self ..)
        · exact (ih hx).imp_right (List.mem_cons_of_mem _)
      · exact Or.inr hx

theorem sorted_insertSorted (k : κ) (v : ν) {es : List (κ × ν)}
    (h : es.Pairwise fun a b => a.1 < b.1) :
    (insertSorted k v es).Pairwise fun a b => a.1 < b.1 := by
  induction es with
  | nil => simp [insertSorted]
  | cons e es ih =>
    obtain ⟨hhead, htail⟩ := List.pairwise_cons.mp h
    simp only [insertSorted]
    split
    · rename_i hlt
      refine List.pairwise_cons.mpr ⟨fun x hx => ?_, h⟩
      rcases List.mem_cons.mp hx with rfl | hx
      · exact hlt
      · exact hlt.trans (hhead x hx)
    · split
      · rename_i hgt
        refine List.pairwise_cons.mpr ⟨fun x hx => ?_, ih htail⟩
        rcases mem_insertSorted hx with rfl | hx
        · exact hgt
        · exact hhead x hx
      · exact h

/-- Insert `(k, v)` unless the key `k` is there. -/
def emplace (m : SortedMap κ ν) (k : κ) (v : ν) : SortedMap κ ν :=
  ⟨insertSorted k v m.entries, sorted_insertSorted k v m.sorted⟩

/-- Remove the entry with key `k`, if there is one. -/
def erase (m : SortedMap κ ν) (k : κ) : SortedMap κ ν :=
  ⟨m.entries.filter fun e => e.1 ≠ k, m.sorted.filter _⟩

/-- Keep the entries that satisfy `p`. -/
def filter (p : κ × ν → Prop) [DecidablePred p] (m : SortedMap κ ν) : SortedMap κ ν :=
  ⟨m.entries.filter fun e => p e, m.sorted.filter _⟩

/-! ## Uniqueness of Keys -/

theorem nodup_keys (m : SortedMap κ ν) : (m.entries.map Prod.fst).Nodup :=
  List.pairwise_map.mpr (m.sorted.imp fun hlt => hlt.ne)

/-- Two entries with the same key are the same entry. -/
theorem eq_of_mem_of_key_eq {m : SortedMap κ ν} {e e' : κ × ν} (h : e ∈ m) (h' : e' ∈ m)
    (hkey : e.1 = e'.1) : e = e' :=
  List.inj_on_of_nodup_map m.nodup_keys h h' hkey

theorem find?_eq_some_iff {m : SortedMap κ ν} {k : κ} {v : ν} :
    m.find? k = some v ↔ (k, v) ∈ m := by
  simp only [find?, Option.map_eq_some_iff]
  constructor
  · rintro ⟨e, he, rfl⟩
    have hkey : e.1 = k := by simpa using List.find?_some he
    exact hkey ▸ List.mem_of_find?_eq_some he
  · intro hmem
    cases hfind : m.entries.find? fun e => e.1 = k with
    | none => exact absurd (List.find?_eq_none.mp hfind _ hmem) (by simp)
    | some e =>
      have hkey : e.1 = k := by simpa using List.find?_some hfind
      exact ⟨e, rfl, by rw [eq_of_mem_of_key_eq (List.mem_of_find?_eq_some hfind) hmem hkey]⟩

/-! ## What the Edits Do -/

@[simp] theorem entries_filter (p : κ × ν → Prop) [DecidablePred p] (m : SortedMap κ ν) :
    (m.filter p).entries = m.entries.filter fun e => p e := rfl

theorem filter_filter (p q : κ × ν → Prop) [DecidablePred p] [DecidablePred q]
    (m : SortedMap κ ν) : (m.filter p).filter q = m.filter fun e => p e ∧ q e := by
  apply ext
  simp [List.filter_filter, Bool.and_comm]

theorem filter_congr {p q : κ × ν → Prop} [DecidablePred p] [DecidablePred q]
    {m : SortedMap κ ν} (h : ∀ e ∈ m, p e ↔ q e) : m.filter p = m.filter q := by
  apply ext
  exact List.filter_congr fun e he => by simp [h e he]

theorem insertSorted_perm {k : κ} {v : ν} {es : List (κ × ν)} (hk : ∀ e ∈ es, e.1 ≠ k) :
    (insertSorted k v es).Perm ((k, v) :: es) := by
  induction es with
  | nil => exact .refl _
  | cons e es ih =>
    simp only [insertSorted]
    split
    · exact .refl _
    · rename_i hnlt
      have hlt : e.1 < k :=
        lt_of_le_of_ne (not_lt.mp hnlt) (hk e (List.mem_cons_self ..))
      rw [if_pos hlt]
      exact ((ih fun x hx => hk x (List.mem_cons_of_mem _ hx)).cons e).trans (.swap ..)

theorem insertSorted_of_mem {k : κ} {v v' : ν} {es : List (κ × ν)}
    (h : es.Pairwise fun a b => a.1 < b.1) (hk : (k, v') ∈ es) :
    insertSorted k v es = es := by
  induction es with
  | nil => cases hk
  | cons e es ih =>
    obtain ⟨hhead, htail⟩ := List.pairwise_cons.mp h
    simp only [insertSorted]
    rcases List.mem_cons.mp hk with rfl | hk
    · simp
    · have hlt : e.1 < k := hhead _ hk
      rw [if_neg hlt.asymm, if_pos hlt, ih htail hk]

/-- Inserting a key that is not there adds exactly one entry. -/
theorem emplace_perm {m : SortedMap κ ν} {k : κ} {v : ν} (hk : ∀ e ∈ m, e.1 ≠ k) :
    (m.emplace k v).entries.Perm ((k, v) :: m.entries) :=
  insertSorted_perm hk

/-- Inserting a key that is there changes nothing. -/
theorem emplace_of_mem {m : SortedMap κ ν} {k : κ} {v v' : ν} (hk : (k, v') ∈ m) :
    m.emplace k v = m :=
  ext (insertSorted_of_mem m.sorted hk)

/-! ## The First Entry -/

theorem begin?_eq_none_iff {m : SortedMap κ ν} : m.begin? = none ↔ m.entries = [] :=
  List.head?_eq_none_iff

/-- The first entry is the entry whose key is below every other one. -/
theorem begin?_eq_some_iff {m : SortedMap κ ν} {e : κ × ν} :
    m.begin? = some e ↔ e ∈ m ∧ ∀ e' ∈ m, e' ≠ e → e.1 < e'.1 := by
  obtain ⟨entries, hsorted⟩ := m
  cases entries with
  | nil => simp [begin?, mem_def]
  | cons x xs =>
    obtain ⟨hhead, -⟩ := List.pairwise_cons.mp hsorted
    simp only [begin?, List.head?_cons, Option.some.injEq, mem_def]
    constructor
    · rintro rfl
      refine ⟨List.mem_cons_self .., fun e' he' hne => ?_⟩
      exact hhead e' ((List.mem_cons.mp he').resolve_left hne)
    · rintro ⟨hmem, hleast⟩
      by_contra hne
      have hlt : e.1 < x.1 := hleast x (List.mem_cons_self ..) hne
      have hgt : x.1 < e.1 :=
        hhead e ((List.mem_cons.mp hmem).resolve_left fun h => hne h.symm)
      exact hlt.asymm hgt

end SortedMap

end Epoller.Foundation
