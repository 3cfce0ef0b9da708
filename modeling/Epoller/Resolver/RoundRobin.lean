import Epoller.Foundation.Cyclic
import Epoller.Resolver

/-!
# Round Robin over the Cached Addresses

`Names::get` starts behind the address it returned last and goes on at the first
one behind the end. The flag `once` makes the loop end where it started; so it
tests every address, and successive calls share out those that satisfy the
preference.

## Contents

- `Names.loop`: the loop of `get`, without a number of rounds
- `getLoop_spec`: where the loop ends
- `Names.RoundRobin`: what `get` promises
- `roundRobin_of_calls`: after any calls of `put` and `get`
-/

namespace Epoller.ResolverImpl.Names

open Foundation
open scoped List

/-! ## The Loop -/

/-- The loop of `get` for at most `fuel` tests of its condition: `none` if it has not ended by then,
else the last `i` and the address found. -/
def loop (addrs : List IpAddr) (lastAccessIndex : ℕ) (prefs : AddrPref) :
    (fuel i : ℕ) → (once : Bool) → Option (ℕ × Option IpAddr)
  | 0, _, _ => none
  | fuel + 1, i, once =>
    if once = false ∨ i ≠ lastAccessIndex then
      let (i, once) := advance addrs.length i once
      match addrs[i]? with
      | some addr =>
        if prefs.Accepts addr then some (i, some addr)
        else loop addrs lastAccessIndex prefs fuel i once
      | none => some (i, none)
    else some (i, none)

variable {addrs : List IpAddr} {prefs : AddrPref} {last fuel c : ℕ} {names : Names}
  {addr : IpAddr}

/-- The address at the position satisfies the preference. -/
def AcceptsAt (addrs : List IpAddr) (prefs : AddrPref) (i : ℕ) : Prop :=
  ∃ addr, addrs[i]? = some addr ∧ prefs.Accepts addr

instance (addrs : List IpAddr) (prefs : AddrPref) (i : ℕ) : Decidable (AcceptsAt addrs prefs i) :=
  match h : addrs[i]? with
  | some addr => decidable_of_iff (prefs.Accepts addr) (by simp [AcceptsAt, h])
  | none => .isFalse (by simp [AcceptsAt, h])

/-- Where the loop stands after `c` rounds: `once` is set when it has come round. -/
theorem advance_cyclic {n : ℕ} (hlast : last < n) (hc : c < n) :
    advance n (cyclic n last c) (decide (n ≤ last + c)) =
      (cyclic n last (c + 1), decide (n ≤ last + (c + 1))) := by
  rw [advance, cyclic_eq hlast (by omega), cyclic_eq hlast (by omega)]
  split <;> split <;> split <;> simp <;> omega

/-- The loop goes on until it is where it started. -/
theorem goesOn_iff {n : ℕ} (hlast : last < n) (hc : c ≤ n) :
    (decide (n ≤ last + c) = false ∨ cyclic n last c ≠ last) ↔ c < n := by
  rw [cyclic_eq hlast hc, decide_eq_false_iff_not]
  split <;> omega

/-- How the loop ends that has `c` positions behind it. -/
inductive EndsAt (addrs : List IpAddr) (prefs : AddrPref) (last c : ℕ) :
    ℕ × Option IpAddr → Prop where
  | found {d : ℕ} {addr : IpAddr} (hcd : c < d) (hd : d ≤ addrs.length)
      (hget : addrs[cyclic addrs.length last d]? = some addr) (haccepts : prefs.Accepts addr)
      (hfirst : ∀ e, c < e → e < d → ¬ AcceptsAt addrs prefs (cyclic addrs.length last e)) :
      EndsAt addrs prefs last c (cyclic addrs.length last d, some addr)
  | notFound (hnone : ∀ e, c < e → e ≤ addrs.length →
      ¬ AcceptsAt addrs prefs (cyclic addrs.length last e)) : EndsAt addrs prefs last c (last, none)

theorem EndsAt.lt {r : ℕ × Option IpAddr} (h : EndsAt addrs prefs last c r)
    (hlast : last < addrs.length) : r.1 < addrs.length := by
  cases h with
  | found => exact cyclic_lt hlast _
  | notFound => exact hlast

/-- A position that was tested in vain -/
theorem EndsAt.of_succ {r : ℕ × Option IpAddr} (h : EndsAt addrs prefs last (c + 1) r)
    (hrejects : ¬ AcceptsAt addrs prefs (cyclic addrs.length last (c + 1))) :
    EndsAt addrs prefs last c r := by
  have hskip : ∀ e, c < e → e = c + 1 ∨ c + 1 < e := fun e he => by omega
  cases h with
  | found hcd hd hget haccepts hfirst =>
    refine .found (by omega) hd hget haccepts fun e hce hed => ?_
    rcases hskip e hce with rfl | hlt
    · exact hrejects
    · exact hfirst e hlt hed
  | notFound hnone =>
    refine .notFound fun e hce hen => ?_
    rcases hskip e hce with rfl | hlt
    · exact hrejects
    · exact hnone e hlt hen

/-- **The loop** ends by itself, at the first position that is accepted, or where it started. -/
theorem getLoop_spec (hlast : last < addrs.length) (hc : c ≤ addrs.length)
    (hfuel : addrs.length ≤ c + fuel) :
    EndsAt addrs prefs last c (getLoop addrs last prefs fuel (cyclic addrs.length last c)
        (decide (addrs.length ≤ last + c))) ∧
      loop addrs last prefs (fuel + 1) (cyclic addrs.length last c)
          (decide (addrs.length ≤ last + c)) =
        some (getLoop addrs last prefs fuel (cyclic addrs.length last c)
          (decide (addrs.length ≤ last + c))) := by
  have hgoes := goesOn_iff hlast hc
  -- each round takes one unit of fuel and leaves one position behind
  induction fuel generalizing c with
  | zero =>
    obtain rfl : c = addrs.length := by omega
    rw [loop, if_neg (hgoes.not.mpr (lt_irrefl _)), getLoop, cyclic_self hlast]
    exact ⟨.notFound fun e _ _ => by omega, rfl⟩
  | succ fuel ih =>
    rw [loop, getLoop]
    rcases hc.eq_or_lt with rfl | hlt
    · rw [if_neg (hgoes.not.mpr (lt_irrefl _)), if_neg (hgoes.not.mpr (lt_irrefl _)),
        cyclic_self hlast]
      exact ⟨.notFound fun e _ _ => by omega, rfl⟩
    · -- the position is in range, so `addrs[i]` is defined
      have hnext := cyclic_lt hlast (c + 1)
      have hget := List.getElem?_eq_getElem hnext
      rw [if_pos (hgoes.mpr hlt), if_pos (hgoes.mpr hlt)]
      simp only [advance_cyclic hlast hlt, hget]
      by_cases haccepts : prefs.Accepts addrs[cyclic addrs.length last (c + 1)]
      · rw [if_pos haccepts, if_pos haccepts]
        exact ⟨.found (Nat.lt_succ_self c) hlt hget haccepts fun e _ _ => by omega, rfl⟩
      · have hrejects : ¬ AcceptsAt addrs prefs (cyclic addrs.length last (c + 1)) := by
          rintro ⟨addr, haddr, hacc⟩
          rw [hget] at haddr
          cases haddr
          exact haccepts hacc
        obtain ⟨hends, hloop⟩ := ih hlt (by omega) (goesOn_iff hlast hlt)
        rw [if_neg haccepts, if_neg haccepts]
        exact ⟨hends.of_succ hrejects, hloop⟩

/-! ## `get` -/

/-- **Specification of `get`** -/
theorem get_spec (h : names.addrs ≠ []) (prefs : AddrPref) :
    EndsAt names.addrs prefs names.lastAccessIndex 0
        ((names.get prefs).1.lastAccessIndex, (names.get prefs).2) ∧
      loop names.addrs names.lastAccessIndex prefs (names.addrs.length + 1) names.lastAccessIndex
        false = some ((names.get prefs).1.lastAccessIndex, (names.get prefs).2) := by
  have hnum : ¬ names.addrs.length = 0 := fun hzero => h (List.length_eq_zero_iff.mp hzero)
  have hlast := names.last_lt hnum
  have hspec := @getLoop_spec names.addrs prefs names.lastAccessIndex names.addrs.length 0 hlast
    (Nat.zero_le _) (by omega)
  have hhome : cyclic names.addrs.length names.lastAccessIndex 0 = names.lastAccessIndex := by
    rw [cyclic, Nat.add_zero, Nat.mod_eq_of_lt hlast]
  have honce : decide (names.addrs.length ≤ names.lastAccessIndex + 0) = false :=
    decide_eq_false (by omega)
  rw [hhome, honce] at hspec
  simpa only [get, hnum, dite_false] using hspec

/-- What `k` calls of `get` in a row return, each with the index it leaves behind -/
def gets (prefs : AddrPref) : (k : ℕ) → Names → List (ℕ × Option IpAddr)
  | 0, _ => []
  | k + 1, names =>
    ((names.get prefs).1.lastAccessIndex, (names.get prefs).2) :: gets prefs k (names.get prefs).1

/-- The positions whose addresses satisfy the preference -/
def acceptedPositions (names : Names) (prefs : AddrPref) : List ℕ :=
  (List.range names.addrs.length).filter fun i => AcceptsAt names.addrs prefs i

/-- What `get` promises. -/
structure RoundRobin (names : Names) (prefs : AddrPref) : Prop where
  /-- Without addresses the loop is not entered. -/
  terminates : names.addrs ≠ [] → ∃ fuel,
    loop names.addrs names.lastAccessIndex prefs fuel names.lastAccessIndex false =
      some ((names.get prefs).1.lastAccessIndex, (names.get prefs).2)
  finds : (names.get prefs).2.isSome = true ↔ ∃ addr ∈ names.addrs, prefs.Accepts addr
  first : ∀ addr, (names.get prefs).2 = some addr →
    names.addrs[(names.get prefs).1.lastAccessIndex]? = some addr ∧
      IsNext names.addrs.length (AcceptsAt names.addrs prefs) names.lastAccessIndex
        (names.get prefs).1.lastAccessIndex
  below : names.addrs ≠ [] → (names.get prefs).1.lastAccessIndex < names.addrs.length
  /-- As many calls as there are accepted positions return each of them once. -/
  fair : ((gets prefs (acceptedPositions names prefs).length names).map Prod.fst) ~
      acceptedPositions names prefs ∧
    ∀ r ∈ gets prefs (acceptedPositions names prefs).length names,
      names.addrs[r.1]? = r.2 ∧ r.2.isSome = true

/-- A call that finds an address stops at the next position that is accepted. -/
theorem get_next (h : (names.get prefs).2 = some addr) :
    names.addrs[(names.get prefs).1.lastAccessIndex]? = some addr ∧
      IsNext names.addrs.length (AcceptsAt names.addrs prefs) names.lastAccessIndex
        (names.get prefs).1.lastAccessIndex := by
  have hne : names.addrs ≠ [] := List.ne_nil_of_mem (get_some h).1
  have hspec := (get_spec hne prefs).1
  rw [h] at hspec
  generalize (names.get prefs).1.lastAccessIndex = i at hspec ⊢
  cases hspec with
  | found hcd hd hget haccepts hfirst =>
    exact ⟨hget, _, hcd, hd, rfl, ⟨addr, hget, haccepts⟩, fun e he hed => hfirst e he hed⟩

/-- Calls that have something to find visit one accepted position after the other. -/
theorem visits_gets (hfound : ∃ addr ∈ names.addrs, prefs.Accepts addr) (k : ℕ) :
    Visits names.addrs.length (AcceptsAt names.addrs prefs) names.lastAccessIndex
        ((gets prefs k names).map Prod.fst) ∧
      ∀ r ∈ gets prefs k names, names.addrs[r.1]? = r.2 ∧ r.2.isSome = true := by
  induction k generalizing names with
  | zero => exact ⟨.nil _, fun r hr => absurd hr List.not_mem_nil⟩
  | succ k ih =>
    have hsome := (get_isSome_iff names prefs).mpr hfound
    obtain ⟨addr, haddr⟩ := Option.isSome_iff_exists.mp hsome
    obtain ⟨hget, hnext⟩ := get_next haddr
    -- the addresses are the same for the calls that follow
    have hfound' : ∃ addr ∈ (names.get prefs).1.addrs, prefs.Accepts addr := by rwa [get_addrs]
    obtain ⟨hvisits, hall⟩ := ih hfound'
    rw [get_addrs] at hvisits hall
    refine ⟨.cons hnext hvisits, fun r hr => ?_⟩
    rcases List.mem_cons.mp hr with rfl | hr
    · exact ⟨hget.trans haddr.symm, hsome⟩
    · exact hall r hr

theorem length_gets (prefs : AddrPref) (k : ℕ) (names : Names) :
    (gets prefs k names).length = k := by
  induction k generalizing names with
  | zero => rfl
  | succ k ih => rw [gets, List.length_cons, ih]

theorem mem_acceptedPositions {i : ℕ} :
    i ∈ acceptedPositions names prefs ↔ AcceptsAt names.addrs prefs i := by
  rw [acceptedPositions, List.mem_filter, List.mem_range, decide_eq_true_iff]
  refine ⟨And.right, fun h => ⟨?_, h⟩⟩
  obtain ⟨addr, hget, -⟩ := h
  exact (List.getElem?_eq_some_iff.mp hget).1

/-- **`get`** goes round the addresses. -/
theorem roundRobin (names : Names) (prefs : AddrPref) : RoundRobin names prefs where
  terminates h := ⟨_, (get_spec h prefs).2⟩
  finds := get_isSome_iff names prefs
  first _ h := get_next h
  below h := by
    have hlast := names.last_lt fun hzero => h (List.length_eq_zero_iff.mp hzero)
    exact (get_spec h prefs).1.lt hlast
  fair := by
    -- with no accepted position there is no call, else every call finds one
    rcases List.eq_nil_or_concat (acceptedPositions names prefs) with hnil | ⟨front, i, hlast⟩
    · simp [hnil, gets]
    · obtain ⟨addr, hget, haccepts⟩ : AcceptsAt names.addrs prefs i :=
        mem_acceptedPositions.mp (by simp [hlast])
      have hmem := List.mem_of_getElem? hget
      have hvisits := visits_gets ⟨addr, hmem, haccepts⟩ (acceptedPositions names prefs).length
      have hpos := names.last_lt fun hzero => by simp [List.length_eq_zero_iff.mp hzero] at hmem
      have hcount :
          ((gets prefs (acceptedPositions names prefs).length names).map Prod.fst).length =
            (List.range names.addrs.length).countP fun i => AcceptsAt names.addrs prefs i := by
        rw [List.length_map, length_gets, List.countP_eq_length_filter, acceptedPositions]
      exact ⟨hvisits.1.perm hpos hcount, hvisits.2⟩

/-! ## After Any Calls -/

/-- A call of `put` or `get` -/
inductive NamesCall where
  | put (ans : Query.Qanswer)
  | get (prefs : AddrPref)
deriving DecidableEq, Repr

def call (names : Names) : NamesCall → Names
  | .put ans => names.put ans
  | .get prefs => (names.get prefs).1

/-- **Round robin** after any calls of `put` and `get` -/
theorem roundRobin_of_calls (calls : List NamesCall) (prefs : AddrPref) :
    RoundRobin (calls.foldl call empty) prefs :=
  roundRobin _ prefs

/-- Without addresses the index is 0. -/
theorem not_below_empty : ¬ ∀ (calls : List NamesCall) (prefs : AddrPref),
    RoundRobin (calls.foldl call empty) prefs ∧
      ((calls.foldl call empty).get prefs).1.lastAccessIndex <
        (calls.foldl call empty).addrs.length := by
  intro h
  exact absurd (h [] .AnyAddr).2 (by decide)

end Epoller.ResolverImpl.Names
