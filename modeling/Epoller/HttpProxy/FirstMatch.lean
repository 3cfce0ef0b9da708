import Epoller.HttpProxy

/-!
# Where a Match Begins

`findFirstPattern` reports where the match that it finds begins and ends. After a
character that does not match it starts over with the next one, but takes down the
position of the one that did not match.

## Contents

- `Occurs`: the pattern stands at a position of the text
- `FindsLeftmost`: what the search promises
- `findLoop_some`, `findFirstPattern_cases`: what the loop and the search report
- `findsLeftmost_iff`: where the pattern has to stand for the promise to be kept
-/

namespace Epoller

/-- The pattern stands at position `i`. -/
def Occurs (pattern data : Bytes) (i : ℕ) : Prop :=
  i + pattern.length ≤ data.length ∧
    ∀ j c, pattern[j]? = some c → ∃ b, data[i + j]? = some b ∧ Matches c b

/-- **The promise**: the first and the last position of the leftmost occurrence are reported, and
the end twice just if there is none. -/
def FindsLeftmost (pattern data : Bytes) : Prop :=
  (∀ i, Occurs pattern data i → (∀ j < i, ¬ Occurs pattern data j) →
      findFirstPattern data pattern = (i, i + pattern.length - 1)) ∧
    (findFirstPattern data pattern = (data.length, data.length) ↔
      ∀ i, ¬ Occurs pattern data i)

variable {pattern data rest : Bytes} {pos matchBegin matchPos : ℕ} {m : ℕ × ℕ}

/-- The first characters of the pattern stand at position `i`. -/
def OccursUpTo (pattern data : Bytes) (i matchPos : ℕ) : Prop :=
  ∀ j < matchPos, ∀ c, pattern[j]? = some c → ∃ b, data[i + j]? = some b ∧ Matches c b

theorem occursUpTo_zero (i : ℕ) : OccursUpTo pattern data i 0 :=
  fun j hj => absurd hj (Nat.not_lt_zero j)

theorem OccursUpTo.succ {i : ℕ} {c b : UInt8} (h : OccursUpTo pattern data i matchPos)
    (hc : pattern[matchPos]? = some c) (hb : data[i + matchPos]? = some b) (hmatch : Matches c b) :
    OccursUpTo pattern data i (matchPos + 1) := by
  intro j hj c' hc'
  rcases Nat.lt_succ_iff_lt_or_eq.mp hj with hlt | rfl
  · exact h j hlt c' hc'
  · rw [hc] at hc'
    cases hc'
    exact ⟨b, hb, hmatch⟩

theorem OccursUpTo.occurs {i : ℕ} (h : OccursUpTo pattern data i pattern.length)
    (hlength : i + pattern.length ≤ data.length) : Occurs pattern data i :=
  ⟨hlength, fun j c hc => h j (List.getElem?_eq_some_iff.mp hc).1 c hc⟩

/-- The state of the loop: before the first mismatch it reports the start of the text, and after one
the position in front of what matches. -/
def Reports (matchBegin i : ℕ) : Prop := matchBegin = 0 ∧ i = 0 ∨ i = matchBegin + 1

/-- **What the loop reports**: an occurrence that begins where it says only at the start of the
text, and one position later otherwise. -/
theorem findLoop_some {i : ℕ} (hdata : data.drop pos = rest) (hpos : pos = i + matchPos)
    (hle : pos ≤ data.length) (hupTo : OccursUpTo pattern data i matchPos)
    (hreports : Reports matchBegin i) (h : findLoop pattern rest pos matchBegin matchPos = some m) :
    ∃ i, Occurs pattern data i ∧ Reports m.1 i ∧ m.2 + 1 = i + pattern.length := by
  -- one character of the text at a time; `i` is where the current attempt began
  induction rest generalizing pos matchBegin matchPos i with
  | nil => cases h
  | cons b rest ih =>
    have hlt : pos < data.length := by
      by_contra hge
      rw [List.drop_eq_nil_of_le (not_lt.mp hge)] at hdata
      cases hdata
    rw [List.drop_eq_getElem_cons hlt] at hdata
    obtain ⟨hget, hrest⟩ := List.cons.inj hdata
    have hb : data[i + matchPos]? = some b := by
      rw [← hpos, List.getElem?_eq_getElem hlt, hget]
    rw [findLoop] at h
    split at h
    · rename_i c hc
      split at h
      · rename_i hmatch
        have hupTo' := hupTo.succ hc hb hmatch
        split at h
        -- the last character of the pattern: this attempt is reported
        · rename_i hlast
          cases h
          rw [hlast] at hupTo'
          exact ⟨i, hupTo'.occurs (by omega), hreports, by simp only; omega⟩
        · exact ih hrest (by omega) hlt hupTo' hreports h
      · -- what matches next begins behind this character
        exact ih hrest (Nat.add_zero _).symm hlt (occursUpTo_zero _) (Or.inr rfl) h
    · cases h

/-- As long as everything matches, the start of the text is reported. -/
theorem findLoop_of_occurs (hdata : data.drop pos = rest) (hmatchPos : pos < pattern.length)
    (h : Occurs pattern data 0) :
    findLoop pattern rest pos 0 pos = some (0, pattern.length - 1) := by
  obtain ⟨hlength, hmatches⟩ := h
  rw [Nat.zero_add] at hlength
  induction rest generalizing pos with
  | nil =>
    have hge := List.drop_eq_nil_iff.mp hdata
    omega
  | cons b rest ih =>
    have hlt : pos < data.length := by omega
    rw [List.drop_eq_getElem_cons hlt] at hdata
    obtain ⟨hget, hrest⟩ := List.cons.inj hdata
    have hc := List.getElem?_eq_getElem hmatchPos
    obtain ⟨b', hb', hmatch⟩ := hmatches pos _ hc
    rw [Nat.zero_add, List.getElem?_eq_getElem hlt, hget] at hb'
    cases hb'
    rw [findLoop, hc]
    simp only [if_pos hmatch]
    split
    · rename_i hlast
      rw [← hlast, Nat.add_sub_cancel]
    · exact ih hrest (by omega)

/-- **What the search reports**: the end twice, or what the loop says of an occurrence. -/
theorem findFirstPattern_cases (pattern data : Bytes) :
    findFirstPattern data pattern = (data.length, data.length) ∨
      ∃ i, Occurs pattern data i ∧ Reports (findFirstPattern data pattern).1 i ∧
        (findFirstPattern data pattern).2 + 1 = i + pattern.length := by
  unfold findFirstPattern
  cases hloop : findLoop pattern data 0 0 0 with
  | none => exact Or.inl rfl
  | some m =>
    exact Or.inr (findLoop_some rfl rfl (Nat.zero_le _) (occursUpTo_zero 0) (Or.inl ⟨rfl, rfl⟩)
      hloop)

/-- Without an occurrence the end is reported. -/
theorem findFirstPattern_of_forall_not_occurs (h : ∀ i, ¬ Occurs pattern data i) :
    findFirstPattern data pattern = (data.length, data.length) := by
  rcases findFirstPattern_cases pattern data with hend | ⟨i, hoccurs, -⟩
  · exact hend
  · exact absurd hoccurs (h i)

/-- At the start of the text the first attempt succeeds. -/
theorem findFirstPattern_of_occurs_zero (hpattern : pattern ≠ []) (h : Occurs pattern data 0) :
    findFirstPattern data pattern = (0, pattern.length - 1) := by
  have hloop : findLoop pattern data 0 0 0 = _ :=
    findLoop_of_occurs rfl (List.length_pos_iff.mpr hpattern) h
  rw [findFirstPattern, hloop, Option.getD_some]

/-- An occurrence that is reported where it begins stands at the start of the text. -/
theorem occurs_zero_of_reported {i : ℕ} (hpattern : pattern ≠ []) (h : Occurs pattern data i)
    (hreport : findFirstPattern data pattern = (i, i + pattern.length - 1)) :
    Occurs pattern data 0 := by
  have hpos := List.length_pos_iff.mpr hpattern
  rcases findFirstPattern_cases pattern data with hend | ⟨i', -, hreports, hlast⟩
  · -- the occurrence begins before the end
    rw [hreport, Prod.mk.injEq] at hend
    have hlength := h.1
    omega
  · rw [hreport] at hreports hlast
    -- the last position tells which occurrence was found
    obtain rfl : i' = i := by
      simp only at hlast
      omega
    rcases hreports with ⟨-, rfl⟩ | hlate
    · exact h
    · simp only at hlate
      omega

/-- If the pattern stands anywhere, it has a leftmost occurrence. -/
theorem exists_leftmost (h : ¬ ∀ i, ¬ Occurs pattern data i) :
    ∃ i, Occurs pattern data i ∧ ∀ j < i, ¬ Occurs pattern data j := by
  classical
  have hexists : ∃ i, Occurs pattern data i := not_forall_not.mp h
  exact ⟨Nat.find hexists, Nat.find_spec hexists, fun j hj => Nat.find_min hexists hj⟩

/-- **Leftmost**: the search keeps its promise if and only if the pattern stands at the start of the
text, or nowhere in it. -/
theorem findsLeftmost_iff (hpattern : pattern ≠ []) : FindsLeftmost pattern data ↔
    Occurs pattern data 0 ∨ ∀ i, ¬ Occurs pattern data i := by
  constructor
  · rintro ⟨hfirst, -⟩
    by_cases hnone : ∀ i, ¬ Occurs pattern data i
    · exact Or.inr hnone
    · -- the promise speaks about the leftmost occurrence
      obtain ⟨i, hoccurs, hmin⟩ := exists_leftmost hnone
      exact Or.inl (occurs_zero_of_reported hpattern hoccurs (hfirst i hoccurs hmin))
  · rintro (hstart | hnone)
    · have hfind := findFirstPattern_of_occurs_zero hpattern hstart
      refine ⟨fun i _ hmin => ?_, iff_of_false (fun hend => ?_) fun hnone => hnone 0 hstart⟩
      · obtain rfl : i = 0 := Nat.eq_zero_of_not_pos fun hi => hmin 0 hi hstart
        rw [hfind, Nat.zero_add]
      · rw [hfind, Prod.mk.injEq] at hend
        have hpos := List.length_pos_iff.mpr hpattern
        have hlength := hstart.1
        omega
    · exact ⟨fun i hoccurs => absurd hoccurs (hnone i),
        iff_of_true (findFirstPattern_of_forall_not_occurs hnone) hnone⟩

/-- The pattern `ab` at the start of `aba` -/
theorem findsLeftmost_aba : FindsLeftmost [0x61, 0x62] [0x61, 0x62, 0x61] := by
  refine (findsLeftmost_iff (by decide)).mpr (Or.inl ⟨by decide, fun j c hc => ?_⟩)
  match j, hc with
  | 0, rfl => exact ⟨0x61, rfl, Or.inl rfl⟩
  | 1, rfl => exact ⟨0x62, rfl, Or.inl rfl⟩

/-- In `xab` the match of `ab` begins at position 1, and position 0 is reported. -/
theorem not_findsLeftmost_xab :
    ¬ ∀ pattern data : Bytes, pattern ≠ [] → FindsLeftmost pattern data := by
  intro h
  have hsecond : Occurs [0x61, 0x62] [0x78, 0x61, 0x62] 1 := by
    refine ⟨by decide, fun j c hc => ?_⟩
    match j, hc with
    | 0, rfl => exact ⟨0x61, rfl, Or.inl rfl⟩
    | 1, rfl => exact ⟨0x62, rfl, Or.inl rfl⟩
  have hfirst : ∀ j < 1, ¬ Occurs [0x61, 0x62] [0x78, 0x61, 0x62] j := by
    rintro j hj ⟨-, hmatches⟩
    obtain rfl := Nat.lt_one_iff.mp hj
    obtain ⟨b, hb, hmatch⟩ := hmatches 0 0x61 rfl
    cases hb
    exact absurd hmatch (by decide)
  exact absurd ((h _ _ (by decide)).1 1 hsecond hfirst) (by decide)

end Epoller
