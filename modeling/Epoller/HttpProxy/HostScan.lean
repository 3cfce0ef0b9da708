import Epoller.HttpProxy

/-!
# Reads Behind the Header

The loop of `received` over the lines of the header skips the line feeds at the
start of each line without a test for the end. Here a read at `header.end()` stops
the loop, whatever byte stands there in memory.

## Contents

- `skipLineFeeds`, `hostLoop`: the loops
- `Overruns`: only line feeds stand behind the last carriage return
- `staysInside_iff_not_overruns`: which headers are read within their bounds
-/

namespace Epoller

open Foundation

/-- `while(*start == '\n') ++start` -/
def skipLineFeeds : (start : Bytes) → Except ProxyHalt Bytes
  | [] => .error .pastEnd
  | b :: rest => if b = LF then skipLineFeeds rest else .ok (b :: rest)

theorem skipLineFeeds_eq (start : Bytes) : skipLineFeeds start =
    if start.dropWhile (· = LF) = [] then .error .pastEnd else .ok (start.dropWhile (· = LF)) := by
  induction start with
  | nil => rfl
  | cons b rest ih =>
    rw [skipLineFeeds, List.dropWhile_cons]
    by_cases hb : b = LF
    · rw [if_pos hb, if_pos (decide_eq_true hb), ih]
    · rw [if_neg hb, if_neg (fun htrue => hb (of_decide_eq_true htrue)),
        if_neg (List.cons_ne_nil _ _)]

theorem length_le_of_skipLineFeeds {start line : Bytes} (h : skipLineFeeds start = .ok line) :
    line.length ≤ start.length := by
  rw [skipLineFeeds_eq] at h
  split at h <;> cases h
  exact (List.dropWhile_suffix _).length_le

/-- The loop over the lines from `start` on -/
def hostLoop (host start : Bytes) : Except ProxyHalt Bytes :=
  if start = [] then .ok host
  else
    match _hskip : skipLineFeeds start with
    | .error e => .error e
    | .ok line =>
      match _hcr : line.dropWhile (· ≠ CR) with
      | [] => .ok host
      | _ :: rest =>
        let host := hostOf host (line.takeWhile (· ≠ CR))
        if rest = [] then .ok host else hostLoop host rest
termination_by start.length
decreasing_by
  -- a line and its carriage return are behind `rest`
  have hline := length_le_of_skipLineFeeds _hskip
  have hrest := (List.dropWhile_suffix (· ≠ CR) (l := line)).length_le
  rw [_hcr, List.length_cons] at hrest
  exact lt_of_lt_of_le hrest hline

/-- The loop ends, and each read is within the header. -/
def StaysInside (header : Bytes) : Prop := ∃ host, hostLoop [] header = .ok host

/-- Something stands behind the last carriage return, and it is nothing but line feeds. -/
def Overruns (header : Bytes) : Prop :=
  remainder CR header ≠ [] ∧ ∀ b ∈ remainder CR header, b = LF

instance (header : Bytes) : Decidable (Overruns header) :=
  inferInstanceAs (Decidable (_ ∧ ∀ b ∈ remainder CR header, b = LF))

/-- What `scanHost` does with a line behind the line feeds. -/
theorem scanHost_line {behind : UInt8} {start line : Bytes} (hne : start ≠ [])
    (hskip : skipLineFeeds start = .ok line) (host : Bytes) :
    scanHost behind host start =
      match line.dropWhile (· ≠ CR) with
      | [] => .ok host
      | _ :: rest =>
        let host := hostOf host (line.takeWhile (· ≠ CR))
        if rest = [] then .ok host else scanHost behind host rest := by
  rw [skipLineFeeds_eq] at hskip
  split at hskip <;> cases hskip
  rename_i hline
  rw [scanHost, if_neg hne, if_neg fun hfeeds => hline hfeeds.1]
  simp only
  split <;> rename_i hcr <;> rw [hcr]

/-- **The loop** is the one that may go on in memory, for the byte that makes it do so. -/
theorem hostLoop_eq_scanHost (host data : Bytes) : hostLoop host data = scanHost LF host data := by
  -- the end of the header, line feeds up to it, no carriage return, the last line, one more line
  fun_induction hostLoop host data with
  | case1 host => rw [scanHost, if_pos rfl]
  | case2 host start hne e hskip =>
    rw [skipLineFeeds_eq] at hskip
    split at hskip <;> cases hskip
    rename_i hfeeds
    rw [scanHost, if_neg hne, if_pos ⟨hfeeds, rfl⟩]
  | case3 host start hne line hskip hcr => rw [scanHost_line hne hskip, hcr]
  | case4 host start hne line hskip b next hcr =>
    rw [scanHost_line hne hskip, hcr]
    exact (if_pos rfl).symm
  | case5 host start hne line hskip b rest hcr next hrest ih =>
    rw [scanHost_line hne hskip, hcr, ih]
    exact (if_neg hrest).symm

theorem hostLoop_eq (host data : Bytes) : hostLoop host data =
    if Overruns data then .error .pastEnd else .ok ((named (lines data)).getLastD host) := by
  -- a line feed in memory makes the loop stray just where it overruns
  have hstrays : Strays LF data ↔ Overruns data := and_iff_right rfl
  rw [hostLoop_eq_scanHost, scanHost_eq]
  simp only [hstrays]

/-- **Overruns**: the loop ends and stays inside the header if and only if something else than line
feeds, or nothing, stands behind the last carriage return. -/
theorem staysInside_iff_not_overruns (header : Bytes) :
    StaysInside header ↔ ¬ Overruns header := by
  rw [StaysInside, hostLoop_eq]
  split
  · exact iff_of_false nofun (not_not_intro ‹_›)
  · exact iff_of_true ⟨_, rfl⟩ ‹_›

/-- Behind the two line ends nothing stands but the last line feed. -/
theorem not_staysInside_double_cr :
    ¬ ∀ header : Bytes, DOUBLE_CR <:+: header → StaysInside header := by
  intro h
  have hremainder : remainder CR DOUBLE_CR = [LF] :=
    (remainder_append_cons [CR, LF] [LF]).trans (remainder_of_notMem (by decide))
  have hoverruns : Overruns DOUBLE_CR := by
    rw [Overruns, hremainder]
    exact ⟨List.cons_ne_nil _ _, fun b hb => List.mem_singleton.mp hb⟩
  obtain ⟨host, hhost⟩ := h DOUBLE_CR List.infix_rfl
  rw [hostLoop_eq, if_pos hoverruns] at hhost
  cases hhost

end Epoller
