import Epoller.Types
import Epoller.Foundation.Search

/-!
# The HTTP Proxy

`HttpProxy::received` of `main.cpp` with the search it decides by. The bytes of
the client are collected until the end of a request head is found among them;
then a `Remote` is created, which is given what was collected and, while it
lives, everything that comes later.

- `findFirstPattern`: the search
- `scanHost`: the loop over the lines of the header
- `HttpProxy`, `ProxyCall`, `received`: the members, the calls it makes, the function
- `lines`, `named`: the lines that end in the buffer, and the hosts they name
-/

namespace Epoller

open Foundation

/-! ## Characters -/

def CR : UInt8 := 0x0d

def LF : UInt8 := 0x0a

/-- The character that stands for any other one in a pattern -/
def QUESTION_MARK : UInt8 := 0x3f

def DOUBLE_CR : Bytes := [CR, LF, CR, LF]

/-- `HOST:?` -/
def HOST : Bytes := [0x48, 0x4f, 0x53, 0x54, COLON, QUESTION_MARK]

/-- `CONNECT` and a space -/
def CONNECT : Bytes := [0x43, 0x4f, 0x4e, 0x4e, 0x45, 0x43, 0x54, 0x20]

/-- `HTTP/1.1 200 OK` and two line feeds -/
def OK_REPLY : Bytes :=
  [0x48, 0x54, 0x54, 0x50, 0x2f, 0x31, 0x2e, 0x31, 0x20, 0x32, 0x30, 0x30, 0x20, 0x4f, 0x4b, LF, LF]

/-- `::tolower` -/
def tolower (c : UInt8) : UInt8 := if 0x41 ≤ c ∧ c ≤ 0x5a then c + 0x20 else c

/-! ## The Search -/

/-- A character of the text matches one of the pattern. -/
def Matches (c b : UInt8) : Prop := tolower b = tolower c ∨ c = QUESTION_MARK

instance (c b : UInt8) : Decidable (Matches c b) := inferInstanceAs (Decidable (_ ∨ _))

/-- The loop of `findFirstPattern` from index `pos` on. -/
def findLoop (pattern : Bytes) : Bytes → (pos matchBegin matchPos : ℕ) → Option (ℕ × ℕ)
  | [], _, _, _ => none
  | b :: rest, pos, matchBegin, matchPos =>
    match pattern[matchPos]? with
    | some c =>
      if Matches c b then
        if matchPos + 1 = pattern.length then some (matchBegin, pos)
        else findLoop pattern rest (pos + 1) matchBegin (matchPos + 1)
      else findLoop pattern rest (pos + 1) pos 0
    -- `matchPos` never leaves a pattern that is not empty
    | none => none

/-- `findFirstPattern`; iterators are indices, and `end` is the length. -/
def findFirstPattern (data pattern : Bytes) : ℕ × ℕ :=
  (findLoop pattern data 0 0 0).getD (data.length, data.length)

/-- The two iterators differ. -/
def Found (data pattern : Bytes) : Prop :=
  (findFirstPattern data pattern).1 ≠ (findFirstPattern data pattern).2

instance (data pattern : Bytes) : Decidable (Found data pattern) :=
  inferInstanceAs (Decidable (_ ≠ _))

/-! ## The Host -/

/-- The body of the loop over the lines: the host of the line `getPost`, if it has one. -/
def hostOf (host getPost : Bytes) : Bytes :=
  if Found getPost HOST then
    (getPost.drop ((findFirstPattern getPost HOST).2 + 1)).takeWhile (· ≠ COLON)
  else host

/-- Why `received` stops. -/
inductive ProxyHalt where
  /-- `start` has left the buffer. -/
  | pastEnd
deriving DecidableEq, Repr

/-- The loop over the lines from `start` on; `behind` is the byte in memory at `header.end()`. -/
def scanHost (behind : UInt8) (host start : Bytes) : Except ProxyHalt Bytes :=
  if start = [] then .ok host
  else
    -- skipping line feeds does not stop at the end of the buffer
    if start.dropWhile (· = LF) = [] ∧ behind = LF then .error .pastEnd
    else
      let line := start.dropWhile (· = LF)
      match _hcr : line.dropWhile (· ≠ CR) with
      | [] => .ok host
      | _ :: rest =>
        let host := hostOf host (line.takeWhile (· ≠ CR))
        if rest = [] then .ok host else scanHost behind host rest
termination_by start.length
decreasing_by
  have hline := (List.dropWhile_suffix (· = LF) (l := start)).length_le
  have hrest := (List.dropWhile_suffix (· ≠ CR) (l := line)).length_le
  rw [_hcr, List.length_cons] at hrest
  exact lt_of_lt_of_le hrest hline

/-! ## The Proxy -/

/-- `HttpProxy`: the members that `received` uses -/
structure HttpProxy where
  header : Bytes
  /-- `ep.lock()` gives a `Remote`. -/
  ep : Bool
deriving DecidableEq, Repr

/-- A call that `received` makes. -/
inductive ProxyCall where
  /-- `doWrite` of the `Remote` -/
  | doWrite (x : Bytes)
  /-- `disconnect` of the stream to the client -/
  | disconnect
  /-- `TcpConnection::create` with a new `Remote`, whose `initWrite` is given -/
  | create (host : Bytes) (port : UInt16) (initWrite : Bytes)
  /-- `queueWrite` to the client -/
  | queueWrite (x : Bytes)
deriving DecidableEq, Repr

/-- The bytes that a call hands to a `Remote`. -/
def ProxyCall.handed : ProxyCall → Bytes
  | .create _ _ initWrite => initWrite
  | .doWrite x => x
  | .disconnect | .queueWrite _ => []

/-- What is passed to `received`, and the byte in memory behind the header that is looked at. -/
structure Chunk where
  data : Bytes
  behind : UInt8
deriving DecidableEq, Repr

namespace HttpProxy

def init : HttpProxy := ⟨[], false⟩

/-- `received` -/
def received (s : HttpProxy) (behind : UInt8) (x : Bytes) :
    Except ProxyHalt (HttpProxy × List ProxyCall) :=
  if s.ep = true then .ok (s, [.doWrite x])
  else
    let header := s.header ++ x
    if header.length < 4 then .ok ({ s with header }, [])
    else
      let doubleCr := findFirstPattern header DOUBLE_CR
      if doubleCr.1 = doubleCr.2 then .ok ({ s with header }, [.disconnect])
      else do
        let host ← scanHost behind [] header
        let it := findFirstPattern header CONNECT
        let (header, port) : Bytes × UInt16 :=
          if it.1 ≠ it.2 then (header.drop (doubleCr.2 + 1), 443) else (header, 80)
        .ok (⟨header, true⟩, .create host port header ::
          if port = 443 then [.queueWrite OK_REPLY] else [])

end HttpProxy

/-- `GET / HTTP/1.1` with the field `Host: a` -/
def plainRequest : Bytes :=
  [0x47, 0x45, 0x54, 0x20, 0x2f, 0x20, 0x48, 0x54, 0x54, 0x50, 0x2f, 0x31, 0x2e, 0x31, CR, LF,
    0x48, 0x6f, 0x73, 0x74, COLON, 0x20, 0x61, CR, LF, CR, LF]

/-! ## What the Search Finds -/

/-- `Matches`, as a test -/
abbrev accepts (c b : UInt8) : Bool := decide (Matches c b)

/-- The search as an automaton: behind how many characters the first match ends. -/
def search (data pattern : Bytes) : Option ℕ :=
  scan accepts pattern pattern data

variable {data pattern : Bytes} {pos matchBegin matchPos k : ℕ} {m : ℕ × ℕ}

/-- The second index is that of the last character of what the automaton finds. -/
theorem findLoop_second (hpos : matchPos < pattern.length) :
    (findLoop pattern data pos matchBegin matchPos).map (fun m => m.2 + 1) =
      (scan accepts pattern (pattern.drop matchPos) data).map
        (pos + ·) := by
  induction data generalizing pos matchBegin matchPos with
  | nil => rfl
  | cons b rest ih =>
    have hne : pattern ≠ [] := List.ne_nil_of_length_pos (by omega)
    have hback (o : Option ℕ) : (o.map (· + 1)).map (pos + ·) = o.map (pos + 1 + ·) := by
      rw [Option.map_map]
      refine congrArg (Option.map · o) (funext fun k => ?_)
      simp only [Function.comp]
      omega
    rw [scan_cons, List.drop_eq_getElem_cons hpos, advance, findLoop,
      List.getElem?_eq_getElem hpos]
    simp only [decide_eq_true_eq]
    split
    · by_cases hlast : matchPos + 1 = pattern.length
      · rw [if_pos hlast, hlast, List.drop_length, if_pos rfl]
        rfl
      · have hleft : pattern.drop (matchPos + 1) ≠ [] := by
          rw [Ne, List.drop_eq_nil_iff]
          omega
        rw [if_neg hlast, if_neg hleft, hback]
        exact ih (by omega)
    · rw [hback]
      exact ih (by omega)

/-- The two indices differ. -/
theorem findLoop_first_lt (hpattern : 2 ≤ pattern.length)
    (hbegin : matchBegin < pos ∨ (matchBegin = pos ∧ matchPos = 0))
    (h : findLoop pattern data pos matchBegin matchPos = some m) : m.1 < m.2 := by
  induction data generalizing pos matchBegin matchPos with
  | nil => cases h
  | cons b rest ih =>
    rw [findLoop] at h
    split at h
    · split at h
      · split at h
        · rcases hbegin with hlt | ⟨-, rfl⟩
          · cases h
            exact hlt
          · omega
        · exact ih (by omega) h
      · exact ih (.inl (Nat.lt_succ_self pos)) h
    · cases h

theorem search_eq (hpattern : 2 ≤ pattern.length) : search data pattern =
    (findLoop pattern data 0 0 0).map fun m => m.2 + 1 := by
  rw [findLoop_second (by omega), List.drop_zero, search]
  simp

/-- **The search**: `findFirstPattern` finds what the automaton finds. -/
theorem found_iff (hpattern : 2 ≤ pattern.length) :
    Found data pattern ↔ (search data pattern).isSome = true := by
  rw [search_eq hpattern, Option.isSome_map, Found, findFirstPattern]
  cases hloop : findLoop pattern data 0 0 0 with
  | none => simp
  | some m => simpa using (findLoop_first_lt hpattern (.inr ⟨rfl, rfl⟩) hloop).ne

theorem second_of_search (hpattern : 2 ≤ pattern.length) (h : search data pattern = some k) :
    (findFirstPattern data pattern).2 + 1 = k := by
  rw [search_eq hpattern] at h
  obtain ⟨m, hm, rfl⟩ := Option.map_eq_some_iff.mp h
  rw [findFirstPattern, hm, Option.getD_some]

/-! ## Lines -/

/-- The lines that a carriage return ends. -/
def lines (data : Bytes) : List Bytes := (terminated CR data).map (·.dropWhile (· = LF))

/-- The host that a line names. -/
def hostIn (line : Bytes) : Option Bytes :=
  (search line HOST).map fun k => (line.drop k).takeWhile (· ≠ COLON)

/-- The hosts that the lines name, in order. -/
def named (ls : List Bytes) : List Bytes := ls.filterMap hostIn

/-- Only line feeds stand behind the last carriage return, and one more in memory: skipping them
does not stop. -/
def Strays (behind : UInt8) (data : Bytes) : Prop :=
  behind = LF ∧ remainder CR data ≠ [] ∧ ∀ b ∈ remainder CR data, b = LF

instance (behind : UInt8) (data : Bytes) : Decidable (Strays behind data) :=
  inferInstanceAs (Decidable (_ ∧ _ ∧ ∀ b ∈ remainder CR data, b = LF))

theorem hostOf_eq (host line : Bytes) : hostOf host line = (hostIn line).getD host := by
  have hlen : 2 ≤ HOST.length := by decide
  rw [hostOf, hostIn]
  simp only [found_iff hlen]
  cases hsearch : search line HOST with
  | none => rfl
  | some k =>
    rw [second_of_search hlen hsearch]
    rfl

theorem named_cons_of_none {line : Bytes} (h : hostIn line = none) (ls : List Bytes) :
    named (line :: ls) = named ls := List.filterMap_cons_none h

theorem named_cons_of_some {line host : Bytes} (h : hostIn line = some host) (ls : List Bytes) :
    named (line :: ls) = host :: named ls := List.filterMap_cons_some h

@[simp] theorem lines_nil : lines [] = [] := by
  rw [lines, terminated_of_notMem List.not_mem_nil, List.map_nil]

theorem lines_of_notMem (h : CR ∉ data) : lines data = [] := by
  rw [lines, terminated_of_notMem h, List.map_nil]

theorem lines_append_cons {line : Bytes} (h : CR ∉ line) (rest : Bytes) :
    lines (line ++ CR :: rest) = line.dropWhile (· = LF) :: lines rest := by
  rw [lines, terminated_append_cons h, List.map_cons, lines]

theorem strays_of_notMem {behind : UInt8} (h : CR ∉ data) :
    Strays behind data ↔ data ≠ [] ∧ data.dropWhile (· = LF) = [] ∧ behind = LF := by
  rw [Strays, remainder_of_notMem h, List.dropWhile_eq_nil_iff]
  simp only [decide_eq_true_eq]
  exact ⟨fun ⟨h₁, h₂, h₃⟩ => ⟨h₂, h₃, h₁⟩, fun ⟨h₁, h₂, h₃⟩ => ⟨h₃, h₁, h₂⟩⟩

theorem strays_append_cons {behind : UInt8} (line rest : Bytes) :
    Strays behind (line ++ CR :: rest) ↔ Strays behind rest := by
  rw [Strays, remainder_append_cons, Strays]

/-- Without a carriage return the loop ends at once. -/
theorem scanHost_of_notMem {behind : UInt8} (h : CR ∉ data) (host : Bytes) :
    scanHost behind host data = if Strays behind data then .error .pastEnd else .ok host := by
  have hline : (data.dropWhile (· = LF)).dropWhile (· ≠ CR) = [] := by
    refine List.dropWhile_eq_nil_iff.mpr fun b hb => decide_eq_true fun heq => h ?_
    exact heq ▸ (List.dropWhile_sublist _).subset hb
  rw [scanHost]
  simp only [strays_of_notMem h]
  split
  · rename_i hnil
    rw [if_neg fun hstrays => hstrays.1 hnil]
  · rename_i hne
    simp only [ne_eq, hne, not_false_eq_true, true_and]
    split
    · rfl
    · split
      · rfl
      · rename_i hcr
        rw [hline] at hcr
        cases hcr

/-- A line that ends is looked at, and then the rest. -/
theorem scanHost_append_cons {behind : UInt8} {line : Bytes} (h : CR ∉ line) (host rest : Bytes) :
    scanHost behind host (line ++ CR :: rest) =
      scanHost behind ((hostIn (line.dropWhile (· = LF))).getD host) rest := by
  have hskip : (line ++ CR :: rest).dropWhile (· = LF) = line.dropWhile (· = LF) ++ CR :: rest := by
    rw [List.dropWhile_append]
    split
    · rename_i hnil
      rw [List.isEmpty_iff.mp hnil]
      rfl
    · rfl
  -- behind the skipped line feeds stands no carriage return before the one at the end
  have hline : ∀ b ∈ line.dropWhile (· = LF), decide (b ≠ CR) = true := fun b hb =>
    decide_eq_true fun heq => h (heq ▸ (List.dropWhile_sublist _).subset hb)
  have hstop : (line.dropWhile (· = LF) ++ CR :: rest).dropWhile (· ≠ CR) = CR :: rest := by
    rw [List.dropWhile_append_of_pos hline]
    rfl
  have hget : (line.dropWhile (· = LF) ++ CR :: rest).takeWhile (· ≠ CR) =
      line.dropWhile (· = LF) := by
    rw [List.takeWhile_append_of_pos hline]
    exact List.append_nil _
  rw [scanHost, if_neg (by simp), hskip, if_neg (by simp)]
  simp only
  split
  · rename_i hcr
    rw [hstop] at hcr
    cases hcr
  · rename_i b rest' hcr
    rw [hstop] at hcr
    cases hcr
    rw [hget, hostOf_eq]
    split
    · rename_i hnil
      rw [hnil, scanHost, if_pos rfl]
    · rfl

/-- **The loop over the lines** ends with the host that the last line names that names one. -/
theorem scanHost_eq (behind : UInt8) (host data : Bytes) :
    scanHost behind host data = if Strays behind data then .error .pastEnd
      else .ok ((named (lines data)).getLastD host) := by
  induction data using cut_induction CR generalizing host with
  | rest xs h =>
    rw [scanHost_of_notMem h, lines_of_notMem h]
    rfl
  | segment xs ys h ih =>
    simp only [scanHost_append_cons h, ih, lines_append_cons h, strays_append_cons]
    cases hhost : hostIn (xs.dropWhile (· = LF)) with
    | none => rw [named_cons_of_none hhost, Option.getD_none]
    | some next => rw [named_cons_of_some hhost, Option.getD_some, List.getLastD_cons]

/-! ## What `received` Does -/

namespace HttpProxy

/-- What a new `Remote` is given of the header, if a head of `k` bytes ends in it: all of it, or
for a tunnel what stands behind the head. -/
def forwarded (header : Bytes) (k : ℕ) : Bytes :=
  if (search header CONNECT).isSome = true then header.drop k else header

/-- The calls made for a header that names the host. -/
def openRemote (header : Bytes) (k : ℕ) : List ProxyCall :=
  let host := (named (lines header)).getLastD []
  if (search header CONNECT).isSome = true then
    [.create host 443 (header.drop k), .queueWrite OK_REPLY]
  else [.create host 80 header]

variable {s : HttpProxy} {behind : UInt8} {x : Bytes}

theorem received_alive (h : s.ep = true) : s.received behind x = .ok (s, [.doWrite x]) := by
  rw [received, if_pos h]

theorem received_short (h : s.ep = false) (hshort : (s.header ++ x).length < 4) :
    s.received behind x = .ok (⟨s.header ++ x, false⟩, []) := by
  rw [received, if_neg (by simp [h]), if_pos hshort, h]

/-- No head ends in the header. -/
theorem received_headless (h : s.ep = false) (hlong : ¬ (s.header ++ x).length < 4)
    (hhead : search (s.header ++ x) DOUBLE_CR = none) :
    s.received behind x = .ok (⟨s.header ++ x, false⟩, [.disconnect]) := by
  have hfound : ¬ Found (s.header ++ x) DOUBLE_CR := by
    rw [found_iff (by decide), hhead]
    exact Bool.false_ne_true
  rw [received, if_neg (by simp [h]), if_neg hlong, if_pos (not_not.mp hfound), h]

/-- A head ends in the header. -/
theorem received_request (h : s.ep = false) (hhead : search (s.header ++ x) DOUBLE_CR = some k) :
    s.received behind x = if Strays behind (s.header ++ x) then .error .pastEnd
      else .ok (⟨forwarded (s.header ++ x) k, true⟩, openRemote (s.header ++ x) k) := by
  have hlong : ¬ (s.header ++ x).length < 4 := by
    have hk : 4 ≤ k := le_of_scan (le_refl _) hhead
    have hlen : k ≤ (s.header ++ x).length := scan_le hhead
    omega
  have hfound : Found (s.header ++ x) DOUBLE_CR := (found_iff (by decide)).mpr (by rw [hhead]; rfl)
  have hend := second_of_search (by decide) hhead
  rw [received, if_neg (by simp [h]), if_neg hlong, if_neg hfound, scanHost_eq]
  split
  · rfl
  · have hconnect : Found (s.header ++ x) CONNECT ↔ _ := found_iff (by decide)
    simp only [ok_bind, hend, forwarded, openRemote, ← hconnect, Found]
    split <;> rfl

end HttpProxy

end Epoller
