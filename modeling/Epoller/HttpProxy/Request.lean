import Epoller.HttpProxy

/-!
# Requests

A well-formed request and what the proxy makes of it. The host is looked for in
every line of the input, also in the request line, in other fields and in the
body, and the last line that seems to name one wins; the word that marks a tunnel
is looked for in all bytes.

## Contents

- `Request`: a request line, header fields with one named `Host`, and a body
- `lines_bytes`: the lines of its bytes
- `Request.Served`: the calls that the request asks for
- `served_iff_undisturbed`: when the proxy makes them
-/

namespace Epoller

open Foundation

/-! ## Well-Formed Requests -/

def SPACE : UInt8 := 0x20

/-- No line ends in it. -/
def OneLine (line : Bytes) : Prop := CR ∉ line ∧ LF ∉ line

/-- The line is a header field named `Host`, in any case. -/
def IsHostField (line : Bytes) : Prop :=
  COLON ∈ line ∧ (line.takeWhile (· ≠ COLON)).map tolower = [0x68, 0x6f, 0x73, 0x74]

instance (line : Bytes) : Decidable (OneLine line) := inferInstanceAs (Decidable (_ ∧ _))

instance (line : Bytes) : Decidable (IsHostField line) := inferInstanceAs (Decidable (_ ∧ _))

/-- A complete request head with exactly one field named `Host`, followed by a body. -/
structure Request where
  method : Bytes
  /-- The rest of the request line, behind a space -/
  target : Bytes
  /-- The header fields before the one named `Host` -/
  fieldsBefore : List Bytes
  /-- The name of that field, as it is spelled -/
  hostName : Bytes
  /-- What stands behind its colon -/
  hostRest : Bytes
  /-- The header fields behind it -/
  fieldsAfter : List Bytes
  body : Bytes
  method_line : OneLine method ∧ SPACE ∉ method
  target_line : OneLine target
  hostName_eq : hostName.map tolower = [0x68, 0x6f, 0x73, 0x74]
  hostRest_line : OneLine hostRest
  others : ∀ line ∈ fieldsBefore ++ fieldsAfter, line ≠ [] ∧ OneLine line ∧ ¬ IsHostField line

namespace Request

def requestLine (r : Request) : Bytes := r.method ++ SPACE :: r.target

def hostLine (r : Request) : Bytes := r.hostName ++ COLON :: r.hostRest

/-- The lines of the head, without the blank one. -/
def headLines (r : Request) : List Bytes :=
  r.requestLine :: (r.fieldsBefore ++ r.hostLine :: r.fieldsAfter)

def head (r : Request) : Bytes := (r.headLines.flatMap (· ++ [CR, LF])) ++ [CR, LF]

def bytes (r : Request) : Bytes := r.head ++ r.body

/-- The value of the field `Host`: a space behind the colon does not belong to it. -/
def hostValue (r : Request) : Bytes :=
  match r.hostRest with
  | [] => []
  | c :: rest => if c = SPACE then rest else c :: rest

/-- The host: the value up to a colon. -/
def host (r : Request) : Bytes := r.hostValue.takeWhile (· ≠ COLON)

/-- The method is `CONNECT`. -/
def IsTunnel (r : Request) : Prop := r.method = CONNECT.dropLast

instance (r : Request) : Decidable r.IsTunnel := inferInstanceAs (Decidable (_ = _))

/-- The calls that the request asks for. -/
def calls (r : Request) : List ProxyCall :=
  if r.IsTunnel then [.create r.host 443 r.body, .queueWrite OK_REPLY]
  else [.create r.host 80 r.bytes]

/-- The proxy makes them. -/
def Served (r : Request) (behind : UInt8) : Prop :=
  ∃ proxy, HttpProxy.init.received behind r.bytes = .ok (proxy, r.calls)

/-- The lines behind the field `Host`, without the blank one. -/
def linesBehind (r : Request) : List Bytes := r.fieldsAfter ++ lines r.body

/-- The field itself is read as meant: its value is not empty and stands behind a space, or an
empty host is read and meant. -/
def ReadsOwn (r : Request) : Prop :=
  match r.hostRest with
  | [] => (named (r.requestLine :: r.fieldsBefore)).getLastD [] = []
  | c :: rest => c = SPACE ∨ (c = COLON ∧ ∀ b ∈ rest.head?, b = COLON)

/-- Nothing in the input interferes. -/
structure Undisturbed (r : Request) (behind : UInt8) : Prop where
  /-- The word that marks a tunnel is found only if the method is `CONNECT`. -/
  tunnel : Found r.bytes CONNECT → r.IsTunnel
  /-- The last line behind the field that seems to name a host names the same. -/
  later : ∀ host ∈ (named r.linesBehind).getLast?, host = r.host
  own : named r.linesBehind = [] → r.ReadsOwn
  /-- Skipping line feeds stops inside the memory. -/
  stays : ¬ Strays behind r.bytes

variable {line rest : Bytes} {ls : List Bytes} {r : Request} {behind : UInt8}

/-! ## The Lines -/

theorem lines_cons_LF (data : Bytes) : lines (LF :: data) = lines data := by
  by_cases h : CR ∈ data
  · obtain ⟨line, rest, rfl, hline⟩ := List.eq_append_cons_of_mem h
    have hline' : CR ∉ LF :: line := by simpa [CR, LF] using hline
    rw [← List.cons_append, lines_append_cons hline', lines_append_cons hline]
    rfl
  · have h' : CR ∉ LF :: data := by simpa [CR, LF] using h
    rw [lines_of_notMem h, lines_of_notMem h']

/-- A line and its end. -/
theorem lines_line (h : OneLine line) (rest : Bytes) :
    lines (line ++ [CR, LF] ++ rest) = line :: lines rest := by
  have hskip : line.dropWhile (· = LF) = line := by
    cases line with
    | nil => rfl
    | cons b line =>
      have hb : b ≠ LF := fun heq => h.2 (heq ▸ List.mem_cons_self ..)
      rw [List.dropWhile_cons, if_neg (by simpa using hb)]
  rw [List.append_assoc]
  change lines (line ++ CR :: LF :: rest) = _
  rw [lines_append_cons h.1, hskip, lines_cons_LF]

theorem lines_flatMap (h : ∀ line ∈ ls, OneLine line) (rest : Bytes) :
    lines (ls.flatMap (· ++ [CR, LF]) ++ rest) = ls ++ lines rest := by
  induction ls with
  | nil => rfl
  | cons line ls ih =>
    rw [List.flatMap_cons, List.append_assoc, lines_line (h line (List.mem_cons_self ..)),
      ih fun l hl => h l (List.mem_cons_of_mem _ hl), List.cons_append]

theorem oneLine_append {line' : Bytes} {sep : UInt8} (h : OneLine line) (h' : OneLine line')
    (hsep : sep ≠ CR ∧ sep ≠ LF) : OneLine (line ++ sep :: line') := by
  constructor
  · simp [h.1, h'.1, hsep.1.symm]
  · simp [h.2, h'.2, hsep.2.symm]

theorem oneLine_hostName (r : Request) : OneLine r.hostName := by
  have hlower : ∀ b ∈ r.hostName, tolower b ∈ [0x68, 0x6f, 0x73, 0x74] := fun b hb =>
    r.hostName_eq ▸ List.mem_map_of_mem hb
  exact ⟨fun h => absurd (hlower CR h) (by decide), fun h => absurd (hlower LF h) (by decide)⟩

/-- Every line of the head is a line, and not blank. -/
theorem oneLine_headLines (r : Request) : ∀ line ∈ r.headLines, line ≠ [] ∧ OneLine line := by
  intro line hline
  rcases List.mem_cons.mp hline with rfl | hline
  · exact ⟨by simp [requestLine], oneLine_append r.method_line.1 r.target_line (by decide)⟩
  · rcases List.mem_append.mp hline with hline | hline
    · have hother := r.others line (List.mem_append_left _ hline)
      exact ⟨hother.1, hother.2.1⟩
    · rcases List.mem_cons.mp hline with rfl | hline
      · exact ⟨by simp [hostLine], oneLine_append r.oneLine_hostName r.hostRest_line (by decide)⟩
      · have hother := r.others line (List.mem_append_right _ hline)
        exact ⟨hother.1, hother.2.1⟩

/-- The lines of a request. -/
theorem lines_bytes (r : Request) : lines r.bytes = r.headLines ++ [] :: lines r.body := by
  have hempty : OneLine [] := by decide
  have hblank : lines ([CR, LF] ++ r.body) = [] :: lines r.body := lines_line hempty _
  have hlines : ∀ line ∈ r.headLines, OneLine line := fun l hl => (oneLine_headLines r l hl).2
  rw [bytes, head, List.append_assoc, lines_flatMap hlines, hblank]

/-! ## The End of the Head -/

/-- Only letters have a lower case. -/
theorem eq_of_tolower_eq {b c : UInt8} (h : tolower b = c)
    (hc : ¬ (0x41 ≤ c - 0x20 ∧ c - 0x20 ≤ 0x5a)) : b = c := by
  unfold tolower at h
  split at h
  · rename_i hupper
    rw [← h, add_sub_cancel_right] at hc
    exact absurd hupper hc
  · exact h

/-- Only the characters of a line end match one. -/
theorem eq_of_matches_lineEnd {b c : UInt8} (hc : c = CR ∨ c = LF) (h : Matches c b) : b = c := by
  rcases hc with rfl | rfl
  · exact eq_of_tolower_eq (h.resolve_right (by decide)) (by decide)
  · exact eq_of_tolower_eq (h.resolve_right (by decide)) (by decide)

/-- Behind lines that are not blank the search has seen the end of the last one. -/
theorem search_lines (h : ∀ line ∈ ls, line ≠ [] ∧ OneLine line) (hne : ls ≠ []) {left : Bytes}
    (hleft : left ⊆ DOUBLE_CR) :
    scan accepts DOUBLE_CR left (ls.flatMap (· ++ [CR, LF])) = none ∧
      Foundation.after accepts DOUBLE_CR left
        (ls.flatMap (· ++ [CR, LF])) = [CR, LF] := by
  induction ls generalizing left with
  | nil => exact absurd rfl hne
  | cons line ls ih =>
    obtain ⟨hblank, hcr, hlf⟩ := h line (List.mem_cons_self ..)
    have hother : ∀ b ∈ line, ∀ c ∈ DOUBLE_CR, accepts c b = false := by
      refine fun b hb c hc => decide_eq_false fun hmatch => ?_
      have hends : DOUBLE_CR ⊆ [CR, LF] := by decide
      have hend : c = CR ∨ c = LF := by simpa using hends hc
      rcases eq_of_matches_lineEnd hend hmatch ▸ hend with rfl | rfl
      · exact hcr hb
      · exact hlf hb
    obtain ⟨hscan, hafter⟩ := scan_of_forall (by decide) hother hblank hleft
    -- the line makes the search start over, and its end are the first two characters
    have hline : scan accepts DOUBLE_CR left (line ++ [CR, LF]) = none := by
      rw [scan_append_of_none hscan, hafter]
      rfl
    have hend : Foundation.after accepts DOUBLE_CR left
        (line ++ [CR, LF]) = [CR, LF] := by
      rw [after_append, hafter]
      rfl
    have hleft' : ([CR, LF] : Bytes) ⊆ DOUBLE_CR := by decide
    rw [List.flatMap_cons, scan_append_of_none hline, hend, after_append, hend]
    by_cases hrest : ls = []
    · subst hrest
      exact ⟨rfl, rfl⟩
    · obtain ⟨hscan', hafter'⟩ := ih (fun l hl => h l (List.mem_cons_of_mem _ hl)) hrest hleft'
      exact ⟨by rw [hscan', Option.map_none], hafter'⟩

/-- The head is found at its end. -/
theorem search_head (r : Request) : search r.bytes DOUBLE_CR = some r.head.length := by
  obtain ⟨hscan, hafter⟩ :=
    search_lines r.oneLine_headLines (List.cons_ne_nil _ _) (List.Subset.refl DOUBLE_CR)
  have hblank : scan accepts DOUBLE_CR [CR, LF] ([CR, LF] ++ r.body) =
      some 2 := scan_word (by decide) (by decide) r.body
  rw [search, bytes, head, List.append_assoc, scan_append_of_none hscan, hafter, hblank,
    List.length_append, Nat.add_comm]
  rfl

/-! ## The Host -/

/-- A line that is too short names no host. -/
theorem hostIn_of_short (h : line.length < 6) : hostIn line = none := by
  rw [hostIn, Option.map_eq_none_iff]
  by_contra hsome
  obtain ⟨k, hk⟩ := Option.ne_none_iff_exists'.mp hsome
  have hlen : 6 ≤ k := le_of_scan (le_refl _) hk
  have hin : k ≤ line.length := scan_le hk
  omega

theorem length_hostName (r : Request) : r.hostName.length = 4 := by
  rw [← List.length_map (f := tolower), r.hostName_eq]
  rfl

/-- The spelled name matches the first characters of the pattern. -/
theorem matches_hostName (r : Request) :
    List.Forall₂ (fun c b => accepts c b = true) (HOST.take 4) r.hostName := by
  have hlower : List.Forall₂ (· = ·) ((HOST.take 4).map tolower) (r.hostName.map tolower) := by
    rw [List.forall₂_eq_eq_eq, r.hostName_eq]
    rfl
  rw [List.forall₂_map_left_iff, List.forall₂_map_right_iff] at hlower
  exact hlower.imp fun c b hcb => decide_eq_true (.inl hcb.symm)

/-- What the proxy reads in the field `Host`: one character behind the colon is skipped. -/
theorem hostIn_hostLine (r : Request) : hostIn r.hostLine =
    match r.hostRest with
    | [] => none
    | _ :: rest => some (rest.takeWhile (· ≠ COLON)) := by
  unfold hostLine
  cases r.hostRest with
  | nil =>
    refine hostIn_of_short ?_
    rw [List.length_append, r.length_hostName]
    decide
  | cons c rest =>
    have hword : List.Forall₂ (fun c b => accepts c b = true) HOST (r.hostName ++ [COLON, c]) := by
      have hcolon : List.Forall₂ (fun c b => accepts c b = true) [COLON, QUESTION_MARK]
          [COLON, c] := by
        refine .cons (by decide) (.cons (decide_eq_true (.inr rfl)) .nil)
      exact List.rel_append r.matches_hostName hcolon
    have hlength : (r.hostName ++ [COLON, c]).length = 6 := by
      rw [List.length_append, r.length_hostName]
      rfl
    have hline : r.hostName ++ COLON :: c :: rest = (r.hostName ++ [COLON, c]) ++ rest := by simp
    have hsearch : search (r.hostName ++ COLON :: c :: rest) HOST = some 6 := by
      rw [hline, search, scan_word hword (by decide), hlength]
    rw [hostIn, hsearch, hline, Option.map_some, ← hlength, List.drop_left]

/-- The hosts that the lines of a request name. -/
theorem named_lines (r : Request) : named (lines r.bytes) =
    named (r.requestLine :: r.fieldsBefore) ++
      ((hostIn r.hostLine).toList ++ named r.linesBehind) := by
  have hblank : hostIn [] = none := rfl
  have hlines : lines r.bytes = (r.requestLine :: r.fieldsBefore) ++
      r.hostLine :: (r.fieldsAfter ++ [] :: lines r.body) := by
    rw [lines_bytes, headLines]
    simp
  have hbehind : named r.linesBehind = named (r.fieldsAfter ++ [] :: lines r.body) := by
    rw [linesBehind, named, named, List.filterMap_append, List.filterMap_append,
      List.filterMap_cons_none hblank]
  rw [hlines, hbehind, named, List.filterMap_append]
  refine congrArg _ ?_
  cases hhost : hostIn r.hostLine with
  | none => exact named_cons_of_none hhost _
  | some host => exact named_cons_of_some hhost _

/-- Skipping the first character leaves the host as it is only if both are empty. -/
theorem takeWhile_eq_iff (c : UInt8) (rest : Bytes) :
    rest.takeWhile (· ≠ COLON) = (c :: rest).takeWhile (· ≠ COLON) ↔
      c = COLON ∧ ∀ b ∈ rest.head?, b = COLON := by
  by_cases hc : c = COLON
  · subst hc
    cases rest with
    | nil => simp
    | cons b rest => by_cases hb : b = COLON <;> simp [hb]
  · rw [List.takeWhile_cons, if_pos (by simpa using hc)]
    constructor
    · intro h
      exact absurd (congrArg List.length h) (by simp)
    · exact fun h => absurd h.1 hc

/-- **The host**: the last line that names one does so behind the field `Host`, or is that field,
or stands before it. -/
theorem reads_host_iff (r : Request) : (named (lines r.bytes)).getLastD [] = r.host ↔
    (∀ host ∈ (named r.linesBehind).getLast?, host = r.host) ∧
      (named r.linesBehind = [] → r.ReadsOwn) := by
  rw [r.named_lines]
  rcases List.eq_nil_or_concat (named r.linesBehind) with hnil | ⟨hosts, host, hlast⟩
  · rw [hnil, List.append_nil, r.hostIn_hostLine]
    unfold ReadsOwn host hostValue
    cases r.hostRest with
    | nil => simp
    | cons c rest =>
      rw [Option.toList_some, List.getLastD_concat]
      by_cases hspace : c = SPACE
      · simp [hspace]
      · simpa [hspace] using takeWhile_eq_iff c rest
  · rw [hlast]
    simp [← List.append_assoc]

/-! ## The Calls -/

/-- The method `CONNECT` and the space behind it are found. -/
theorem isSome_search_connect (h : r.IsTunnel) : (search r.bytes CONNECT).isSome = true := by
  have hrequest : r.requestLine = CONNECT ++ r.target := by
    rw [requestLine, h]
    rfl
  have hword : search (CONNECT ++ (r.target ++ [CR, LF] ++ ((r.fieldsBefore ++
      r.hostLine :: r.fieldsAfter).flatMap (· ++ [CR, LF]) ++ [CR, LF] ++ r.body))) CONNECT =
        some 8 := scan_word (by decide) (by decide) _
  have hbytes : r.bytes = CONNECT ++ (r.target ++ [CR, LF] ++ ((r.fieldsBefore ++
      r.hostLine :: r.fieldsAfter).flatMap (· ++ [CR, LF]) ++ [CR, LF] ++ r.body)) := by
    rw [bytes, head, headLines, List.flatMap_cons, hrequest]
    simp
  rw [hbytes, hword]
  rfl

/-- The calls are those asked for if the tunnel and the host are. -/
theorem openRemote_eq_iff (r : Request) :
    HttpProxy.openRemote r.bytes r.head.length = r.calls ↔
      ((search r.bytes CONNECT).isSome = true → r.IsTunnel) ∧
        (named (lines r.bytes)).getLastD [] = r.host := by
  have hbody : r.bytes.drop r.head.length = r.body := List.drop_left
  unfold HttpProxy.openRemote calls
  rw [hbody]
  by_cases htunnel : r.IsTunnel
  · rw [if_pos (isSome_search_connect htunnel), if_pos htunnel]
    simp [htunnel]
  · by_cases hconnect : (search r.bytes CONNECT).isSome = true
    · rw [if_pos hconnect, if_neg htunnel]
      simp [hconnect, htunnel]
    · rw [if_neg hconnect, if_neg htunnel]
      simp [hconnect]

/-- **Requests**: the proxy makes the calls that the request asks for exactly if nothing in the
input interferes. -/
theorem served_iff_undisturbed (r : Request) (behind : UInt8) :
    r.Served behind ↔ r.Undisturbed behind := by
  have hreceived : HttpProxy.init.received behind r.bytes =
      if Strays behind r.bytes then .error .pastEnd
      else .ok (⟨HttpProxy.forwarded r.bytes r.head.length, true⟩,
        HttpProxy.openRemote r.bytes r.head.length) :=
    HttpProxy.received_request rfl r.search_head
  rw [Served, hreceived]
  constructor
  · rintro ⟨proxy, hok⟩
    split at hok
    · cases hok
    · rename_i hstays
      have hcalls := congrArg Prod.snd (Except.ok.inj hok)
      obtain ⟨htunnel, hhost⟩ := r.openRemote_eq_iff.mp hcalls
      obtain ⟨hlater, hown⟩ := r.reads_host_iff.mp hhost
      exact ⟨fun hfound => htunnel ((found_iff (by decide)).mp hfound), hlater, hown, hstays⟩
  · intro h
    have hcalls := r.openRemote_eq_iff.mpr
      ⟨fun hconnect => h.tunnel ((found_iff (by decide)).mpr hconnect),
        r.reads_host_iff.mpr ⟨h.later, h.own⟩⟩
    exact ⟨_, (if_neg h.stays).trans (by rw [hcalls])⟩

/-- `GET / HTTP/1.1` with the fields `Host: a` and `X-Host: b` -/
def twoHosts : Request where
  method := [0x47, 0x45, 0x54]
  target := [0x2f, SPACE, 0x48, 0x54, 0x54, 0x50, 0x2f, 0x31, 0x2e, 0x31]
  fieldsBefore := []
  hostName := [0x48, 0x6f, 0x73, 0x74]
  hostRest := [SPACE, 0x61]
  fieldsAfter := [[0x58, 0x2d, 0x48, 0x6f, 0x73, 0x74, COLON, SPACE, 0x62]]
  body := []
  method_line := by decide
  target_line := by decide
  hostName_eq := by decide
  hostRest_line := by decide
  others := by decide

/-- The proxy connects to `b`, which the field `X-Host` names. -/
theorem not_served_twoHosts : ¬ ∀ r : Request, r.Served 0 := by
  intro h
  obtain ⟨proxy, hproxy⟩ := h twoHosts
  have hreceived : HttpProxy.init.received 0 twoHosts.bytes =
      .ok (⟨twoHosts.bytes, true⟩, [.create [0x62] 80 twoHosts.bytes]) := by
    decide +kernel
  rw [hreceived] at hproxy
  have hcalls : [.create [0x62] 80 twoHosts.bytes] = twoHosts.calls :=
    congrArg Prod.snd (Except.ok.inj hproxy)
  exact absurd hcalls (by decide +kernel)

end Request

end Epoller
