import Epoller.Foundation.Search
import Epoller.Query.Decode

/-!
# The DNS Query Encoder

`Query::resolve` of `query.cpp` with `encodeName`. The encoder walks over the name
once and asks `getLen` at each dot how long the next label is; `len` is then counted
down so that a label that is too long is cut.

## Contents

- `setBits`, `getLen`, `encodeName`, `resolve`: the functions
- `encodeName_labels`, `encodeName_label`: what `encodeName` makes of a dotted name
- `resolve_eq`: the parts of a query
- `truncates_iff_short`: when a name is encoded with its labels cut to 63 bytes
-/

namespace Epoller.Query

open Foundation

/-! ## Names -/

def MAX_DOMAIN_LEN : ℕ := 64

/-- Subtraction in `size_t` -/
def sizeSub (a b : ℕ) : ℕ := if b ≤ a then a - b else a + 2 ^ 64 - b

/-- `name.find('.', pos)`; no dot is `npos`, which is `none` here. -/
def findDot (name : Bytes) (pos : ℕ) : Option ℕ :=
  ((name.drop pos).findIdx? (· = DOT)).map (pos + ·)

/-- `getLen`: the length of the label behind `prevDotPos`, and the next `prevDotPos`. As `npos` is
the largest number, `npos + 1` is 0. -/
def getLen (name : Bytes) (prevDotPos : Option ℕ) : ℕ × Option ℕ :=
  let next := match prevDotPos with
    | some pos => pos + 1
    | none => 0
  let dotPos := findDot name next
  let len := match dotPos with
    | none => sizeSub name.length next
    -- position 0 is the start of the name, so there is no dot to leave out
    | some dotPos => if prevDotPos = some 0 then dotPos else sizeSub dotPos next
  (if MAX_DOMAIN_LEN ≤ len then MAX_DOMAIN_LEN - 1 else len, dotPos)

/-- The loop of `encodeName` over the characters that are left. -/
def encodeNameLoop (name : Bytes) : Bytes → (prevDotPos len : Option ℕ) → Bytes → Bytes
  | [], _, _, query => query
  | c :: rest, prevDotPos, len, query =>
    if c = DOT then
      let (len, prevDotPos) := getLen name prevDotPos
      encodeNameLoop name rest prevDotPos (some len) (query ++ [.ofNat len])
    else
      match len with
      -- the label was cut: `len` stays used up until the next dot
      | none => encodeNameLoop name rest prevDotPos none query
      | some 0 => encodeNameLoop name rest prevDotPos none (query ++ [c])
      | some (len + 1) => encodeNameLoop name rest prevDotPos (some len) (query ++ [c])

/-- `encodeName` -/
def encodeName (name query : Bytes) : Bytes :=
  let (len, prevDotPos) := getLen name (some 0)
  encodeNameLoop name name prevDotPos (some len) (query ++ [.ofNat len]) ++ [0]

/-! ## Queries -/

/-- `setBits` -/
def setBits (d : UInt16) (startBitPos bitLen : UInt32) (val : UInt16) : UInt16 :=
  let clearMask := (~~~(((1 <<< bitLen) - 1) <<< startBitPos) : UInt32).toUInt16
  let setMask := ((val.toUInt32 &&& ((1 <<< bitLen) - 1)) <<< startBitPos).toUInt16
  (d &&& clearMask) ||| setMask

/-- The flags that `resolve` sets, in its order: `qr`, `opcode`, `tc`, `rd`, `ra` and `aa`. -/
def queryFlags : UInt16 :=
  let d := setBits 0 15 1 0
  let d := setBits d 11 4 0
  let d := setBits d 9 1 0
  let d := setBits d 8 1 1
  let d := setBits d 7 1 0
  setBits d 10 1 0

/-- The words of a header, the member `d` of `QueryHeader` -/
def Header.words (h : Header) : List UInt16 :=
  [h.id, h.reqFlags, h.qdcount, h.ancount, h.nscount, h.arcount]

/-- The words of a footer, the member `d` of `QueryFooter` -/
def Footer.words (f : Footer) : List UInt16 := [f.qtype, f.qclass]

/-- `networkEndian` for each of the words -/
def streamWords (words : List UInt16) (query : Bytes) : Bytes :=
  words.foldl (fun query d => streamNetworkEndian16 d query) query

/-- `Query::resolve` -/
def resolve (reqNo : UInt16) (name : Bytes) (qType : Qtype) : Bytes :=
  let header : Header := ⟨reqNo, queryFlags, 1, 0, 0, 0⟩
  let footer : Footer := ⟨qType, Qclass.Internet⟩
  streamWords footer.words (encodeName name (streamWords header.words []))

/-! ## What `encodeName` Writes -/

variable {name label query : Bytes} {labels : List Bytes} {pos len : ℕ} {prevDotPos : Option ℕ}

/-- The next dot ends a label that stands behind a dot or at the start of the name. -/
theorem findDot_label (pre : Bytes) (hlabel : DOT ∉ label) (labels : List Bytes) :
    findDot (pre ++ (label ++ labels.flatMap (DOT :: ·))) pre.length =
      if labels = [] then none else some (pre.length + label.length) := by
  have hnone : label.findIdx? (· = DOT) = none :=
    List.findIdx?_eq_none_iff.mpr fun b hb => decide_eq_false fun heq => hlabel (heq ▸ hb)
  rw [findDot, List.drop_left, List.findIdx?_append, hnone, Option.none_or]
  cases labels with
  | nil => rfl
  | cons next labels =>
    have hdot : ((next :: labels).flatMap (DOT :: ·)).findIdx? (· = DOT) = some 0 := by
      rw [List.flatMap_cons, List.cons_append, List.findIdx?_cons, if_pos (decide_eq_true rfl)]
    rw [hdot, if_neg (List.cons_ne_nil _ _)]
    simp

/-- A length byte never exceeds 63. -/
theorem clamp_eq_min (len : ℕ) :
    (if MAX_DOMAIN_LEN ≤ len then MAX_DOMAIN_LEN - 1 else len) = min len 63 := by
  unfold MAX_DOMAIN_LEN
  split <;> omega

/-- At a dot that is not the first character, `getLen` finds the label behind it. -/
theorem getLen_dot (pre : Bytes) (hpre : pre ≠ []) (hlabel : DOT ∉ label) (labels : List Bytes) :
    getLen (pre ++ (label :: labels).flatMap (DOT :: ·)) (some pre.length) =
      (min label.length 63,
        if labels = [] then none else some (pre.length + 1 + label.length)) := by
  have hname : pre ++ (label :: labels).flatMap (DOT :: ·) =
      (pre ++ [DOT]) ++ (label ++ labels.flatMap (DOT :: ·)) := by simp
  have hlength : (pre ++ [DOT]).length = pre.length + 1 := by simp
  have hfind := findDot_label (pre ++ [DOT]) hlabel labels
  rw [← hname, hlength] at hfind
  have hpos : pre.length ≠ 0 := fun hzero => hpre (List.length_eq_zero_iff.mp hzero)
  simp only [getLen, hfind, clamp_eq_min]
  cases labels with
  | nil =>
    have hlen : pre.length + (label.length + 1) - (pre.length + 1) = label.length := by omega
    simp [sizeSub, hlen]
  | cons => simp [sizeSub, hpos]

/-- What is written of a label: its length cut to 63, and one character more than that, if the
label has it. -/
def writtenLabel (label : Bytes) : Bytes :=
  .ofNat (min label.length 63) :: label.take (min label.length 63 + 1)

/-- At a dot, and at the end, it does not matter what is left of `len`. -/
theorem encodeNameLoop_len (labels : List Bytes) (len len' : Option ℕ) :
    encodeNameLoop name (labels.flatMap (DOT :: ·)) prevDotPos len query =
      encodeNameLoop name (labels.flatMap (DOT :: ·)) prevDotPos len' query := by
  cases labels with
  | nil => rfl
  | cons label labels => rfl

/-- Nothing is written once `len` is used up. -/
theorem encodeNameLoop_none (hlabel : DOT ∉ label) (labels : List Bytes) :
    encodeNameLoop name (label ++ labels.flatMap (DOT :: ·)) prevDotPos none query =
      encodeNameLoop name (labels.flatMap (DOT :: ·)) prevDotPos none query := by
  -- on the characters up to the next dot
  induction label with
  | nil => rfl
  | cons c label ih =>
    obtain ⟨hc, hlabel⟩ := not_or.mp (List.mem_cons.not.mp hlabel)
    rw [List.cons_append, encodeNameLoop, if_neg (Ne.symm hc)]
    exact ih hlabel

/-- Of what stands before the next dot one character more than `len` is written. -/
theorem encodeNameLoop_label (hlabel : DOT ∉ label) (labels : List Bytes) :
    encodeNameLoop name (label ++ labels.flatMap (DOT :: ·)) prevDotPos (some len) query =
      encodeNameLoop name (labels.flatMap (DOT :: ·)) prevDotPos none
        (query ++ label.take (len + 1)) := by
  induction label generalizing len query with
  | nil =>
    rw [List.nil_append, List.take_nil, List.append_nil]
    exact encodeNameLoop_len labels ..
  | cons c label ih =>
    obtain ⟨hc, hlabel⟩ := not_or.mp (List.mem_cons.not.mp hlabel)
    rw [List.take_succ_cons]
    cases len with
    | zero =>
      -- the character is written before `len` is found to be 0
      rw [List.cons_append, encodeNameLoop, if_neg (Ne.symm hc)]
      exact encodeNameLoop_none hlabel labels
    | succ len =>
      rw [List.cons_append, encodeNameLoop, if_neg (Ne.symm hc), ih hlabel, List.append_assoc,
        List.singleton_append]

/-- Behind the first label each dot is found where `getLen` has seen it. -/
theorem encodeNameLoop_labels (pre : Bytes) (hpre : pre ≠ []) (hlabels : ∀ l ∈ labels, DOT ∉ l)
    (hname : name = pre ++ labels.flatMap (DOT :: ·)) (query : Bytes) :
    encodeNameLoop name (labels.flatMap (DOT :: ·))
        (if labels = [] then none else some pre.length) none query =
      query ++ labels.flatMap writtenLabel := by
  -- `pre` is the part of the name that is already encoded, so `getLen` searches behind it
  induction labels generalizing pre query with
  | nil => simp [encodeNameLoop]
  | cons label labels ih =>
    have hlabel := hlabels label (List.mem_cons_self ..)
    have hlen := getLen_dot pre hpre hlabel labels
    rw [← hname] at hlen
    have hname' : name = (pre ++ DOT :: label) ++ labels.flatMap (DOT :: ·) := by simp [hname]
    have hpos : (pre ++ DOT :: label).length = pre.length + 1 + label.length := by simp; omega
    have hrest : ∀ query, encodeNameLoop name (labels.flatMap (DOT :: ·))
        (if labels = [] then none else some (pre.length + 1 + label.length)) none query =
          query ++ labels.flatMap writtenLabel := fun query =>
      hpos ▸ ih (pre ++ DOT :: label) (by simp)
        (fun l hl => hlabels l (List.mem_cons_of_mem _ hl)) hname' query
    rw [if_neg (List.cons_ne_nil _ _), List.flatMap_cons, List.cons_append, encodeNameLoop,
      if_pos rfl, hlen]
    simp only
    rw [encodeNameLoop_label hlabel, hrest, List.flatMap_cons, writtenLabel]
    simp

/-- Before the first character `getLen` finds the first label, if another one follows. -/
theorem getLen_first {first second : Bytes} (hfirst : first ≠ [] ∧ DOT ∉ first)
    (rest : List Bytes) : getLen (first ++ (second :: rest).flatMap (DOT :: ·)) (some 0) =
      (min first.length 63, some first.length) := by
  -- the search starts at position 1, so the first character is passed over
  obtain ⟨c, label, rfl⟩ := List.exists_cons_of_ne_nil hfirst.1
  have hfind := findDot_label [c] (fun h => hfirst.2 (List.mem_cons_of_mem _ h)) (second :: rest)
  have hlen : (c :: label).length = label.length + 1 := rfl
  rw [← List.append_assoc, List.singleton_append, List.length_singleton,
    if_neg (List.cons_ne_nil _ _), Nat.add_comm] at hfind
  simp only [getLen, Nat.zero_add, hfind, clamp_eq_min, if_true, hlen]

/-- **`encodeName`** of two or more labels -/
theorem encodeName_labels {first second : Bytes} {rest : List Bytes}
    (h : ∀ l ∈ first :: second :: rest, l ≠ [] ∧ DOT ∉ l) (query : Bytes) :
    encodeName ([DOT].intercalate (first :: second :: rest)) query =
      query ++ ((first :: second :: rest).flatMap writtenLabel ++ [0]) := by
  have hfirst := h first (List.mem_cons_self ..)
  have hrest := encodeNameLoop_labels first hfirst.1
    (fun l hl => (h l (List.mem_cons_of_mem _ hl)).2) rfl
    (query ++ [.ofNat (min first.length 63)] ++ first.take (min first.length 63 + 1))
  rw [if_neg (List.cons_ne_nil _ _)] at hrest
  rw [intercalate_cons_eq_append_flatMap]
  simp only [encodeName, getLen_first hfirst]
  rw [encodeNameLoop_label hfirst.2, hrest]
  simp [writtenLabel]

/-- **`encodeName`** of a single label: nothing makes up for the character before `prevDotPos + 1`,
so the length byte is one too small. -/
theorem encodeName_label (hlabel : label ≠ [] ∧ DOT ∉ label) (query : Bytes) :
    encodeName label query = query ++ (.ofNat (min (label.length - 1) 63) ::
      label.take (min (label.length - 1) 63 + 1) ++ [0]) := by
  obtain ⟨c, label', rfl⟩ := List.exists_cons_of_ne_nil hlabel.1
  have hfind := findDot_label [c] (fun h => hlabel.2 (List.mem_cons_of_mem _ h)) []
  have hloop : encodeNameLoop (c :: label') (c :: label' ++ List.flatMap (DOT :: ·) []) none
      (some (min label'.length 63)) (query ++ [.ofNat (min label'.length 63)]) = _ :=
    encodeNameLoop_label hlabel.2 []
  simp only [List.flatMap_nil, List.append_nil] at hfind hloop
  rw [List.singleton_append, List.length_singleton, if_pos trivial] at hfind
  -- with no dot the length is measured from position 1 as well
  have hlen : sizeSub (c :: label').length 1 = label'.length := by simp [sizeSub]
  simp only [encodeName, getLen, Nat.zero_add, hfind, hlen, clamp_eq_min]
  rw [hloop, encodeNameLoop]
  simp

/-! ## What `resolve` Writes -/

/-- Whatever `encodeName` writes, it writes behind the query. -/
theorem encodeNameLoop_append (name rest : Bytes) (prevDotPos len : Option ℕ) (query : Bytes) :
    ∃ out, encodeNameLoop name rest prevDotPos len query = query ++ out := by
  induction rest generalizing prevDotPos len query with
  | nil => exact ⟨[], (List.append_nil _).symm⟩
  | cons c rest ih =>
    -- whatever a round writes stands in front of what the other rounds write
    have hround : ∀ prevDotPos len more, ∃ out,
        encodeNameLoop name rest prevDotPos len (query ++ more) = query ++ out := by
      intro prevDotPos len more
      obtain ⟨out, hout⟩ := ih prevDotPos len (query ++ more)
      exact ⟨more ++ out, hout.trans (List.append_assoc ..)⟩
    by_cases hdot : c = DOT
    · subst hdot
      exact hround _ _ _
    · cases len with
      | none =>
        simp only [encodeNameLoop, if_neg hdot]
        exact ih _ _ _
      | some len =>
        cases len with
        | zero =>
          simp only [encodeNameLoop, if_neg hdot]
          exact hround _ _ _
        | succ len =>
          simp only [encodeNameLoop, if_neg hdot]
          exact hround _ _ _

theorem streamWords_eq (words : List UInt16) (query : Bytes) :
    streamWords words query = query ++ words.flatMap wordBytes := by
  induction words generalizing query with
  | nil => simp [streamWords]
  | cons d words ih =>
    rw [streamWords, List.foldl_cons, streamNetworkEndian16_eq]
    rw [← streamWords, ih, List.flatMap_cons, List.append_assoc]

/-- The header of a query: its number, recursion desired, one question -/
def queryHeader (reqNo : UInt16) : Bytes :=
  wordBytes reqNo ++ wordBytes 0x0100 ++ wordBytes 1 ++ wordBytes 0 ++ wordBytes 0 ++ wordBytes 0

/-- **`resolve`**: a header, the name, the type and the class -/
theorem resolve_eq (reqNo : UInt16) (qType : Qtype) {encoded : Bytes}
    (h : ∀ query, encodeName name query = query ++ encoded) :
    resolve reqNo name qType =
      queryHeader reqNo ++ (encoded ++ (wordBytes qType ++ wordBytes Qclass.Internet)) := by
  have hflags : queryFlags = 0x0100 := by decide
  simp only [resolve, streamWords_eq, h, hflags]
  simp [Header.words, Footer.words, queryHeader]

/-! ## Truncation -/

/-- A length byte and as many bytes, at most 63 -/
def cutLabel (label : Bytes) : Bytes :=
  .ofNat (min label.length 63) :: label.take (min label.length 63)

/-- The name is encoded with its labels cut to 63 bytes. -/
def Truncates (labels : List Bytes) : Prop :=
  encodeName ([DOT].intercalate labels) [] = labels.flatMap cutLabel ++ [0]

theorem writtenLabel_eq_cutLabel (h : label.length ≤ 63) : writtenLabel label = cutLabel label := by
  rw [writtenLabel, cutLabel, Nat.min_eq_left h, List.take_length,
    List.take_of_length_le (Nat.le_succ _)]

/-- What is written is longer than it should be by the number of labels that are too long. -/
theorem length_flatMap_writtenLabel (labels : List Bytes) :
    (labels.flatMap writtenLabel).length =
      (labels.flatMap cutLabel).length + labels.countP (63 < ·.length) := by
  induction labels with
  | nil => rfl
  | cons label labels ih =>
    rw [List.flatMap_cons, List.flatMap_cons, List.length_append, List.length_append, ih,
      List.countP_cons]
    simp only [writtenLabel, cutLabel, List.length_cons, List.length_take, decide_eq_true_eq]
    split <;> omega

/-- **Truncation**: a name of two or more labels is encoded with its labels cut to 63 bytes if and
only if there is nothing to cut. -/
theorem truncates_iff_short {labels : List Bytes} (hcount : 2 ≤ labels.length)
    (h : ∀ l ∈ labels, l ≠ [] ∧ DOT ∉ l) :
    Truncates labels ↔ ∀ l ∈ labels, l.length ≤ 63 := by
  obtain ⟨first, second, rest, rfl⟩ : ∃ first second rest, labels = first :: second :: rest := by
    match labels, hcount with
    | first :: second :: rest, _ => exact ⟨first, second, rest, rfl⟩
  rw [Truncates, encodeName_labels h, List.nil_append, List.append_cancel_right_eq]
  constructor
  · intro heq
    -- equal texts are equally long, so no label adds a byte
    have hlength := length_flatMap_writtenLabel (first :: second :: rest)
    rw [heq, Nat.left_eq_add, List.countP_eq_zero] at hlength
    exact fun l hl => not_lt.mp fun hlong => hlength l hl (decide_eq_true hlong)
  · intro hshort
    exact List.flatMap_congr fun l hl => writtenLabel_eq_cutLabel (hshort l hl)

/-- The name `a.b` -/
theorem truncates_two_letters : Truncates [[0x61], [0x62]] :=
  (truncates_iff_short (by decide) (by decide)).mpr (by decide)

/-- Of a label of 64 bytes all of them stand behind the length byte 63. -/
theorem not_truncates_long_label : ¬ ∀ labels : List Bytes, 2 ≤ labels.length →
    (∀ l ∈ labels, l ≠ [] ∧ DOT ∉ l) → Truncates labels := by
  intro h
  have hcut : Truncates [List.replicate 64 0x61, [0x62]] := h _ (by decide) (by decide)
  revert hcut
  unfold Truncates
  decide +kernel

end Epoller.Query
