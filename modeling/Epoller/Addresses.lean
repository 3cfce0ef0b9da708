import Epoller.Types
import Epoller.Foundation.Numerals

/-!
# Addresses as Text

`IpAddr::toString`, and `Socket::destFromString` with the `inet_pton` of the C library
that it calls: once for a dotted quad, which it then reads again as an IPv4-mapped
address, and otherwise for an IPv6 address. A host name that neither accepts is left to
the resolver.

## Contents

- `inetPton4`, `inetPton6`: `inet_pton` for the two families
- `IpAddr.toString`, `Socket.destFromString`: the functions of the program
- `inetPton6_toString`: an address that was written is read back
- `inetPton6_mapped`: a dotted quad is accepted behind `::ffff:`
- `destFromString_toString`, `destFromString_valid_iff`: what `destFromString` accepts
-/

namespace Epoller

open Foundation

namespace Inet

/-! ## Digits -/

/-- A digit as `std::hex` writes it -/
def hexDigit (d : ℕ) : UInt8 := if d < 10 then .ofNat (0x30 + d) else .ofNat (0x57 + d)

def decValue (ch : UInt8) : Option ℕ :=
  if 0x30 ≤ ch ∧ ch ≤ 0x39 then some (ch.toNat - 0x30) else none

def hexValue (ch : UInt8) : Option ℕ :=
  if 0x30 ≤ ch ∧ ch ≤ 0x39 then some (ch.toNat - 0x30)
  else if 0x61 ≤ ch ∧ ch ≤ 0x66 then some (ch.toNat - 0x57)
  else if 0x41 ≤ ch ∧ ch ≤ 0x46 then some (ch.toNat - 0x37)
  else none

/-! ## Dotted Quads -/

/-- The loop of `inet_pton` for `AF_INET`: `octets` are complete, `tp` is the one that is read, if
it has a digit. -/
def pton4Loop : Bytes → Bytes → Option ℕ → Option Bytes
  | [], octets, tp =>
    match tp with
    | some v => if octets.length = 3 then some (octets ++ [.ofNat v]) else none
    | none => none
  | ch :: src, octets, tp =>
    match decValue ch with
    | some digit =>
      -- no digit follows a leading zero
      if tp = some 0 then none
      else
        let new := tp.getD 0 * 10 + digit
        if 255 < new then none else pton4Loop src octets (some new)
    | none =>
      match tp with
      | some v =>
        if ch = DOT ∧ octets.length ≠ 3 then pton4Loop src (octets ++ [.ofNat v]) none else none
      | none => none

/-- `inet_pton(AF_INET, src, ..)`: the four bytes that it stores, if it succeeds -/
def inetPton4 (src : Bytes) : Option Bytes := pton4Loop src [] none

/-! ## IPv6 Addresses -/

/-- The variables of `inet_pton` for `AF_INET6` -/
structure Pton6 where
  /-- The bytes that are complete -/
  tp : Bytes
  /-- Where `::` stood -/
  colonp : Option ℕ
  xdigits_seen : ℕ
  val : ℕ
deriving DecidableEq, Repr

/-- The two bytes of a group -/
def group (val : ℕ) : Bytes := [.ofNat (val / 256), .ofNat val]

/-- What `inet_pton` does behind its loop: the last group, and zeros for `::` -/
def pton6End (s : Pton6) : Option Bytes :=
  if 0 < s.xdigits_seen ∧ 16 < s.tp.length + 2 then none
  else
    let tp := if 0 < s.xdigits_seen then s.tp ++ group s.val else s.tp
    match s.colonp with
    | some n =>
      if tp.length = 16 then none
      else some (tp.take n ++ List.replicate (16 - tp.length) 0 ++ tp.drop n)
    | none => if tp.length = 16 then some tp else none

/-- The loop of `inet_pton` for `AF_INET6`; the group that is read starts at `curtok`. -/
def pton6Loop : Bytes → Bytes → Pton6 → Option Bytes
  | [], _, s => pton6End s
  | ch :: src, curtok, s =>
    match hexValue ch with
    | some digit =>
      if s.xdigits_seen = 4 then none
      else pton6Loop src curtok
        { s with val := s.val * 16 + digit, xdigits_seen := s.xdigits_seen + 1 }
    | none =>
      if ch = COLON then
        if s.xdigits_seen = 0 then
          if s.colonp.isSome then none
          else pton6Loop src src { s with colonp := some s.tp.length }
        else if src = [] then none
        else if 16 < s.tp.length + 2 then none
        else pton6Loop src src { s with tp := s.tp ++ group s.val, xdigits_seen := 0, val := 0 }
      -- the rest of the address is a dotted quad, from the start of this group on
      else if ch = DOT ∧ s.tp.length + 4 ≤ 16 then
        match inetPton4 curtok with
        | some octets => pton6End { s with tp := s.tp ++ octets, xdigits_seen := 0 }
        | none => none
      else none

/-- `inet_pton(AF_INET6, src, ..)`: the bytes that it stores, if it succeeds. A colon at the
beginning has to be followed by another one. -/
def inetPton6 (src : Bytes) : Option Bytes :=
  match src with
  | [] => none
  | ch :: rest =>
    if ch = COLON then
      if rest.head? = some COLON then pton6Loop rest rest ⟨[], none, 0, 0⟩ else none
    else pton6Loop src src ⟨[], none, 0, 0⟩

/-- Sixteen bytes as an array -/
def netOrder (bytes : Bytes) : Vector UInt8 16 := Vector.ofFn fun i => bytes.getD i.val 0

end Inet

open Inet

/-! ## The Functions -/

/-- A word as `std::hex` writes it -/
def hexText (word : UInt16) : Bytes := (numeral 16 word.toNat).map hexDigit

/-- The loop of `toString` over the words that are left -/
def printWords : List UInt16 → Bytes
  | [] => []
  | [word] => hexText (wordNetworkEndian16 word)
  | word :: words => hexText (wordNetworkEndian16 word) ++ COLON :: printWords words

/-- `IpAddr::toString` -/
def IpAddr.toString (addr : IpAddr) : Bytes := printWords addr.d.toList

/-- `::ffff:` -/
def MAPPED_PREFIX : Bytes := [COLON, COLON, 0x66, 0x66, 0x66, 0x66, COLON]

/-- What a C string is of a `std::string` -/
def cString (text : Bytes) : Bytes := text.takeWhile (· ≠ 0)

/-- `Socket::destFromString`; `dest` and `addr` are what stands in memory where its variables
are. -/
def Socket.destFromString (dest : InetDest) (addr : Vector UInt8 16) (text : Bytes)
    (port : UInt16) : InetDest :=
  match inetPton4 (cString text) with
  | some octets =>
    match inetPton6 (cString (MAPPED_PREFIX ++ text)) with
    | some bytes => { dest with port, valid := true, addr := .set (netOrder bytes) }
    -- only the first four bytes were stored
    | none => { dest with
        port, valid := false, addr := .set (netOrder (octets ++ addr.toList.drop 4)) }
  | none =>
    match inetPton6 (cString text) with
    | some bytes => { dest with port, valid := true, addr := .set (netOrder bytes) }
    | none => { dest with port, valid := false, addr := .set addr }

/-- A dotted quad -/
def dottedQuad (a b c d : UInt8) : Bytes :=
  let decText (octet : UInt8) : Bytes := (numeral 10 octet.toNat).map hexDigit
  decText a ++ DOT :: (decText b ++ DOT :: (decText c ++ DOT :: decText d))

/-! ## Digits Read Back -/

namespace Inet

theorem hexValue_hexDigit {d : ℕ} (hd : d < 16) : hexValue (hexDigit d) = some d := by
  interval_cases d <;> rfl

theorem decValue_hexDigit {d : ℕ} (hd : d < 10) : decValue (hexDigit d) = some d := by
  interval_cases d <;> rfl

/-- A decimal digit is a hexadecimal one. -/
theorem hexValue_of_decValue {ch : UInt8} {d : ℕ} (h : decValue ch = some d) :
    hexValue ch = some d := by
  unfold decValue at h
  split at h <;> cases h
  rename_i hdigit
  rw [hexValue, if_pos hdigit]

variable (rest curtok : Bytes) {src octets : Bytes} {s : Pton6} {ds : List ℕ} {v : ℕ}
  {tp : Option ℕ}

/-! ## IPv6 Addresses Read Back -/

/-- The loop reads the digits of a group. -/
theorem pton6Loop_digits (hds : ∀ d ∈ ds, d < 16) (hseen : s.xdigits_seen + ds.length ≤ 4) :
    pton6Loop (ds.map hexDigit ++ rest) curtok s = pton6Loop rest curtok { s with
      val := numeralValue 16 s.val ds, xdigits_seen := s.xdigits_seen + ds.length } := by
  induction ds generalizing s with
  | nil => rfl
  | cons d ds ih =>
    obtain ⟨hd, hds⟩ := List.forall_mem_cons.mp hds
    rw [List.length_cons] at hseen
    rw [List.map_cons, List.cons_append, pton6Loop, hexValue_hexDigit hd]
    simp only
    rw [if_neg (by omega), ih hds (by simp only; omega)]
    simp only [numeralValue_cons, List.length_cons]
    congr 2
    omega

/-- A word in hexadecimal digits -/
theorem pton6Loop_hexText (word : UInt16) (hseen : s.xdigits_seen = 0) (hval : s.val = 0) :
    ∃ k, 0 < k ∧ pton6Loop (hexText word ++ rest) curtok s =
      pton6Loop rest curtok { s with val := word.toNat, xdigits_seen := k } := by
  have hlength : (numeral 16 word.toNat).length ≤ 4 :=
    numeral_length_le (by decide) (by decide) word.toNat_lt
  have hloop := pton6Loop_digits rest curtok (s := s) (fun d hd => numeral_lt (by decide) hd)
    (by rw [hseen, Nat.zero_add]; exact hlength)
  refine ⟨(numeral 16 word.toNat).length, ?_, ?_⟩
  · exact List.length_pos_iff.mpr (numeral_ne_nil _ _)
  · rw [hexText, hloop, hval, numeralValue_numeral, hseen, Nat.zero_add]

/-- The bytes of a word are the group that is printed for it. -/
theorem group_wordNetworkEndian16 (word : UInt16) :
    group (wordNetworkEndian16 word).toNat =
      [(U16Swap.ofD16 word).b0, (U16Swap.ofD16 word).b1] := by
  have hstored : (U16Swap.ofD16 word).d16 = word := networkEndian16_wordBytes word
  have hvalue := toNat_wordNetworkEndian16 (U16Swap.ofD16 word)
  rw [hstored] at hvalue
  have h0 := (U16Swap.ofD16 word).b0.toNat_lt
  have h1 := (U16Swap.ofD16 word).b1.toNat_lt
  rw [hvalue, group]
  refine congrArg₂ (fun x y => [x, y]) ?_ ?_
  · apply UInt8.toNat_inj.mp
    rw [UInt8.toNat_ofNat']
    omega
  · apply UInt8.toNat_inj.mp
    rw [UInt8.toNat_ofNat']
    omega

/-- The bytes of words in storage -/
def storage (words : List UInt16) : Bytes :=
  words.flatMap fun word => [(U16Swap.ofD16 word).b0, (U16Swap.ofD16 word).b1]

/-- **The loop** reads words that were printed. -/
theorem pton6Loop_printWords {words : List UInt16} (hne : words ≠ []) (hseen : s.xdigits_seen = 0)
    (hval : s.val = 0) (hroom : s.tp.length + 2 * words.length ≤ 16) :
    pton6Loop (printWords words) curtok s = pton6End { s with tp := s.tp ++ storage words } := by
  induction words generalizing s curtok with
  | nil => exact absurd rfl hne
  | cons word words ih =>
    have hgroup := group_wordNetworkEndian16 word
    rw [List.length_cons] at hroom
    cases words with
    | nil =>
      obtain ⟨k, hk, hloop⟩ := pton6Loop_hexText [] curtok (wordNetworkEndian16 word)
        hseen hval
      rw [List.append_nil] at hloop
      have hfits : ¬ (16 < s.tp.length + 2) := by
        rw [List.length_nil] at hroom
        omega
      rw [printWords, hloop, pton6Loop, pton6End, pton6End]
      simp only [hk, hfits, and_false, if_false, if_true, hseen, lt_irrefl, false_and, hgroup,
        storage, List.flatMap_singleton]
    | cons next words =>
      obtain ⟨k, hk, hloop⟩ := pton6Loop_hexText (COLON :: printWords (next :: words)) curtok
        (wordNetworkEndian16 word) hseen hval
      have hrest : printWords (next :: words) ≠ [] := by
        unfold printWords
        split
        · rename_i h
          cases h
        · simpa [hexText] using numeral_ne_nil _ _
        · simp
      have hcolon : hexValue COLON = none := rfl
      rw [printWords, hloop, pton6Loop, hcolon]
      · simp only [if_true, if_neg hk.ne', if_neg hrest]
        rw [if_neg (by omega), ih _ (List.cons_ne_nil _ _) rfl rfl ?_]
        · simp only [hgroup, storage, List.flatMap_cons, List.append_assoc, hseen, hval]
        · simp only [group, List.length_append, List.length_cons, List.length_nil] at hroom ⊢
          omega
      · exact nofun

/-- The storage of the words of an address is what `get` returns. -/
theorem storage_words (addr : IpAddr) : storage addr.d.toList = addr.get.toList := by
  obtain ⟨⟨⟨words⟩, hsize⟩⟩ := addr
  match words, hsize with
  | [_, _, _, _, _, _, _, _], _ => rfl

theorem netOrder_toList (bytes : Vector UInt8 16) : netOrder bytes.toList = bytes := by
  apply Vector.ext
  intro i hi
  simp [netOrder, List.getD_eq_getElem?_getD]

/-- The first character of a number is a digit. -/
theorem printWords_head (word : UInt16) (words : List UInt16) :
    ∃ ch rest, printWords (word :: words) = ch :: rest ∧ ch ≠ COLON := by
  have hne := numeral_ne_nil 16 (wordNetworkEndian16 word).toNat
  obtain ⟨d, ds, hdigits⟩ := List.exists_cons_of_ne_nil hne
  have hd : d < 16 := numeral_lt (b := 16) (by decide) (hdigits ▸ List.mem_cons_self ..)
  have hcolon : hexDigit d ≠ COLON := by
    interval_cases d <;> decide
  cases words with
  | nil => exact ⟨_, _, by rw [printWords, hexText, hdigits, List.map_cons], hcolon⟩
  | cons next words =>
    exact ⟨_, _, by rw [printWords, hexText, hdigits, List.map_cons, List.cons_append]; exact nofun,
      hcolon⟩

/-- **Round trip**: an address that was written is read back. -/
theorem inetPton6_toString (addr : IpAddr) : inetPton6 addr.toString = some addr.get.toList := by
  obtain ⟨word, words, hwords⟩ : ∃ word words, addr.d.toList = word :: words := by
    refine List.exists_cons_of_ne_nil (List.ne_nil_of_length_pos ?_)
    rw [Vector.length_toList]
    decide
  obtain ⟨ch, rest, htext, hcolon⟩ := printWords_head word words
  rw [← hwords] at htext
  have hlength : addr.d.toList.length = 8 := Vector.length_toList
  have hloop := @pton6Loop_printWords (printWords addr.d.toList) ⟨[], none, 0, 0⟩ addr.d.toList
    (by rw [hwords]; exact List.cons_ne_nil _ _) rfl rfl (by rw [hlength]; decide)
  unfold IpAddr.toString inetPton6
  simp only [htext, if_neg hcolon]
  rw [← htext, hloop, pton6End, List.nil_append, storage_words]
  simp

/-! ## Dotted Quads Read Back -/

theorem pton4Loop_cons (ch : UInt8) (src octets : Bytes) (tp : Option ℕ) :
    pton4Loop (ch :: src) octets tp =
      match decValue ch with
      | some digit =>
        if tp = some 0 then none
        else if 255 < tp.getD 0 * 10 + digit then none
        else pton4Loop src octets (some (tp.getD 0 * 10 + digit))
      | none =>
        match tp with
        | some v =>
          if ch = DOT ∧ octets.length ≠ 3 then pton4Loop src (octets ++ [.ofNat v]) none else none
        | none => none := by
  rw [pton4Loop.eq_def]

/-- A colon does not stand in a dotted quad. -/
theorem pton4Loop_of_colon (h : COLON ∈ src) : pton4Loop src octets tp = none := by
  induction src generalizing octets tp with
  | nil => cases h
  | cons ch src ih =>
    rw [pton4Loop_cons]
    rcases List.mem_cons.mp h with rfl | h
    · have hdigit : decValue COLON = none := rfl
      rw [hdigit]
      simp only
      split
      · exact if_neg fun hdot => absurd hdot.1 (by decide)
      · rfl
    · split
      · split
        · rfl
        · split
          · rfl
          · exact ih h
      · split
        · split
          · exact ih h
          · rfl
        · rfl

/-- Four bytes are stored. -/
theorem pton4Loop_length {quad : Bytes} (h : pton4Loop src octets tp = some quad) :
    quad.length = 4 := by
  induction src generalizing octets tp with
  | nil =>
    cases tp with
    | none => cases h
    | some v =>
      rw [pton4Loop] at h
      split at h <;> cases h
      rename_i hthree
      rw [List.length_append, hthree, List.length_singleton]
  | cons ch src ih =>
    rw [pton4Loop_cons] at h
    split at h
    · split at h
      · cases h
      · split at h
        · cases h
        · exact ih h
    · split at h
      · split at h
        · exact ih h
        · cases h
      · cases h

/-- What `pton4Loop` accepts begins with a decimal number of at most three digits and a dot. -/
theorem pton4Loop_first {quad : Bytes} (htp : ∀ v, tp = some v → v ≤ 255)
    (h : pton4Loop src [] tp = some quad) :
    ∃ ds rest, src = ds ++ DOT :: rest ∧ (∀ ch ∈ ds, (decValue ch).isSome = true) ∧
      (tp = none → ds.length ≤ 3) ∧
      ∀ v, tp = some v → (v = 0 → ds = []) ∧ v * 10 ^ ds.length ≤ 255 := by
  induction src generalizing tp with
  | nil =>
    cases tp with
    | none => cases h
    | some v => simp [pton4Loop] at h
  | cons ch src ih =>
    rw [pton4Loop_cons] at h
    split at h
    · rename_i digit hdigit
      split at h
      · cases h
      · rename_i hzero
        split at h
        · cases h
        · rename_i hle
          obtain ⟨ds, rest, hsrc, hds, -, hvalue⟩ := ih (fun v hv => by cases hv; omega) h
          obtain ⟨hstop, hbound⟩ := hvalue _ rfl
          refine ⟨ch :: ds, rest, by rw [hsrc, List.cons_append], ?_, fun htp => ?_,
            fun v hv => ⟨fun hv0 => absurd (hv0 ▸ hv) hzero, ?_⟩⟩
          · exact List.forall_mem_cons.mpr ⟨by rw [hdigit]; rfl, hds⟩
          · rw [List.length_cons]
            rw [htp, Option.getD_none, Nat.zero_mul, Nat.zero_add] at hstop hbound
            rcases Nat.eq_zero_or_pos digit with hd0 | hd0
            · rw [hstop hd0, List.length_nil]
              omega
            · have hpow : 10 ^ ds.length ≤ 255 := (Nat.le_mul_of_pos_left _ hd0).trans hbound
              by_contra hlong
              have hthree : 10 ^ 3 ≤ 10 ^ ds.length :=
                Nat.pow_le_pow_right (by decide) (by omega)
              omega
          · rw [hv, Option.getD_some] at hbound
            calc v * 10 ^ (ch :: ds).length = v * 10 * 10 ^ ds.length := by
                  rw [List.length_cons, pow_succ']
                  ring
              _ ≤ (v * 10 + digit) * 10 ^ ds.length := Nat.mul_le_mul_right _ (by omega)
              _ ≤ 255 := hbound
    · split at h
      · rename_i v
        split at h
        · rename_i hdot
          refine ⟨[], src, by rw [hdot.1, List.nil_append], fun ch hch => (by cases hch),
            fun htp => (by cases htp), fun v' hv' => ⟨fun _ => rfl, ?_⟩⟩
          rw [List.length_nil, pow_zero, Nat.mul_one]
          exact htp v' hv'
        · cases h
      · cases h

/-- The loop for an IPv6 address reads decimal digits as hexadecimal ones. -/
theorem pton6Loop_decimal {text : Bytes} (htext : ∀ ch ∈ text, (decValue ch).isSome = true)
    (hseen : s.xdigits_seen + text.length ≤ 4) :
    ∃ val, pton6Loop (text ++ rest) curtok s = pton6Loop rest curtok { s with
      val, xdigits_seen := s.xdigits_seen + text.length } := by
  induction text generalizing s with
  | nil => exact ⟨s.val, rfl⟩
  | cons ch text ih =>
    obtain ⟨hch, htext⟩ := List.forall_mem_cons.mp htext
    obtain ⟨digit, hdigit⟩ := Option.isSome_iff_exists.mp hch
    rw [List.length_cons] at hseen
    obtain ⟨val, hval⟩ := ih (s := { s with
      val := s.val * 16 + digit, xdigits_seen := s.xdigits_seen + 1 }) htext (by simp only; omega)
    refine ⟨val, ?_⟩
    rw [List.cons_append, pton6Loop, hexValue_of_decValue hdigit]
    simp only
    rw [if_neg (by omega), hval]
    simp only [List.length_cons]
    congr 2
    omega

/-- **A dotted quad behind `::ffff:`** is read as the IPv4-mapped address. -/
theorem inetPton6_mapped {quad : Bytes} (h : inetPton4 src = some quad) :
    inetPton6 (MAPPED_PREFIX ++ src) = some (List.replicate 10 0 ++ [0xff, 0xff] ++ quad) := by
  obtain ⟨ds, rest, hsrc, hds, hthree, -⟩ := pton4Loop_first (fun v hv => by cases hv) h
  have hlength := pton4Loop_length h
  have hne : src ≠ [] := by
    rw [hsrc]
    simp
  have hmapped : inetPton6 (MAPPED_PREFIX ++ src) =
      pton6Loop src src ⟨[0xff, 0xff], some 0, 0, 0⟩ := by
    simp [MAPPED_PREFIX, inetPton6, pton6Loop, hexValue, COLON, hne, group]
  obtain ⟨val, hloop⟩ := pton6Loop_decimal (DOT :: rest) src
    (s := ⟨[0xff, 0xff], some 0, 0, 0⟩) hds (by have := hthree rfl; simp only; omega)
  have hdot : hexValue DOT = none := rfl
  rw [← hsrc] at hloop
  rw [hmapped, hloop, pton6Loop, hdot]
  simp only [h, if_neg (show DOT ≠ COLON by decide)]
  rw [if_pos (by simp), pton6End]
  simp [hlength]

/-- The loop reads the digits behind the first one. -/
theorem pton4Loop_digits (hds : ∀ d ∈ ds, d < 10) (hv : v ≠ 0) (hle : numeralValue 10 v ds ≤ 255) :
    pton4Loop (ds.map hexDigit ++ rest) octets (some v) =
      pton4Loop rest octets (some (numeralValue 10 v ds)) := by
  induction ds generalizing v with
  | nil => rfl
  | cons d ds ih =>
    obtain ⟨hd, hds⟩ := List.forall_mem_cons.mp hds
    have hnew : v * 10 + d ≤ 255 := (le_numeralValue (by decide) _ ds).trans hle
    rw [List.map_cons, List.cons_append, pton4Loop_cons, decValue_hexDigit hd]
    simp only [Option.some.injEq, if_neg hv, Option.getD_some, if_neg (not_lt.mpr hnew)]
    exact ih hds (by omega) hle

/-- A number that was written in decimal is read back. -/
theorem pton4Loop_numeral {n : ℕ} (hn : n ≤ 255) :
    pton4Loop ((numeral 10 n).map hexDigit ++ rest) octets none =
      pton4Loop rest octets (some n) := by
  obtain ⟨d, ds, hdigits⟩ := List.exists_cons_of_ne_nil (numeral_ne_nil 10 n)
  have hlt : ∀ d ∈ numeral 10 n, d < 10 := fun d hd => numeral_lt (by decide) hd
  have hvalue := numeralValue_numeral 10 n
  rw [hdigits] at hlt hvalue
  obtain ⟨hd, hds⟩ := List.forall_mem_cons.mp hlt
  rw [numeralValue_cons, Nat.zero_mul, Nat.zero_add] at hvalue
  have hfirst : d ≤ n := hvalue ▸ le_numeralValue (by decide) d ds
  have hstep : pton4Loop ((d :: ds).map hexDigit ++ rest) octets none =
      pton4Loop (ds.map hexDigit ++ rest) octets (some d) := by
    rw [List.map_cons, List.cons_append, pton4Loop_cons, decValue_hexDigit hd]
    simp only [reduceCtorEq, if_false, Option.getD_none, Nat.zero_mul, Nat.zero_add]
    rw [if_neg (by omega)]
  rw [hdigits, hstep]
  by_cases hzero : n = 0
  -- zero has one digit
  · subst hzero
    have hone : ds = [] ∧ d = 0 := by
      rw [numeral, if_pos rfl] at hdigits
      cases hdigits
      exact ⟨rfl, rfl⟩
    rw [hone.1, hone.2]
    rfl
  · have hlead : d ≠ 0 := by
      intro h0
      have hhead := numeral_head_ne_zero (b := 10) hzero
      rw [hdigits, h0] at hhead
      exact hhead rfl
    rw [pton4Loop_digits _ hds hlead (hvalue ▸ hn), hvalue]

/-- **Round trip** of dotted quads -/
theorem inetPton4_dottedQuad (a b c d : UInt8) :
    inetPton4 (dottedQuad a b c d) = some [a, b, c, d] := by
  have hdot : decValue DOT = none := rfl
  have hle (x : UInt8) : x.toNat ≤ 255 := Nat.le_of_lt_succ x.toNat_lt
  have hlast (octets : Bytes) : pton4Loop ((numeral 10 d.toNat).map hexDigit) octets none =
      pton4Loop [] octets (some d.toNat) := by
    simpa using @pton4Loop_numeral [] octets _ (hle d)
  simp only [inetPton4, dottedQuad, pton4Loop_numeral _ (hle _), pton4Loop_cons, hdot, hlast]
  simp [pton4Loop]

/-! ## C Strings -/

theorem cString_of_notMem {text : Bytes} (h : 0 ∉ text) : cString text = text := by
  refine List.takeWhile_eq_self_iff.mpr fun ch hch => ?_
  exact decide_eq_true fun hzero => h (hzero ▸ hch)

/-- Neither digits nor their separators end a C string. -/
theorem zero_notMem_digits {b n : ℕ} (hb : 1 < b) (hsixteen : b ≤ 16) :
    0 ∉ (numeral b n).map hexDigit := by
  intro h
  obtain ⟨d, hd, hzero⟩ := List.mem_map.mp h
  have hlt : d < 16 := (numeral_lt hb hd).trans_le hsixteen
  interval_cases d <;> exact absurd hzero (by decide)

theorem zero_notMem_printWords (words : List UInt16) : 0 ∉ printWords words := by
  induction words with
  | nil => exact List.not_mem_nil
  | cons word words ih =>
    have hword := zero_notMem_digits (n := (wordNetworkEndian16 word).toNat) (b := 16)
      (by decide) (le_refl _)
    cases words with
    | nil => exact hword
    | cons next words =>
      simp only [printWords, List.mem_append, List.mem_cons, not_or]
      exact ⟨hword, by decide, ih⟩

theorem zero_notMem_dottedQuad (a b c d : UInt8) : 0 ∉ dottedQuad a b c d := by
  have hdec (x : UInt8) : 0 ∉ (numeral 10 x.toNat).map hexDigit :=
    zero_notMem_digits (by decide) (by decide)
  have hdot : (0 : UInt8) ≠ DOT := by decide
  simp only [dottedQuad, List.mem_append, List.mem_cons, not_or]
  exact ⟨hdec a, hdot, hdec b, hdot, hdec c, hdot, hdec d⟩

theorem cString_mappedPrefix (text : Bytes) :
    cString (MAPPED_PREFIX ++ text) = MAPPED_PREFIX ++ cString text := by
  refine List.takeWhile_append_of_pos fun ch hch => ?_
  have hall : ∀ ch ∈ MAPPED_PREFIX, ch ≠ 0 := by simp [MAPPED_PREFIX, COLON]
  exact decide_eq_true (hall ch hch)

end Inet

/-! ## What `destFromString` Accepts -/

section DestFromString

variable (dest : InetDest) (addr : Vector UInt8 16) (port : UInt16)

/-- An address that was written by `toString` -/
theorem destFromString_toString (written : IpAddr) :
    Socket.destFromString dest addr written.toString port =
      { dest with port, valid := true, addr := written } := by
  have hcolon : COLON ∈ written.toString := by
    obtain ⟨⟨⟨words⟩, hsize⟩⟩ := written
    match words, hsize with
    | [_, _, _, _, _, _, _, _], _ => simp [IpAddr.toString, printWords]
  have hquad : inetPton4 written.toString = none := pton4Loop_of_colon hcolon
  have htext : cString written.toString = written.toString :=
    cString_of_notMem (zero_notMem_printWords _)
  rw [Socket.destFromString, htext, hquad]
  simp only [inetPton6_toString, netOrder_toList, IpAddr.set_get]

/-- A dotted quad is read as its IPv4-mapped address. -/
theorem destFromString_quad {text : Bytes} {a b c d : UInt8}
    (h : inetPton4 (cString text) = some [a, b, c, d]) :
    Socket.destFromString dest addr text port =
      { dest with port, valid := true, addr := .set (IpAddr.mapped a b c d) } := by
  have hmapped : netOrder (List.replicate 10 0 ++ [0xff, 0xff] ++ [a, b, c, d]) =
      IpAddr.mapped a b c d := rfl
  rw [Socket.destFromString, h, cString_mappedPrefix]
  simp only [inetPton6_mapped h, hmapped]

/-- `inet_pton` stores four bytes. -/
theorem exists_quad {text quad : Bytes} (h : inetPton4 text = some quad) :
    ∃ a b c d, quad = [a, b, c, d] := by
  match quad, pton4Loop_length h with
  | [a, b, c, d], _ => exact ⟨a, b, c, d, rfl⟩

theorem destFromString_valid_iff (text : Bytes) :
    (Socket.destFromString dest addr text port).valid = true ↔
      (inetPton4 (cString text)).isSome = true ∨ (inetPton6 (cString text)).isSome = true := by
  cases hquad : inetPton4 (cString text) with
  | some quad =>
    obtain ⟨a, b, c, d, rfl⟩ := exists_quad hquad
    simp [destFromString_quad dest addr port hquad]
  | none =>
    rw [Socket.destFromString, hquad]
    cases hsix : inetPton6 (cString text) <;> simp

/-- **Addresses as text**: an address that was written is read back, a dotted quad is read as the
IPv4 address that it stands for, and nothing is accepted but what `inet_pton` accepts. -/
theorem destFromString_round_trip :
    (∀ written : IpAddr, Socket.destFromString dest addr written.toString port =
      { dest with port, valid := true, addr := written }) ∧
    (∀ a b c d, Socket.destFromString dest addr (dottedQuad a b c d) port =
      { dest with port, valid := true, addr := .set (IpAddr.mapped a b c d) }) ∧
    ∀ text, (Socket.destFromString dest addr text port).valid = true ↔
      (inetPton4 (cString text)).isSome = true ∨ (inetPton6 (cString text)).isSome = true := by
  refine ⟨destFromString_toString dest addr port, fun a b c d => ?_,
    destFromString_valid_iff dest addr port⟩
  refine destFromString_quad dest addr port ?_
  rw [cString_of_notMem (zero_notMem_dottedQuad a b c d)]
  exact inetPton4_dottedQuad a b c d

end DestFromString

end Epoller
