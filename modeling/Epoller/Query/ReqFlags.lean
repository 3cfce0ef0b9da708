import Epoller.Foundation.BitFields
import Epoller.Query.Encode
import Epoller.Query.Response

/-!
# The Flags of a Message

`ReqFlags` of `query.cpp`: the second word of a header, with ten fields that are read
and written by masks and shifts. The class is to behave as if each field were a
variable of its own: a record of ten fields is compared with the word.

## Contents

- `getBits`, `ReqFlags`: the functions
- `FlagRecord`, `ReqFlags.record`: ten variables, and what a word stands for
- `puts_setBits`, `toNat_getBits`: the masks
- `record_call`: a setter changes its own field, and no other
- `record_injective`: the fields determine the word
- `decodeHeader_words`, `decodeHeader_resolve`: the header of a message is read back
- `flags_of_calls`: any sequence of setters
-/

namespace Epoller.Query

open Foundation

/-! ## The Word -/

/-- `getBits` -/
def getBits (d : UInt16) (startBitPos bitLen : UInt32) : UInt64 :=
  let mask := (((1 <<< bitLen) - 1) <<< startBitPos : UInt32).toUInt16
  ((d &&& mask).toUInt32 >>> startBitPos).toUInt64

/-- `Qr`, `Opcode` and `Rcode`: enumerations over `int`; a word can hold values without a name. -/
abbrev Qr := Int32

abbrev Opcode := Int32

abbrev Rcode := Int32

structure ReqFlags where
  d : UInt16
deriving DecidableEq, Repr

namespace ReqFlags

/-- A member with the type of an enumeration -/
def getEnum (f : ReqFlags) (startBitPos bitLen : UInt32) : Int32 :=
  (getBits f.d startBitPos bitLen).toUInt32.toInt32

def setEnum (f : ReqFlags) (startBitPos bitLen : UInt32) (val : Int32) : ReqFlags :=
  ⟨setBits f.d startBitPos bitLen val.toUInt32.toUInt16⟩

/-- A member of type `bool` -/
def getBool (f : ReqFlags) (startBitPos : UInt32) : Bool := decide (getBits f.d startBitPos 1 ≠ 0)

def setBool (f : ReqFlags) (startBitPos : UInt32) (val : Bool) : ReqFlags :=
  ⟨setBits f.d startBitPos 1 (if val = true then 1 else 0)⟩

def qr (f : ReqFlags) : Qr := f.getEnum 15 1
def setQr (f : ReqFlags) (qr : Qr) : ReqFlags := f.setEnum 15 1 qr

def opcode (f : ReqFlags) : Opcode := f.getEnum 11 4
def setOpcode (f : ReqFlags) (opcode : Opcode) : ReqFlags := f.setEnum 11 4 opcode

def aa (f : ReqFlags) : Bool := f.getBool 10
def setAa (f : ReqFlags) (aa : Bool) : ReqFlags := f.setBool 10 aa

def tc (f : ReqFlags) : Bool := f.getBool 9
def setTc (f : ReqFlags) (tc : Bool) : ReqFlags := f.setBool 9 tc

def rd (f : ReqFlags) : Bool := f.getBool 8
def setRd (f : ReqFlags) (rd : Bool) : ReqFlags := f.setBool 8 rd

def ra (f : ReqFlags) : Bool := f.getBool 7
def setRa (f : ReqFlags) (ra : Bool) : ReqFlags := f.setBool 7 ra

/-- The type is `size_t`, but the bit is converted to `bool`. -/
def z (f : ReqFlags) : UInt64 := if f.getBool 6 = true then 1 else 0
def setZ (f : ReqFlags) (z : UInt64) : ReqFlags := ⟨setBits f.d 6 1 z.toUInt16⟩

def ad (f : ReqFlags) : Bool := f.getBool 5
def setAd (f : ReqFlags) (ad : Bool) : ReqFlags := f.setBool 5 ad

def cd (f : ReqFlags) : Bool := f.getBool 4
def setCd (f : ReqFlags) (cd : Bool) : ReqFlags := f.setBool 4 cd

def rcode (f : ReqFlags) : Rcode := f.getEnum 0 4
def setRcode (f : ReqFlags) (rcode : Rcode) : ReqFlags := f.setEnum 0 4 rcode

end ReqFlags

/-- A call of a setter -/
inductive FlagCall where
  | qr (qr : Qr)
  | opcode (opcode : Opcode)
  | aa (aa : Bool)
  | tc (tc : Bool)
  | rd (rd : Bool)
  | ra (ra : Bool)
  | z (z : UInt64)
  | ad (ad : Bool)
  | cd (cd : Bool)
  | rcode (rcode : Rcode)
deriving DecidableEq, Repr

def ReqFlags.call (f : ReqFlags) : FlagCall → ReqFlags
  | .qr qr => f.setQr qr
  | .opcode opcode => f.setOpcode opcode
  | .aa aa => f.setAa aa
  | .tc tc => f.setTc tc
  | .rd rd => f.setRd rd
  | .ra ra => f.setRa ra
  | .z z => f.setZ z
  | .ad ad => f.setAd ad
  | .cd cd => f.setCd cd
  | .rcode rcode => f.setRcode rcode

/-! ## Ten Variables -/

/-- The fields as variables of their own -/
structure FlagRecord where
  qr : Qr
  opcode : Opcode
  aa : Bool
  tc : Bool
  rd : Bool
  ra : Bool
  z : UInt64
  ad : Bool
  cd : Bool
  rcode : Rcode
deriving DecidableEq, Repr

/-- An assignment; a variable keeps as many bits as its field has. -/
def FlagRecord.call (r : FlagRecord) : FlagCall → FlagRecord
  | .qr qr => { r with qr := qr &&& 1 }
  | .opcode opcode => { r with opcode := opcode &&& 15 }
  | .aa aa => { r with aa }
  | .tc tc => { r with tc }
  | .rd rd => { r with rd }
  | .ra ra => { r with ra }
  | .z z => { r with z := z &&& 1 }
  | .ad ad => { r with ad }
  | .cd cd => { r with cd }
  | .rcode rcode => { r with rcode := rcode &&& 15 }

/-- What the getters make of a word -/
def ReqFlags.record (f : ReqFlags) : FlagRecord where
  qr := f.qr
  opcode := f.opcode
  aa := f.aa
  tc := f.tc
  rd := f.rd
  ra := f.ra
  z := f.z
  ad := f.ad
  cd := f.cd
  rcode := f.rcode

/-! ## Masks -/

variable {start len start' len' : UInt32} {n : ℕ}

/-- A field of a word of 16 bits -/
theorem shiftLeft_lt (h : start.toNat + len.toNat ≤ 16) (hn : n < 2 ^ len.toNat) :
    n <<< start.toNat < 2 ^ 16 := by
  rw [Nat.shiftLeft_eq]
  calc n * 2 ^ start.toNat
      < 2 ^ len.toNat * 2 ^ start.toNat := Nat.mul_lt_mul_of_pos_right hn (Nat.two_pow_pos _)
    _ = 2 ^ (start.toNat + len.toNat) := by rw [← pow_add, Nat.add_comm]
    _ ≤ 2 ^ 16 := Nat.pow_le_pow_right (by decide) h

theorem ones_lt (len : UInt32) : 2 ^ len.toNat - 1 < 2 ^ len.toNat :=
  Nat.sub_lt (Nat.two_pow_pos _) Nat.one_pos

/-- `(1u << bitLen) - 1` -/
theorem toNat_ones (hlen : len.toNat ≤ 16) :
    ((1 <<< len : UInt32) - 1).toNat = 2 ^ len.toNat - 1 := by
  have hpow : (1 <<< len : UInt32).toNat = 2 ^ len.toNat := by
    have hlt : 2 ^ len.toNat < 2 ^ 32 := Nat.pow_lt_pow_right (by decide) (by omega)
    rw [UInt32.toNat_shiftLeft, Nat.mod_eq_of_lt (by omega : len.toNat < 32), Nat.shiftLeft_eq]
    simpa using Nat.mod_eq_of_lt hlt
  have hone : (1 : UInt32) ≤ 1 <<< len := by
    rw [UInt32.le_iff_toNat_le, hpow]
    exact Nat.one_le_two_pow
  rw [UInt32.toNat_sub_of_le _ _ hone, hpow]
  rfl

/-- `((1u << bitLen) - 1) << startBitPos` -/
theorem toNat_mask (h : start.toNat + len.toNat ≤ 16) :
    (((1 <<< len) - 1) <<< start : UInt32).toNat = (2 ^ len.toNat - 1) <<< start.toNat := by
  have hlt := shiftLeft_lt h (ones_lt len)
  rw [UInt32.toNat_shiftLeft, toNat_ones (by omega),
    Nat.mod_eq_of_lt (by omega : start.toNat < 32), Nat.mod_eq_of_lt (by omega)]

/-- `getBits` reads the field. -/
theorem toNat_getBits (h : start.toNat + len.toNat ≤ 16) (d : UInt16) :
    (getBits d start len).toNat = bitField d.toNat start.toNat len.toNat := by
  have hlt := shiftLeft_lt h (ones_lt len)
  have hstart : start.toNat % 32 = start.toNat := Nat.mod_eq_of_lt (by omega)
  simp only [getBits, UInt32.toNat_toUInt64, UInt32.toNat_shiftRight, UInt16.toNat_toUInt32,
    UInt16.toNat_and, UInt32.toNat_toUInt16, toNat_mask h, hstart, Nat.mod_eq_of_lt hlt]
  exact and_mask_shiftRight _ _ _

/-- `~(((1u << bitLen) - 1) << startBitPos)`, cut to the word -/
theorem toNat_clearMask (h : start.toNat + len.toNat ≤ 16) :
    (~~~(((1 <<< len) - 1) <<< start) : UInt32).toUInt16.toNat =
      2 ^ 16 - ((2 ^ len.toNat - 1) <<< start.toNat + 1) := by
  have hcut : ∀ m, m < 2 ^ 16 → (2 ^ 32 - 1 - m) % 2 ^ 16 = 2 ^ 16 - (m + 1) := by omega
  rw [UInt32.toNat_toUInt16, UInt32.toNat_not, toNat_mask h]
  exact hcut _ (shiftLeft_lt h (ones_lt len))

/-- `(val & ((1u << bitLen) - 1)) << startBitPos` -/
theorem toNat_setMask (h : start.toNat + len.toNat ≤ 16) (val : UInt16) :
    ((val.toUInt32 &&& ((1 <<< len) - 1)) <<< start).toUInt16.toNat =
      (val.toNat &&& (2 ^ len.toNat - 1)) <<< start.toNat := by
  have hcut : ∀ m, m < 2 ^ 16 → m % 2 ^ 32 % 2 ^ 16 = m := by omega
  rw [UInt32.toNat_toUInt16, UInt32.toNat_shiftLeft, UInt32.toNat_and, UInt16.toNat_toUInt32,
    toNat_ones (by omega), Nat.mod_eq_of_lt (by omega : start.toNat < 32)]
  exact hcut _ (shiftLeft_lt h (Nat.and_lt_two_pow _ (ones_lt len)))

/-- `setBits` replaces the field. -/
theorem puts_setBits (h : start.toNat + len.toNat ≤ 16) (d val : UInt16) :
    Puts d.toNat start.toNat len.toNat val.toNat (setBits d start len val).toNat := by
  have hmasks := puts_masks d.toNat_lt h val.toNat
  rw [← toNat_clearMask h, ← toNat_setMask h, ← UInt16.toNat_and, ← UInt16.toNat_or] at hmasks
  exact hmasks

/-- What was set is got, cut to the field. -/
theorem toNat_getBits_setBits (h : start.toNat + len.toNat ≤ 16) (d val : UInt16) :
    (getBits (setBits d start len val) start len).toNat = val.toNat % 2 ^ len.toNat := by
  rw [toNat_getBits h]
  exact (puts_setBits h d val).bitField_same

/-- **Frame**: what is got from another field is what it was. -/
theorem getBits_setBits_other (h : start.toNat + len.toNat ≤ 16)
    (h' : start'.toNat + len'.toNat ≤ 16)
    (hdisjoint : start'.toNat + len'.toNat ≤ start.toNat ∨ start.toNat + len.toNat ≤ start'.toNat)
    (d val : UInt16) : getBits (setBits d start len val) start' len' = getBits d start' len' := by
  apply UInt64.toNat_inj.mp
  rw [toNat_getBits h', toNat_getBits h']
  exact (puts_setBits h d val).bitField_other hdisjoint

/-! ## Setters and Getters -/

namespace ReqFlags

variable {f g : ReqFlags}

theorem eq_of_toUInt32 {a b : Int32} (h : a.toUInt32 = b.toUInt32) : a = b :=
  Int32.toBitVec_inj.mp (congrArg UInt32.toBitVec h)

theorem toUInt32_getEnum (f : ReqFlags) (start len : UInt32) :
    (f.getEnum start len).toUInt32 = (getBits f.d start len).toUInt32 := by
  rw [getEnum, UInt32.toUInt32_toInt32]

/-- What was set in a member with the type of an enumeration -/
theorem getEnum_setBits (start len : UInt32) (mask : Int32) (h : start.toNat + len.toNat ≤ 16)
    (hmask : mask.toUInt32.toNat = 2 ^ len.toNat - 1) (d : UInt16) (val : Int32) :
    getEnum ⟨setBits d start len val.toUInt32.toUInt16⟩ start len = val &&& mask := by
  apply eq_of_toUInt32
  apply UInt32.toNat_inj.mp
  have hlow : 2 ^ len.toNat ∣ 2 ^ 16 := Nat.pow_dvd_pow 2 (by omega)
  have hlt : val.toUInt32.toNat % 2 ^ len.toNat < 2 ^ 32 :=
    (Nat.mod_le _ _).trans_lt val.toUInt32.toNat_lt
  rw [toUInt32_getEnum, UInt64.toNat_toUInt32, toNat_getBits_setBits h,
    UInt32.toNat_toUInt16, Nat.mod_mod_of_dvd _ hlow, Int32.toUInt32_and, UInt32.toNat_and, hmask,
    Nat.and_two_pow_sub_one_eq_mod, Nat.mod_eq_of_lt hlt]

theorem getBool_eq_true_iff (f : ReqFlags) (start : UInt32) :
    f.getBool start = true ↔ (getBits f.d start 1).toNat ≠ 0 := by
  rw [getBool, decide_eq_true_iff, ne_eq, ne_eq, ← UInt64.toNat_inj]
  rfl

theorem getBool_setBits (h : start.toNat + 1 ≤ 16) (d val : UInt16) :
    getBool ⟨setBits d start 1 val⟩ start = decide (val.toNat % 2 ≠ 0) := by
  have hgot : (getBits (setBits d start 1 val) start 1).toNat = val.toNat % 2 :=
    toNat_getBits_setBits h d val
  rw [Bool.eq_iff_iff, getBool_eq_true_iff, hgot, decide_eq_true_iff]

/-- A setter leaves the other fields as they are. -/
theorem getEnum_setBits_other (h : start.toNat + len.toNat ≤ 16)
    (h' : start'.toNat + len'.toNat ≤ 16)
    (hdisjoint : start'.toNat + len'.toNat ≤ start.toNat ∨ start.toNat + len.toNat ≤ start'.toNat)
    (d val : UInt16) :
    getEnum ⟨setBits d start len val⟩ start' len' = getEnum ⟨d⟩ start' len' := by
  simp only [getEnum, getBits_setBits_other h h' hdisjoint]

theorem getBool_setBits_other (h : start.toNat + len.toNat ≤ 16) (h' : start'.toNat + 1 ≤ 16)
    (hdisjoint : start'.toNat + 1 ≤ start.toNat ∨ start.toNat + len.toNat ≤ start'.toNat)
    (d val : UInt16) : getBool ⟨setBits d start len val⟩ start' = getBool ⟨d⟩ start' := by
  have hgot : getBits (setBits d start len val) start' 1 = getBits d start' 1 :=
    getBits_setBits_other h h' hdisjoint d val
  simp only [getBool, hgot]

/-- A value of type `bool` in a field of one bit -/
theorem bit_ofBool (val : Bool) :
    decide ((if val = true then (1 : UInt16) else 0).toNat % 2 ≠ 0) = val := by
  cases val <;> decide

theorem bit_ofSize (z : UInt64) :
    (if decide (z.toUInt16.toNat % 2 ≠ 0) = true then 1 else 0 : UInt64) = z &&& 1 := by
  apply UInt64.toNat_inj.mp
  rw [UInt64.toNat_toUInt16, UInt64.toNat_and, UInt64.toNat_one, Nat.and_one_is_mod,
    Nat.mod_mod_of_dvd _ (by decide : 2 ∣ 2 ^ 16)]
  rcases Nat.mod_two_eq_zero_or_one z.toNat with hbit | hbit <;> rw [hbit] <;> rfl

/-- **Step**: a setter changes its own field, and no other. -/
theorem record_call (f : ReqFlags) (c : FlagCall) : (f.call c).record = f.record.call c := by
  cases c with
  | qr | opcode | aa | tc | rd | ra | z | ad | cd | rcode =>
    -- unfolded to calls of `setBits` and to what is got behind them
    simp only [call, FlagRecord.call, record, setQr, setOpcode, setAa, setTc, setRd, setRa, setZ,
      setAd, setCd, setRcode, setEnum, setBool, ReqFlags.qr, ReqFlags.opcode, ReqFlags.aa,
      ReqFlags.tc, ReqFlags.rd, ReqFlags.ra, ReqFlags.z, ReqFlags.ad, ReqFlags.cd, ReqFlags.rcode]
    simp (disch := decide) only [getEnum_setBits 15 1 1, getEnum_setBits 11 4 15,
      getEnum_setBits 0 4 15, getEnum_setBits_other, getBool_setBits, getBool_setBits_other,
      bit_ofBool, bit_ofSize]

/-! ## Words and Records -/

theorem bitField_of_getEnum (start len : UInt32) (h : start.toNat + len.toNat ≤ 16)
    (heq : f.getEnum start len = g.getEnum start len) :
    bitField f.d.toNat start.toNat len.toNat = bitField g.d.toNat start.toNat len.toNat := by
  -- what is got fits into an `int`
  have hlt : ∀ d : UInt16, (getBits d start len).toNat % 2 ^ 32 = (getBits d start len).toNat := by
    intro d
    have hfield := bitField_lt d.toNat start.toNat len.toNat
    have hpow : 2 ^ len.toNat ≤ 2 ^ 32 := Nat.pow_le_pow_right (by decide) (by omega)
    rw [toNat_getBits h]
    exact Nat.mod_eq_of_lt (hfield.trans_le hpow)
  have hgot := congrArg (fun x => x.toUInt32.toNat) heq
  simp only [toUInt32_getEnum, UInt64.toNat_toUInt32, hlt] at hgot
  rwa [toNat_getBits h, toNat_getBits h] at hgot

theorem bitField_of_getBool (start : UInt32) (h : start.toNat + 1 ≤ 16)
    (heq : f.getBool start = g.getBool start) :
    bitField f.d.toNat start.toNat 1 = bitField g.d.toNat start.toNat 1 := by
  have hgot : ∀ r : ReqFlags, r.getBool start = true ↔ bitField r.d.toNat start.toNat 1 ≠ 0 := by
    intro r
    have hfield : (getBits r.d start 1).toNat = bitField r.d.toNat start.toNat 1 :=
      toNat_getBits h r.d
    rw [getBool_eq_true_iff, hfield]
  have hiff := (hgot f).symm.trans ((Bool.eq_iff_iff.mp heq).trans (hgot g))
  have hf := bitField_lt f.d.toNat start.toNat 1
  have hg := bitField_lt g.d.toNat start.toNat 1
  omega

theorem z_eq_one_iff (f : ReqFlags) : f.z = 1 ↔ f.getBool 6 = true := by
  unfold z
  cases f.getBool 6 <;> decide

/-- Where the fields are, and how long -/
def fields : List (ℕ × ℕ) :=
  [(15, 1), (11, 4), (10, 1), (9, 1), (8, 1), (7, 1), (6, 1), (5, 1), (4, 1), (0, 4)]

theorem fields_cover : ∀ i < 16, ∃ p ∈ fields, p.1 ≤ i ∧ i < p.1 + p.2 := by decide

/-- **The fields determine the word.** -/
theorem record_injective (h : f.record = g.record) : f = g := by
  simp only [record, FlagRecord.mk.injEq] at h
  obtain ⟨hqr, hopcode, haa, htc, hrd, hra, hz, had, hcd, hrcode⟩ := h
  have hz' : f.getBool 6 = g.getBool 6 := by
    rw [Bool.eq_iff_iff, ← z_eq_one_iff, ← z_eq_one_iff, hz]
  have hfields : ∀ p ∈ fields, bitField f.d.toNat p.1 p.2 = bitField g.d.toNat p.1 p.2 := by
    intro p hp
    simp only [fields, List.mem_cons, List.not_mem_nil, or_false] at hp
    rcases hp with rfl | rfl | rfl | rfl | rfl | rfl | rfl | rfl | rfl | rfl
    · exact bitField_of_getEnum 15 1 (by decide) hqr
    · exact bitField_of_getEnum 11 4 (by decide) hopcode
    · exact bitField_of_getBool 10 (by decide) haa
    · exact bitField_of_getBool 9 (by decide) htc
    · exact bitField_of_getBool 8 (by decide) hrd
    · exact bitField_of_getBool 7 (by decide) hra
    · exact bitField_of_getBool 6 (by decide) hz'
    · exact bitField_of_getBool 5 (by decide) had
    · exact bitField_of_getBool 4 (by decide) hcd
    · exact bitField_of_getEnum 0 4 (by decide) hrcode
  have hd := eq_of_bitFields fields f.d.toNat_lt g.d.toNat_lt fields_cover hfields
  cases f
  cases g
  exact congrArg ReqFlags.mk (UInt16.toNat_inj.mp hd)

/-- Setters one after the other -/
def callAll (f : ReqFlags) (calls : List FlagCall) : ReqFlags := calls.foldl call f

end ReqFlags

/-- Assignments one after the other -/
def FlagRecord.callAll (r : FlagRecord) (calls : List FlagCall) : FlagRecord :=
  calls.foldl FlagRecord.call r

namespace ReqFlags

variable {f g : ReqFlags}

theorem record_callAll (f : ReqFlags) (calls : List FlagCall) :
    (f.callAll calls).record = f.record.callAll calls := by
  induction calls generalizing f with
  | nil => rfl
  | cons c calls ih =>
    show ((f.call c).callAll calls).record = (f.record.call c).callAll calls
    rw [ih, record_call]

/-- One setter for each field -/
def assignments (r : FlagRecord) : List FlagCall :=
  [.qr r.qr, .opcode r.opcode, .aa r.aa, .tc r.tc, .rd r.rd, .ra r.ra, .z r.z, .ad r.ad, .cd r.cd,
    .rcode r.rcode]

/-- What is got from a field fits into it. -/
theorem getEnum_and (start len : UInt32) (mask : Int32) (h : start.toNat + len.toNat ≤ 16)
    (hmask : mask.toUInt32.toNat = 2 ^ len.toNat - 1) (f : ReqFlags) :
    f.getEnum start len &&& mask = f.getEnum start len := by
  apply eq_of_toUInt32
  apply UInt32.toNat_inj.mp
  have hfield := bitField_lt f.d.toNat start.toNat len.toNat
  rw [← toNat_getBits h] at hfield
  rw [Int32.toUInt32_and, toUInt32_getEnum, UInt32.toNat_and, hmask,
    Nat.and_two_pow_sub_one_eq_mod, UInt64.toNat_toUInt32]
  exact Nat.mod_eq_of_lt ((Nat.mod_le _ _).trans_lt hfield)

theorem z_and_one (f : ReqFlags) : f.z &&& 1 = f.z := by
  unfold z
  split <;> rfl

/-- **Copies**: the ten setters make any word the one that they are given the fields of. -/
theorem callAll_assignments (f g : ReqFlags) : g.callAll (assignments f.record) = f := by
  apply record_injective
  rw [record_callAll]
  have hqr : f.qr &&& 1 = f.qr := getEnum_and 15 1 1 (by decide) (by decide) f
  have hopcode : f.opcode &&& 15 = f.opcode := getEnum_and 11 4 15 (by decide) (by decide) f
  have hrcode : f.rcode &&& 15 = f.rcode := getEnum_and 0 4 15 (by decide) (by decide) f
  simp only [FlagRecord.callAll, assignments, record, List.foldl_cons, List.foldl_nil,
    FlagRecord.call, hqr, hopcode, hrcode, z_and_one]

end ReqFlags

/-! ## Messages -/

/-- **Headers** are read back. -/
theorem decodeHeader_words (header : Header) (rest : Bytes) :
    decodeHeader (streamWords header.words [] ++ rest) = .ok header := by
  obtain ⟨data, hdata⟩ : ∃ data, data = streamWords header.words [] ++ rest := ⟨_, rfl⟩
  rw [← hdata]
  rw [streamWords_eq, List.nil_append] at hdata
  have hlen : HEADER_SIZE ≤ data.length := by
    rw [hdata, List.length_append]
    simp only [Header.words, List.flatMap_cons, List.length_append, length_wordBytes, HEADER_SIZE]
    omega
  have hwords : StandsAt data 0 (header.words.flatMap wordBytes) :=
    hdata ▸ List.prefix_append ..
  simp only [Header.words, List.flatMap_cons, List.flatMap_nil, standsAt_append,
    length_wordBytes] at hwords
  -- the six words in their order
  obtain ⟨hid, hflags, hqd, han, hns, har, -⟩ := hwords
  rw [decodeHeader, if_pos hlen, readWord_wordBytes hid, readWord_wordBytes hflags,
    readWord_wordBytes hqd, readWord_wordBytes han, readWord_wordBytes hns,
    readWord_wordBytes har]
  rfl

/-- **Queries**: the header of a query, whatever the name is -/
theorem decodeHeader_resolve (reqNo : UInt16) (name : Bytes) (qType : Qtype) :
    decodeHeader (resolve reqNo name qType) = .ok ⟨reqNo, queryFlags, 1, 0, 0, 0⟩ := by
  let header : Header := ⟨reqNo, queryFlags, 1, 0, 0, 0⟩
  let first := getLen name (some 0)
  obtain ⟨out, hout⟩ := encodeNameLoop_append name name first.2 (some first.1)
    (streamWords header.words [] ++ [.ofNat first.1])
  have hname : encodeName name (streamWords header.words []) =
      streamWords header.words [] ++ ([.ofNat first.1] ++ out ++ [0]) := by
    show encodeNameLoop name name first.2 (some first.1)
      (streamWords header.words [] ++ [.ofNat first.1]) ++ [0] = _
    rw [hout]
    simp only [List.append_assoc]
  have hquery : resolve reqNo name qType = streamWords (Footer.mk qType Qclass.Internet).words
      (encodeName name (streamWords header.words [])) := rfl
  rw [hquery, streamWords_eq, hname, List.append_assoc]
  exact decodeHeader_words header _

namespace ReqFlags

/-- The flags that `resolve` sets, in its order -/
def queryCalls : List FlagCall :=
  [.qr 0, .opcode 0, .tc false, .rd true, .ra false, .aa false]

theorem queryFlags_eq : queryFlags = (callAll ⟨0⟩ queryCalls).d := rfl

/-- **Queries over the wire**: who reads a query gets what `resolve` has assigned. -/
theorem record_resolve (reqNo : UInt16) (name : Bytes) (qType : Qtype) :
    ∃ got, decodeHeader (resolve reqNo name qType) = .ok got ∧
      record ⟨got.reqFlags⟩ = (record ⟨0⟩).callAll queryCalls := by
  refine ⟨_, decodeHeader_resolve reqNo name qType, ?_⟩
  rw [queryFlags_eq]
  exact record_callAll ⟨0⟩ queryCalls

/-- **Flags over the wire**: whatever setters were called, in whatever order, who reads the header
of the message gets from each field what was last assigned to it. The fields determine the word,
and a word can be copied field by field. -/
theorem flags_of_calls (f g : ReqFlags) (calls : List FlagCall) (header : Header) (rest : Bytes) :
    (∃ got, decodeHeader (streamWords
        { header with reqFlags := (f.callAll calls).d }.words [] ++ rest) = .ok got ∧
      record ⟨got.reqFlags⟩ = f.record.callAll calls) ∧
    (f.record = g.record ↔ f = g) ∧ g.callAll (assignments f.record) = f := by
  refine ⟨⟨_, decodeHeader_words _ rest, ?_⟩, ⟨record_injective, fun h => h ▸ rfl⟩,
    callAll_assignments f g⟩
  exact record_callAll f calls

end ReqFlags

end Epoller.Query
