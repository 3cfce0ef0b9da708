import Epoller.Endians
import Epoller.Foundation.Cursor

/-!
# Shared Types

Byte strings, times and Internet addresses (`types.hpp`, `clock.hpp`,
`constants.hpp`). An `IpAddr` holds eight 16-bit words whose storage is the
address in network order; an IPv4 address is stored behind the prefix
`::ffff:0:0`.

- `IpAddr.get_set`: what was set is read back
- `IpAddr.get_setIpV4`: four bytes are stored as an IPv4-mapped address
- `IpAddr.isIpv4Addr_set_iff`: the prefix tells an IPv4-mapped address
- `IpAddr.represents`: the setters agree with each other and with `get`
-/

namespace Epoller

open Foundation

/-- `std::vector<uint8_t>`; also the bytes of a `std::string` -/
abbrev Bytes := List UInt8

/-- `NanoSecs`: a duration in nanoseconds -/
abbrev NanoSecs := ℤ

/-- `TimePointNs`: nanoseconds since the epoch of the steady clock -/
abbrev TimePointNs := ℤ

def ONE_SEC_IN_NS : ℕ := 1000000000

def MAX_PACKET_SIZE : ℕ := 4096

/-! ## Characters -/

/-- `'.'` -/
def DOT : UInt8 := 0x2e

/-- `':'` -/
def COLON : UInt8 := 0x3a

/-! ## Internet Addresses -/

/-- `IpAddr`: the words of the member `d` -/
structure IpAddr where
  d : Vector UInt16 8
deriving DecidableEq, Repr

namespace IpAddr

def ip4Prefix : Vector UInt16 8 := #v[0, 0, 0, 0, 0, 0xffff, 0, 0]

/-- `setIpV4(Bytes const&)` -/
def setIpV4 (src : Bytes) : Except OutOfBounds IpAddr := do
  let src1 ← readAt src 1
  let src0 ← readAt src 0
  let d := ip4Prefix.set 6 (networkEndian16 src1 src0)
  let src3 ← readAt src 3
  let src2 ← readAt src 2
  .ok ⟨d.set 7 (networkEndian16 src3 src2)⟩

/-- `setIpV4(uint32_t const)`: the two halves of the storage of `addr` -/
def setIpV4Word (addr : UInt32) : IpAddr :=
  let a := U32Swap.ofD32 addr
  let d := ip4Prefix.set 6 (U16Swap.mk a.b0 a.b1).d16
  ⟨d.set 7 (U16Swap.mk a.b2 a.b3).d16⟩

/-- `set(std::array<uint8_t, 16> const&)` -/
def set (netOrder : Vector UInt8 16) : IpAddr :=
  ⟨Vector.ofFn fun i : Fin 8 => networkEndian16 netOrder[i.val * 2 + 1] netOrder[i.val * 2]⟩

/-- `get()`: the storage of `d`, byte by byte -/
def get (addr : IpAddr) : Vector UInt8 16 :=
  Vector.ofFn fun i : Fin 16 =>
    if i.val % 2 = 0 then (U16Swap.ofD16 addr.d[i.val / 2]).b0
    else (U16Swap.ofD16 addr.d[i.val / 2]).b1

/-- `IP4_PREFIX_LEN_SIZE_T` -/
def IP4_PREFIX_LEN : ℕ := 6

/-- `isIpv4Addr`: the words before the last two are those of the prefix. -/
def isIpv4Addr (addr : IpAddr) : Bool :=
  addr.d.toList.take IP4_PREFIX_LEN == ip4Prefix.toList.take IP4_PREFIX_LEN

/-- **Round trip**: `get` returns the bytes that `set` stored. -/
@[simp] theorem get_set (netOrder : Vector UInt8 16) : (set netOrder).get = netOrder := by
  apply Vector.ext
  intro i hi
  simp only [get, set, Vector.getElem_ofFn, ofD16_networkEndian16]
  split
  · congr 1
    omega
  · congr 1
    omega

/-- What `get` returns stores the same address. -/
@[simp] theorem set_get (addr : IpAddr) : set addr.get = addr := by
  refine congrArg IpAddr.mk (Vector.ext fun i hi => ?_)
  have hodd : ¬ (i * 2 + 1) % 2 = 0 := by omega
  have heven : i * 2 % 2 = 0 := by omega
  have hhalf : (i * 2 + 1) / 2 = i := by omega
  simp only [get, Vector.getElem_ofFn, hodd, heven, hhalf, Nat.mul_div_cancel _ Nat.two_pos,
    if_true, if_false]
  exact networkEndian16_wordBytes _

/-- The IPv4-mapped address of four bytes, in network order. -/
def mapped (a b c d : UInt8) : Vector UInt8 16 :=
  #v[0, 0, 0, 0, 0, 0, 0, 0, 0, 0, 0xff, 0xff, a, b, c, d]

theorem setIpV4_four (a b c d : UInt8) :
    setIpV4 [a, b, c, d] =
      .ok ⟨(ip4Prefix.set 6 (networkEndian16 b a)).set 7 (networkEndian16 d c)⟩ := rfl

/-- `setIpV4` of four bytes and `set` of their IPv4-mapped address store the same words. -/
theorem setIpV4_eq_set_mapped (a b c d : UInt8) :
    setIpV4 [a, b, c, d] = .ok (set (mapped a b c d)) := by
  rw [setIpV4_four]
  refine congrArg Except.ok (congrArg IpAddr.mk (Vector.ext fun i hi => ?_))
  simp only [Vector.getElem_ofFn, Vector.getElem_set, mapped, ip4Prefix]
  -- two words hold the address, the word before them is `ffff`, the others are zero
  interval_cases i <;> simp <;> decide

theorem get_setIpV4 {a b c d : UInt8} {addr : IpAddr} (h : setIpV4 [a, b, c, d] = .ok addr) :
    addr.get = mapped a b c d := by
  rw [setIpV4_eq_set_mapped] at h
  cases h
  exact get_set _

/-- `setIpV4` of four bytes and of the word that holds them in network order store the same. -/
theorem setIpV4_eq_setIpV4Word (a b c d : UInt8) :
    setIpV4 [a, b, c, d] = .ok (setIpV4Word (U32Swap.mk a b c d).d32) := by
  rw [setIpV4_four, setIpV4Word, U32Swap.ofD32_d32]
  rfl

/-! ### The IPv4-Mapped Prefix -/

/-- Ten zero bytes, then `ff ff` -/
def HasIp4Prefix (netOrder : Vector UInt8 16) : Prop :=
  (∀ j (_ : j < 10), netOrder[j] = 0) ∧ netOrder[10] = 0xff ∧ netOrder[11] = 0xff

variable {addr : IpAddr} {netOrder : Vector UInt8 16}

theorem isIpv4Addr_iff :
    addr.isIpv4Addr = true ↔ ∀ i (_ : i < 6), addr.d[i] = ip4Prefix[i] := by
  rw [isIpv4Addr, beq_iff_eq, IP4_PREFIX_LEN]
  constructor
  · intro h i hi
    have hword := congrArg (fun words => words[i]?) h
    simpa [List.getElem?_take, hi, Nat.lt_trans hi (show 6 < 8 by decide)] using hword
  · intro h
    refine List.ext_getElem (by simp) fun i hi _ => ?_
    have hlt : i < 6 := by simpa using hi
    simpa using h i hlt

theorem hasIp4Prefix_iff :
    HasIp4Prefix netOrder ↔ ∀ j (_ : j < 12), netOrder[j] = (mapped 0 0 0 0)[j] := by
  constructor
  · rintro ⟨hzero, hten, heleven⟩ j hj
    rcases lt_or_ge j 10 with hlt | hge
    · rw [hzero j hlt]
      interval_cases j <;> rfl
    · interval_cases j
      · exact hten
      · exact heleven
  · intro h
    refine ⟨fun j hj => ?_, h 10 (by decide), h 11 (by decide)⟩
    rw [h j (by omega)]
    interval_cases j <;> rfl

/-- The words of the prefix are those of its bytes. -/
theorem set_mapped_zero : (set (mapped 0 0 0 0)).d = ip4Prefix := by decide

/-- **`isIpv4Addr`** finds the prefix in the bytes that were set. -/
theorem isIpv4Addr_set_iff : (set netOrder).isIpv4Addr = true ↔ HasIp4Prefix netOrder := by
  -- a word is that of the prefix if its two bytes are
  have hword : ∀ i (_ : i < 6), (set netOrder).d[i] = ip4Prefix[i] ↔
      netOrder[i * 2 + 1] = (mapped 0 0 0 0)[i * 2 + 1] ∧
        netOrder[i * 2] = (mapped 0 0 0 0)[i * 2] := by
    intro i hi
    simp only [← set_mapped_zero, set, Vector.getElem_ofFn, networkEndian16_inj]
  rw [isIpv4Addr_iff, hasIp4Prefix_iff]
  constructor
  · intro h j hj
    obtain ⟨i, rfl | rfl⟩ : ∃ i, j = i * 2 ∨ j = i * 2 + 1 := ⟨j / 2, by omega⟩
    · exact ((hword i (by omega)).mp (h i (by omega))).2
    · exact ((hword i (by omega)).mp (h i (by omega))).1
  · intro h i hi
    exact (hword i hi).mpr ⟨h _ (by omega), h _ (by omega)⟩

/-- **Addresses**: what was set is read back, its prefix tells an IPv4 address, and the two ways to
set four bytes agree with setting their IPv4-mapped address. -/
theorem represents :
    (∀ netOrder, (set netOrder).get = netOrder ∧
      ((set netOrder).isIpv4Addr = true ↔ HasIp4Prefix netOrder)) ∧
    ∀ a b c d, setIpV4 [a, b, c, d] = .ok (set (mapped a b c d)) ∧
      setIpV4Word (U32Swap.mk a b c d).d32 = set (mapped a b c d) := by
  constructor
  · intro netOrder
    exact ⟨get_set netOrder, isIpv4Addr_set_iff⟩
  · intro a b c d
    have hmapped := setIpV4_eq_set_mapped a b c d
    have hword := setIpV4_eq_setIpV4Word a b c d
    exact ⟨hmapped, Except.ok.inj (hword.symm.trans hmapped)⟩

/-! ### Vectors of Bytes -/

/-- The four elements of a vector of four. -/
theorem toList_four {α : Type*} (v : Vector α 4) : v.toList = [v[0], v[1], v[2], v[3]] := by
  apply List.ext_getElem
  · simp
  · intro i hi _
    rw [Vector.length_toList] at hi
    interval_cases i <;> simp

/-- `setIpV4` of a vector of four bytes reads within its bounds. -/
theorem setIpV4_toList (v : Vector UInt8 4) :
    setIpV4 v.toList = .ok (set (mapped v[0] v[1] v[2] v[3])) := by
  rw [toList_four, setIpV4_eq_set_mapped]

end IpAddr

/-- `InetDest` -/
structure InetDest where
  addr : IpAddr
  valid : Bool
  port : UInt16
  ifIndex : UInt32
deriving DecidableEq, Repr

end Epoller
