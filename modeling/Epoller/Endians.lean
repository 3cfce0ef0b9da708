import Mathlib

/-!
# Byte Order

The overloads of `networkEndian` in `endians.hpp` that the encoder, the decoder,
`IpAddr` and the sockets use, on a little-endian host.

The constant `bigEndian` is initialised with a lambda that is never called: the
lambda converts to a function pointer and the pointer to `true`, so every
overload takes its swapping branch. On a little-endian host that is the branch
that reads and writes network order.
-/

namespace Epoller

/-- `U16Swap`: the storage of a `uint16_t`, lower address first. -/
structure U16Swap where
  b0 : UInt8
  b1 : UInt8
deriving DecidableEq, Repr

/-- The member `d16` of the union, read on a little-endian host. -/
def U16Swap.d16 (s : U16Swap) : UInt16 := .ofNat (s.b1.toNat * 256 + s.b0.toNat)

/-- The member `b` of the union after `d16` was written. -/
def U16Swap.ofD16 (d : UInt16) : U16Swap := ⟨.ofNat (d.toNat % 256), .ofNat (d.toNat / 256)⟩

/-- `U32Swap`: the storage of a `uint32_t`, lower address first. -/
structure U32Swap where
  b0 : UInt8
  b1 : UInt8
  b2 : UInt8
  b3 : UInt8
deriving DecidableEq, Repr

def U32Swap.d32 (s : U32Swap) : UInt32 :=
  .ofNat (((s.b3.toNat * 256 + s.b2.toNat) * 256 + s.b1.toNat) * 256 + s.b0.toNat)

/-- The member `b` of the union after `d32` was written. -/
def U32Swap.ofD32 (d : UInt32) : U32Swap :=
  ⟨.ofNat (d.toNat % 256), .ofNat (d.toNat / 256 % 256), .ofNat (d.toNat / 256 / 256 % 256),
    .ofNat (d.toNat / 256 / 256 / 256)⟩

def bigEndian : Bool := true

/-- `bswap_16` -/
def bswap16 (d : UInt16) : UInt16 := (U16Swap.mk (U16Swap.ofD16 d).b1 (U16Swap.ofD16 d).b0).d16

/-- `networkEndian(uint16_t)` -/
def wordNetworkEndian16 (d0 : UInt16) : UInt16 := if bigEndian then bswap16 d0 else d0

/-- `networkEndian(uint8_t, uint8_t)` -/
def networkEndian16 (d0 d1 : UInt8) : UInt16 :=
  if bigEndian then (U16Swap.mk d1 d0).d16 else (U16Swap.mk d0 d1).d16

/-- `networkEndian(uint8_t, uint8_t, uint8_t, uint8_t)` -/
def networkEndian32 (d0 d1 d2 d3 : UInt8) : UInt32 :=
  if bigEndian then (U32Swap.mk d3 d2 d1 d0).d32 else (U32Swap.mk d0 d1 d2 d3).d32

/-- `networkEndian(uint16_t, std::vector<uint8_t>&)`: the stream with the word behind it. -/
def streamNetworkEndian16 (d : UInt16) (stream : List UInt8) : List UInt8 :=
  let tmp := U16Swap.ofD16 d
  if bigEndian then stream ++ [tmp.b1] ++ [tmp.b0] else stream ++ [tmp.b0] ++ [tmp.b1]

/-! ## Values -/

theorem U16Swap.toNat_d16 (s : U16Swap) : s.d16.toNat = s.b1.toNat * 256 + s.b0.toNat := by
  have h0 := s.b0.toNat_lt
  have h1 := s.b1.toNat_lt
  simp only [d16, UInt16.toNat_ofNat']
  omega

/-- What was stored as a word is read back as its two bytes. -/
@[simp] theorem U16Swap.ofD16_d16 (s : U16Swap) : U16Swap.ofD16 s.d16 = s := by
  have h0 := s.b0.toNat_lt
  have hlow : (s.b1.toNat * 256 + s.b0.toNat) % 256 = s.b0.toNat := by omega
  have hhigh : (s.b1.toNat * 256 + s.b0.toNat) / 256 = s.b1.toNat := by omega
  simp only [ofD16, toNat_d16, hlow, hhigh, UInt8.ofNat_toNat]

theorem U32Swap.toNat_d32 (s : U32Swap) : s.d32.toNat =
    ((s.b3.toNat * 256 + s.b2.toNat) * 256 + s.b1.toNat) * 256 + s.b0.toNat := by
  have h0 := s.b0.toNat_lt
  have h1 := s.b1.toNat_lt
  have h2 := s.b2.toNat_lt
  have h3 := s.b3.toNat_lt
  simp only [d32, UInt32.toNat_ofNat']
  omega

/-- What was stored as a word of 32 bits is read back as its four bytes. -/
@[simp] theorem U32Swap.ofD32_d32 (s : U32Swap) : U32Swap.ofD32 s.d32 = s := by
  have h0 := s.b0.toNat_lt
  have h1 := s.b1.toNat_lt
  have h2 := s.b2.toNat_lt
  -- each byte is a digit of the word to the base 256
  have hshift : ∀ high low : ℕ, low < 256 → (high * 256 + low) / 256 = high := by omega
  have hdigit : ∀ high low : ℕ, low < 256 → (high * 256 + low) % 256 = low := by omega
  simp only [ofD32, toNat_d32, hshift _ _ h0, hshift _ _ h1, hshift _ _ h2, hdigit _ _ h0,
    hdigit _ _ h1, hdigit _ _ h2, UInt8.ofNat_toNat]

/-- The first argument is the high byte. -/
theorem toNat_networkEndian16 (d0 d1 : UInt8) :
    (networkEndian16 d0 d1).toNat = d0.toNat * 256 + d1.toNat :=
  U16Swap.toNat_d16 ⟨d1, d0⟩

/-- Of a word that is stored in network order the first byte is the high one. -/
theorem toNat_wordNetworkEndian16 (s : U16Swap) :
    (wordNetworkEndian16 s.d16).toNat = s.b0.toNat * 256 + s.b1.toNat := by
  have hswap : wordNetworkEndian16 s.d16 = (U16Swap.mk s.b1 s.b0).d16 := by
    change bswap16 s.d16 = _
    rw [bswap16, U16Swap.ofD16_d16]
  rw [hswap, U16Swap.toNat_d16]

/-- The word read in network order is stored again with the second argument first. -/
@[simp] theorem ofD16_networkEndian16 (d0 d1 : UInt8) :
    U16Swap.ofD16 (networkEndian16 d0 d1) = ⟨d1, d0⟩ :=
  U16Swap.ofD16_d16 ⟨d1, d0⟩

theorem networkEndian16_inj {d0 d1 e0 e1 : UInt8} :
    networkEndian16 d0 d1 = networkEndian16 e0 e1 ↔ d0 = e0 ∧ d1 = e1 := by
  constructor
  · intro h
    have hstored := congrArg U16Swap.ofD16 h
    rw [ofD16_networkEndian16, ofD16_networkEndian16] at hstored
    cases hstored
    exact ⟨rfl, rfl⟩
  · rintro ⟨rfl, rfl⟩
    rfl

/-- The two bytes of a word, high byte first, as they travel. -/
def wordBytes (d : UInt16) : List UInt8 := [(U16Swap.ofD16 d).b1, (U16Swap.ofD16 d).b0]

theorem streamNetworkEndian16_eq (d : UInt16) (stream : List UInt8) :
    streamNetworkEndian16 d stream = stream ++ wordBytes d :=
  List.append_assoc ..

theorem networkEndian16_wordBytes (d : UInt16) :
    networkEndian16 (U16Swap.ofD16 d).b1 (U16Swap.ofD16 d).b0 = d := by
  have hd := d.toNat_lt
  apply UInt16.toNat_inj.mp
  simp only [toNat_networkEndian16, U16Swap.ofD16, UInt8.toNat_ofNat']
  omega

end Epoller
