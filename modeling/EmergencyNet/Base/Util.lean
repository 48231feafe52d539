import Mathlib.Data.Nat.Bitwise
import Mathlib.Data.List.Basic

/-!
# Bytes, packed 16-bit values and node addresses

`base/util.h` packs a 16-bit value into two bytes, high byte first, so that the structures
sent over the air need no alignment.  `rimeaddr_t` is the two-byte node address.
Memory the program reads through a pointer is a list of bytes; `byteAt` and `memRead`
read it, with zeros past its end.

## Main definitions

* `Packed16`, `uint16ToUint8`, `uint8ToUint16` — packed 16-bit values.
* `Rimeaddr` — node addresses.
* `byteAt`, `memRead`, `memWrite` — reads and writes through a pointer.

## Main results

* `uint8ToUint16_uint16ToUint8`, `uint16ToUint8_uint8ToUint16` — packing and unpacking
  are inverse to each other.
* `rimeaddrAt_flatMap` — addresses stored one after the other are read back.
-/

namespace EmergencyNet

/-! ### Packed 16-bit values -/

/-- A 16-bit value in two bytes, high byte first. -/
structure Packed16 where
  /-- Byte `0`. -/
  hi : UInt8
  /-- Byte `1`. -/
  lo : UInt8
  deriving DecidableEq, Repr, Inhabited

/-- `uint16_to_uint8`. -/
def uint16ToUint8 (x : UInt16) : Packed16 :=
  ⟨((x &&& 0xFF00) >>> 8).toUInt8, (x &&& 0xFF).toUInt8⟩

/-- `uint8_to_uint16`. -/
def uint8ToUint16 (p : Packed16) : UInt16 := (p.hi.toUInt16 <<< 8) ||| p.lo.toUInt16

theorem toNat_uint8ToUint16 (p : Packed16) :
    (uint8ToUint16 p).toNat = p.hi.toNat * 256 + p.lo.toNat := by
  have hhi := p.hi.toNat_lt
  have hlo : p.lo.toNat < 2 ^ 8 := p.lo.toNat_lt
  have hshift : p.hi.toNat <<< 8 = p.hi.toNat * 256 := by rw [Nat.shiftLeft_eq]
  have hor := Nat.shiftLeft_add_eq_or_of_lt hlo p.hi.toNat
  have hlt : p.hi.toNat <<< 8 < 2 ^ 16 := by rw [hshift]; omega
  simp only [uint8ToUint16, UInt16.toNat_or, UInt16.toNat_shiftLeft, UInt8.toNat_toUInt16]
  rw [show (8 : UInt16).toNat % 16 = 8 from rfl, Nat.mod_eq_of_lt hlt, ← hor, hshift]

theorem toNat_hi_uint16ToUint8 (x : UInt16) : (uint16ToUint8 x).hi.toNat = x.toNat / 256 := by
  have hx := x.toNat_lt
  have hmask : x.toNat &&& 0xFF00 = x.toNat / 256 * 256 := by
    refine Nat.eq_of_testBit_eq fun i => ?_
    rw [Nat.testBit_and, show (256 : ℕ) = 2 ^ 8 from rfl, Nat.testBit_mul_two_pow,
      Nat.testBit_div_two_pow, show (0xFF00 : ℕ) = (2 ^ 8 - 1) * 2 ^ 8 from rfl,
      Nat.testBit_mul_two_pow, Nat.testBit_two_pow_sub_one]
    by_cases hi : 8 ≤ i
    · simp only [hi, decide_true, Bool.true_and, Nat.sub_add_cancel]
      by_cases h16 : i - 8 < 8
      · simp [h16]
      · have hbig : x.toNat < 2 ^ i := lt_of_lt_of_le hx (Nat.pow_le_pow_right (by decide) (by omega))
        simp [Nat.testBit_lt_two_pow hbig]
    · simp [hi]
  simp only [uint16ToUint8, UInt16.toNat_toUInt8, UInt16.toNat_shiftRight, UInt16.toNat_and,
    show (0xFF00 : UInt16).toNat = 0xFF00 from rfl, show (8 : UInt16).toNat % 16 = 8 from rfl]
  rw [hmask, Nat.shiftRight_eq_div_pow]
  omega

theorem toNat_lo_uint16ToUint8 (x : UInt16) : (uint16ToUint8 x).lo.toNat = x.toNat % 256 := by
  simp only [uint16ToUint8, UInt16.toNat_toUInt8, UInt16.toNat_and,
    show (0xFF : UInt16).toNat = 2 ^ 8 - 1 from rfl, Nat.and_two_pow_sub_one_eq_mod]
  omega

/-- Unpacking undoes packing. -/
@[simp] theorem uint8ToUint16_uint16ToUint8 (x : UInt16) :
    uint8ToUint16 (uint16ToUint8 x) = x := by
  apply UInt16.toNat_inj.mp
  rw [toNat_uint8ToUint16, toNat_hi_uint16ToUint8, toNat_lo_uint16ToUint8]
  omega

/-- Packing undoes unpacking. -/
@[simp] theorem uint16ToUint8_uint8ToUint16 (p : Packed16) :
    uint16ToUint8 (uint8ToUint16 p) = p := by
  have hhi : (uint16ToUint8 (uint8ToUint16 p)).hi = p.hi := by
    apply UInt8.toNat_inj.mp
    have := p.lo.toNat_lt
    rw [toNat_hi_uint16ToUint8, toNat_uint8ToUint16]
    omega
  have hlo : (uint16ToUint8 (uint8ToUint16 p)).lo = p.lo := by
    apply UInt8.toNat_inj.mp
    have := p.lo.toNat_lt
    rw [toNat_lo_uint16ToUint8, toNat_uint8ToUint16]
    omega
  calc uint16ToUint8 (uint8ToUint16 p)
      = ⟨(uint16ToUint8 (uint8ToUint16 p)).hi, (uint16ToUint8 (uint8ToUint16 p)).lo⟩ := rfl
    _ = p := by rw [hhi, hlo]

/-! ### Addresses -/

/-- `rimeaddr_t`: the address of a node. -/
structure Rimeaddr where
  /-- Byte `0`, the one that decides leadership in time synchronisation. -/
  u8₀ : UInt8
  /-- Byte `1`. -/
  u8₁ : UInt8
  deriving DecidableEq, Repr, Inhabited

/-- `rimeaddr_null`. -/
def rimeaddrNull : Rimeaddr := ⟨0, 0⟩

/-- The address as it lies in memory. -/
def Rimeaddr.bytes (a : Rimeaddr) : List UInt8 := [a.u8₀, a.u8₁]

@[simp] theorem Rimeaddr.length_bytes (a : Rimeaddr) : a.bytes.length = 2 := rfl

/-! ### Reads through a pointer -/

/-- The byte at offset `i`. -/
def byteAt (m : List UInt8) (i : ℕ) : UInt8 := m.getD i 0

/-- `n` bytes from the start of `m`: the source of a `memcpy` of length `n`. -/
def memRead (m : List UInt8) (n : ℕ) : List UInt8 := m.take n ++ List.replicate (n - m.length) 0

@[simp] theorem length_memRead (m : List UInt8) (n : ℕ) : (memRead m n).length = n := by
  simp only [memRead, List.length_append, List.length_take, List.length_replicate]
  omega

/-- Reading exactly the bytes that were written there. -/
@[simp] theorem memRead_append_length (l m : List UInt8) : memRead (l ++ m) l.length = l := by
  have h : l.length - (l ++ m).length = 0 := by simp
  rw [memRead, h, List.take_left, List.replicate_zero, List.append_nil]

@[simp] theorem byteAt_zero_cons (b : UInt8) (m : List UInt8) : byteAt (b :: m) 0 = b := rfl

@[simp] theorem byteAt_succ_cons (b : UInt8) (m : List UInt8) (i : ℕ) :
    byteAt (b :: m) (i + 1) = byteAt m i := rfl

/-- The bytes read are those of the memory. -/
theorem byteAt_memRead {m : List UInt8} {n i : ℕ} (h : i < n) :
    byteAt (memRead m n) i = byteAt m i := by
  unfold byteAt memRead
  by_cases hi : i < m.length
  · rw [List.getD_append _ _ _ _ (by rw [List.length_take]; omega),
      List.getD_eq_getElem _ _ (by rw [List.length_take]; omega), List.getElem_take,
      List.getD_eq_getElem _ _ hi]
  · rw [List.getD_append_right _ _ _ _ (by rw [List.length_take]; omega),
      List.getD_eq_default m _ (by omega), List.getD_replicate]
    rw [List.length_take]
    omega

/-- The address stored at offset `i`. -/
def rimeaddrAt (m : List UInt8) (i : ℕ) : Rimeaddr := ⟨byteAt m i, byteAt m (i + 1)⟩

/-- The packed value stored at offset `i`. -/
def packedAt (m : List UInt8) (i : ℕ) : Packed16 := ⟨byteAt m i, byteAt m (i + 1)⟩

theorem byteAt_append (l m : List UInt8) (i : ℕ) : byteAt (l ++ m) (l.length + i) = byteAt m i := by
  rw [byteAt, byteAt, List.getD_append_right _ _ _ _ (Nat.le_add_right _ _), Nat.add_sub_cancel_left]

theorem byteAt_drop (m : List UInt8) (n i : ℕ) : byteAt (m.drop n) i = byteAt m (n + i) := by
  rw [byteAt, byteAt, List.getD_eq_getElem?_getD, List.getD_eq_getElem?_getD, List.getElem?_drop]

theorem rimeaddrAt_append (l m : List UInt8) (i : ℕ) :
    rimeaddrAt (l ++ m) (l.length + i) = rimeaddrAt m i := by
  simp only [rimeaddrAt, Nat.add_assoc, byteAt_append]

/-- Addresses stored one after the other are read back. -/
theorem rimeaddrAt_flatMap (m : List UInt8) : ∀ (l : List Rimeaddr) (i : ℕ) (h : i < l.length),
    rimeaddrAt (l.flatMap Rimeaddr.bytes ++ m) (2 * i) = l[i] := by
  intro l
  induction l with
  | nil => intro i h; simp at h
  | cons a rest ih =>
    intro i h
    cases i with
    | zero => rfl
    | succ i =>
      have hi : i < rest.length := by simpa using h
      have hstep : rimeaddrAt (a.bytes ++ (rest.flatMap Rimeaddr.bytes ++ m))
          (a.bytes.length + 2 * i) = rest[i] := by
        rw [rimeaddrAt_append, ih i hi]
      rw [List.flatMap_cons, List.append_assoc,
        show 2 * (i + 1) = a.bytes.length + 2 * i by simp; omega, hstep]
      rfl

@[simp] theorem length_flatMap_bytes (l : List Rimeaddr) :
    (l.flatMap Rimeaddr.bytes).length = 2 * l.length := by
  induction l with
  | nil => rfl
  | cons a rest ih =>
    rw [List.flatMap_cons, List.length_append, ih, Rimeaddr.length_bytes, List.length_cons]
    omega

/-! ### Writes through a pointer -/

/-- The memory `m` after `bytes` have been copied to its start. -/
def memWrite (bytes m : List UInt8) : List UInt8 := bytes ++ m.drop bytes.length

@[simp] theorem memRead_memWrite (bytes m : List UInt8) :
    memRead (memWrite bytes m) bytes.length = bytes := memRead_append_length _ _

end EmergencyNet
