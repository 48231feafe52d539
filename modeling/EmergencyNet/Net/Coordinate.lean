import EmergencyNet.Base.Util
import Mathlib.Tactic.Ring
import Mathlib.Order.Interval.Set.Basic

/-!
# Coordinates

`emergency_net/coordinate.c`: a coordinate is a packed pair of 16-bit values, and the
distance between two nodes is the sum of the absolute differences, computed in 16 bits.

## Main definitions

* `Coordinate`, `coordinateDistance` — the program's coordinates and distance.
* `manhattan` — the distance as an unbounded number.
* `MeasuresTruly` — the program's distance is a distance among three coordinates.

## Main results

* `toNat_coordinateDistance` — the program's distance is the unbounded one modulo `2 ^ 16`.
* `manhattan_eq_zero_iff`, `manhattan_triangle` — the unbounded one is a distance.
* `coordinateDistance_eq_zero_iff` — where the program's distance vanishes.
* `measuresTruly_iff` — **the program's distance is the unbounded one, and so a distance,
  exactly among coordinates less than `2 ^ 16` apart.**
-/

namespace EmergencyNet

/-- `struct coordinate`. -/
structure Coordinate where
  x : Packed16
  y : Packed16
  deriving DecidableEq, Repr, Inhabited

/-- The coordinate as it lies in memory. -/
def Coordinate.bytes (c : Coordinate) : List UInt8 := [c.x.hi, c.x.lo, c.y.hi, c.y.lo]

/-- The coordinate stored at offset `i`. -/
def coordinateAt (m : List UInt8) (i : ℕ) : Coordinate := ⟨packedAt m i, packedAt m (i + 2)⟩

/-- `coord_abs`: the absolute value of a 32-bit difference, cut to 16 bits. -/
def coordAbs (a : ℤ) : UInt16 := UInt16.ofNat a.natAbs

/-- `coordinate_distance`. -/
def coordinateDistance (src dst : Coordinate) : UInt16 :=
  let diffx := coordAbs (((uint8ToUint16 dst.x).toNat : ℤ) - (uint8ToUint16 src.x).toNat)
  let diffy := coordAbs (((uint8ToUint16 dst.y).toNat : ℤ) - (uint8ToUint16 src.y).toNat)
  diffx + diffy

/-- The distance between two coordinates as an unbounded number. -/
def manhattan (a b : Coordinate) : ℕ :=
  (((uint8ToUint16 b.x).toNat : ℤ) - (uint8ToUint16 a.x).toNat).natAbs +
    (((uint8ToUint16 b.y).toNat : ℤ) - (uint8ToUint16 a.y).toNat).natAbs

/-- The program's distance wraps at `2 ^ 16` and is exact below it. -/
theorem toNat_coordinateDistance (a b : Coordinate) :
    (coordinateDistance a b).toNat = manhattan a b % 2 ^ 16 := by
  simp only [coordinateDistance, coordAbs, manhattan, UInt16.toNat_add, UInt16.toNat_ofNat']
  exact (Nat.add_mod _ _ _).symm

theorem manhattan_comm (a b : Coordinate) : manhattan a b = manhattan b a := by
  unfold manhattan
  omega

@[simp] theorem coordinateDistance_self (a : Coordinate) : coordinateDistance a a = 0 := by
  simp [coordinateDistance, coordAbs]

/-! ### The unbounded distance -/

/-- A packed number is determined by its value. -/
theorem uint8ToUint16_injective : Function.Injective uint8ToUint16 :=
  Function.LeftInverse.injective uint16ToUint8_uint8ToUint16

theorem manhattan_eq_zero_iff {a b : Coordinate} : manhattan a b = 0 ↔ a = b := by
  constructor
  · intro h
    obtain ⟨hx, hy⟩ := Nat.add_eq_zero_iff.mp h
    have hax : uint8ToUint16 a.x = uint8ToUint16 b.x := UInt16.toNat_inj.mp (by omega)
    have hay : uint8ToUint16 a.y = uint8ToUint16 b.y := UInt16.toNat_inj.mp (by omega)
    show (⟨a.x, a.y⟩ : Coordinate) = ⟨b.x, b.y⟩
    rw [uint8ToUint16_injective hax, uint8ToUint16_injective hay]
  · rintro rfl
    simp [manhattan]

theorem manhattan_triangle (a b c : Coordinate) :
    manhattan a c ≤ manhattan a b + manhattan b c := by
  unfold manhattan
  omega

/-- Two coordinates are less than `2 ^ 17` apart. -/
theorem manhattan_lt (a b : Coordinate) : manhattan a b < 2 ^ 17 := by
  unfold manhattan
  have hax := (uint8ToUint16 a.x).toNat_lt
  have hay := (uint8ToUint16 a.y).toNat_lt
  have hbx := (uint8ToUint16 b.x).toNat_lt
  have hby := (uint8ToUint16 b.y).toNat_lt
  omega

/-! ### The distance of the program -/

theorem coordinateDistance_comm (a b : Coordinate) :
    coordinateDistance a b = coordinateDistance b a := by
  apply UInt16.toNat_inj.mp
  rw [toNat_coordinateDistance, toNat_coordinateDistance, manhattan_comm]

theorem coordinateDistance_exact_iff {a b : Coordinate} :
    (coordinateDistance a b).toNat = manhattan a b ↔ manhattan a b < 2 ^ 16 := by
  rw [toNat_coordinateDistance]
  exact ⟨fun h => h ▸ Nat.mod_lt _ (by decide), Nat.mod_eq_of_lt⟩

/-- The program's distance vanishes between equal coordinates and between those that are
`2 ^ 16` apart. -/
theorem coordinateDistance_eq_zero_iff {a b : Coordinate} :
    coordinateDistance a b = 0 ↔ a = b ∨ manhattan a b = 2 ^ 16 := by
  rw [← manhattan_eq_zero_iff, ← UInt16.toNat_inj, toNat_coordinateDistance]
  have hlt := manhattan_lt a b
  change manhattan a b % 2 ^ 16 = 0 ↔ _
  omega

/-- The program's distance is a distance among `a`, `b` and `c`, and the unbounded one. -/
structure MeasuresTruly (a b c : Coordinate) : Prop where
  exact_ab : (coordinateDistance a b).toNat = manhattan a b
  exact_bc : (coordinateDistance b c).toNat = manhattan b c
  exact_ac : (coordinateDistance a c).toNat = manhattan a c
  symm : coordinateDistance a b = coordinateDistance b a
  eq_of_zero : coordinateDistance a b = 0 → a = b
  triangle : (coordinateDistance a c).toNat ≤
    (coordinateDistance a b).toNat + (coordinateDistance b c).toNat

/-- **The program's distance is the unbounded one, and so a distance, exactly among coordinates
less than `2 ^ 16` apart.** -/
theorem measuresTruly_iff (a b c : Coordinate) : MeasuresTruly a b c ↔
    manhattan a b < 2 ^ 16 ∧ manhattan b c < 2 ^ 16 ∧ manhattan a c < 2 ^ 16 := by
  constructor
  · intro h
    exact ⟨coordinateDistance_exact_iff.mp h.exact_ab, coordinateDistance_exact_iff.mp h.exact_bc,
      coordinateDistance_exact_iff.mp h.exact_ac⟩
  · rintro ⟨hab, hbc, hac⟩
    have hexact_ab := coordinateDistance_exact_iff.mpr hab
    have hexact_bc := coordinateDistance_exact_iff.mpr hbc
    have hexact_ac := coordinateDistance_exact_iff.mpr hac
    refine ⟨hexact_ab, hexact_bc, hexact_ac, coordinateDistance_comm a b, fun hzero => ?_, ?_⟩
    · -- the other coordinates at distance zero are too far apart
      rcases coordinateDistance_eq_zero_iff.mp hzero with heq | hfar
      · exact heq
      · omega
    · rw [hexact_ab, hexact_bc, hexact_ac]
      exact manhattan_triangle a b c

/-- Opposite corners: the program puts two different coordinates at distance zero, and a third
one nearer to the first than the way over the second. -/
theorem not_measuresTruly_corners :
    ¬ ∀ a b c : Coordinate, MeasuresTruly a b c := by
  intro h
  have hab := (h ⟨⟨0, 0⟩, ⟨0, 0⟩⟩ ⟨⟨255, 255⟩, ⟨0, 1⟩⟩ ⟨⟨0, 0⟩, ⟨0, 0⟩⟩).exact_ab
  exact absurd hab (by decide)

end EmergencyNet
