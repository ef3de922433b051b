import ScreenFusion.Number.Binary32

/-!
# ScreenFusion.Number.Rounding — floats as exact dyadic numbers, and their roundings

A finite float is `±m · 2^e` with a natural `m` and an integer `e`.  Floors and roundings are computed on that form
in integer arithmetic.  A conversion to an integer range sends NaN to zero and clamps everything else.

* `Dyadic.floor` and `Dyadic.round`: down, and to the nearest integer with halves away from zero.
* `Decoded.toIntIn_mem`: a conversion lands in its range if the range holds zero.
-/

namespace ScreenFusion

-- Powers are those of the core library.
attribute [local instance (high)] instPowNat

/-- The number `±mantissa · 2^exponent`. -/
structure Dyadic where
  negative : Bool
  mantissa : Nat
  exponent : Int
  deriving DecidableEq, Inhabited

namespace Dyadic

/-- The sign of a dyadic number given to a natural number. -/
def signed (x : Dyadic) (n : Nat) : Int := if x.negative then -(n : Int) else n

/-- The greatest integer that is not above the number. -/
def floor (x : Dyadic) : Int :=
  if 0 ≤ x.exponent then x.signed (x.mantissa * 2 ^ x.exponent.toNat)
  else
    let unit := 2 ^ (-x.exponent).toNat
    x.signed (if x.negative then (x.mantissa + unit - 1) / unit else x.mantissa / unit)

/-- The integer nearest to the number; of two, the one farther from zero. -/
def round (x : Dyadic) : Int :=
  if 0 ≤ x.exponent then x.signed (x.mantissa * 2 ^ x.exponent.toNat)
  else
    let unit := 2 ^ (-x.exponent).toNat
    x.signed ((2 * x.mantissa + unit) / (2 * unit))

end Dyadic

/-- What a float stands for. -/
inductive Decoded where
  | nan
  | infinite (negative : Bool)
  | finite (x : Dyadic)
  deriving DecidableEq, Inhabited

namespace Decoded

/-- A float with the given widths of exponent and fraction, read off its fields. -/
def ofFields (exponentBits fractionBits : Nat) (negative : Bool) (exponent fraction : Nat) : Decoded :=
  let bias : Int := 2 ^ (exponentBits - 1) - 1 + fractionBits
  if exponent = 2 ^ exponentBits - 1 then
    if fraction = 0 then .infinite negative else .nan
  else if exponent = 0 then .finite ⟨negative, fraction, 1 - bias⟩
  else .finite ⟨negative, 2 ^ fractionBits + fraction, exponent - bias⟩

/-- The number a 32-bit pattern stands for. -/
def ofBinary32 (x : Binary32) : Decoded :=
  let n := x.bits.toNat
  ofFields 8 23 (2 ^ (31 : Nat) ≤ n) (n / 2 ^ (23 : Nat) % 2 ^ (8 : Nat)) (n % 2 ^ (23 : Nat))

/-- The number a 32-bit float stands for. -/
def ofFloat32 (x : Float32) : Decoded := ofBinary32 (.ofFloat x)

/-- The number a 64-bit float stands for. -/
def ofFloat64 (x : Float) : Decoded :=
  let n := x.toBits.toNat
  ofFields 11 52 (2 ^ (63 : Nat) ≤ n) (n / 2 ^ (52 : Nat) % 2 ^ (11 : Nat)) (n % 2 ^ (52 : Nat))

/-- A rounding to the integers from `low` to `high`: NaN is zero, numbers outside are clamped. -/
def toIntIn (low high : Int) (rounding : Dyadic → Int) : Decoded → Int
  | nan => 0
  | infinite negative => if negative then low else high
  | finite x => max low (min high (rounding x))

theorem toIntIn_mem {low high : Int} (hl : low ≤ 0) (hh : 0 ≤ high) (rounding : Dyadic → Int)
    (x : Decoded) : low ≤ x.toIntIn low high rounding ∧ x.toIntIn low high rounding ≤ high := by
  cases x with
  | nan => exact ⟨hl, hh⟩
  | infinite negative => cases negative <;> simp [toIntIn] <;> omega
  | finite x => simp only [toIntIn]; omega

end Decoded

/-- The cell of `0 … size - 1` that a coordinate falls into; coordinates outside fall into the border cells. -/
def cellIndex (x : Float32) (size : Nat) : Nat :=
  ((Decoded.ofFloat32 x).toIntIn 0 ((size : Int) - 1) Dyadic.floor).toNat

/-- The nearest natural number of at most `bits` bits, halves upward. -/
def nearestNat (bits : Nat) (x : Decoded) : Nat :=
  (x.toIntIn 0 (2 ^ bits - 1) Dyadic.round).toNat

/-- The nearest integer as a float, halves away from zero; floats without a fraction are unchanged. -/
def roundFloat32 (x : Float32) : Float32 :=
  match Decoded.ofFloat32 x with
  | .finite d =>
    if 0 ≤ d.exponent then x
    else
      let size := (UInt32.ofNat d.round.natAbs).toFloat32
      if d.negative then -size else size
  | _ => x

theorem cellIndex_lt {size : Nat} (h : 0 < size) (x : Float32) : cellIndex x size < size := by
  have high_nonneg : 0 ≤ (size : Int) - 1 := by omega
  have bounds := Decoded.toIntIn_mem (Int.le_refl 0) high_nonneg Dyadic.floor (Decoded.ofFloat32 x)
  unfold cellIndex
  omega

end ScreenFusion
