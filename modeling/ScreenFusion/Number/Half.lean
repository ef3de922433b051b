import ScreenFusion.Number.Rounding

/-!
# ScreenFusion.Number.Half — rounding to 16-bit floats

A 16-bit float has eleven significant bits, its smallest step is `2^-24`, and numbers from 65520 on are infinite.
Rounding goes to the nearest one; of two, to the one whose last bit is zero.
-/

namespace ScreenFusion

-- Powers are those of the core library.
attribute [local instance (high)] instPowNat

/-- The natural number nearest to `mantissa · 2^exponent`; of two, the even one. -/
def roundHalfEven (mantissa : Nat) (exponent : Int) : Nat :=
  if 0 ≤ exponent then mantissa * 2 ^ exponent.toNat
  else
    let unit := 2 ^ (-exponent).toNat
    let down := mantissa / unit
    let twice := 2 * (mantissa % unit)
    if twice < unit ∨ (twice = unit ∧ down % 2 = 0) then down else down + 1

/-- The step between neighbouring 16-bit floats near `mantissa · 2^exponent`, as a power of two. -/
def halfStep (mantissa : Nat) (exponent : Int) : Int :=
  max (-24) ((mantissa.log2 : Int) + exponent - 10)

/-- The power of two with the given exponent, for exponents of normal 32-bit floats. -/
def powerOfTwo (exponent : Int) : Float32 :=
  Float32.ofBits (UInt32.ofNat (exponent + 127).toNat <<< 23)

/-- The 16-bit float nearest to a number, as a 32-bit float. -/
def roundToHalf (x : Float32) : Float32 :=
  match Decoded.ofFloat32 x with
  | .finite d =>
    let step := halfStep d.mantissa d.exponent
    let count := roundHalfEven d.mantissa (d.exponent - step)
    let size :=
      if 65536 ≤ (count : Int) * 2 ^ step.toNat ∧ 0 ≤ step then Float32.ofBits 0x7f800000
      else (UInt32.ofNat count).toFloat32 * powerOfTwo step
    if d.negative then -size else size
  | _ => x

theorem neg_24_le_halfStep (mantissa : Nat) (exponent : Int) : -24 ≤ halfStep mantissa exponent := by
  unfold halfStep
  omega

theorem roundHalfEven_zero (mantissa : Nat) : roundHalfEven mantissa 0 = mantissa := by
  simp [roundHalfEven]

end ScreenFusion
