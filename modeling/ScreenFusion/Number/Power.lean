/-!
# ScreenFusion.Number.Power — powers of positive 32-bit floats

`power x y` is `x` to the power `y` for positive `x`, computed in 64-bit arithmetic: the binary logarithm of `x` by a
table of sixteen reciprocals and a polynomial, the product with `y`, and the exponential by a table of 32 fractions of
an octave and a polynomial.  The error before the last rounding is far below half a unit of a 32-bit float.

NaN stays NaN, and an infinite `x` has an infinite power if `y` is positive.
-/

namespace ScreenFusion.Power

/-- A step of the logarithm table: a reciprocal and the logarithm of its inverse, as bit patterns. -/
structure LogStep where
  inverse : UInt64
  logarithm : UInt64

/-- Sixteen reciprocals that cover an octave, with the logarithms of their inverses. -/
def logTable : Array LogStep := #[
  ⟨0x3ff661ec79f8f3be, 0xbfdefec65b963019⟩, ⟨0x3ff571ed4aaf883d, 0xbfdb0b6832d4fca4⟩,
  ⟨0x3ff49539f0f010b0, 0xbfd7418b0a1fb77b⟩, ⟨0x3ff3c995b0b80385, 0xbfd39de91a6dcf7b⟩,
  ⟨0x3ff30d190c8864a5, 0xbfd01d9bf3f2b631⟩, ⟨0x3ff25e227b0b8ea0, 0xbfc97c1d1b3b7af0⟩,
  ⟨0x3ff1bb4a4a1a343f, 0xbfc2f9e393af3c9f⟩, ⟨0x3ff12358f08ae5ba, 0xbfb960cbbf788d5c⟩,
  ⟨0x3ff0953f419900a7, 0xbfaa6f9db6475fce⟩, ⟨0x3ff0000000000000, 0x0000000000000000⟩,
  ⟨0x3fee608cfd9a47ac, 0x3fb338ca9f24f53d⟩, ⟨0x3feca4b31f026aa0, 0x3fc476a9543891ba⟩,
  ⟨0x3feb2036576afce6, 0x3fce840b4ac4e4d2⟩, ⟨0x3fe9c2d163a1aa2d, 0x3fd40645f0c6651c⟩,
  ⟨0x3fe886e6037841ed, 0x3fd88e9c2c1b9ff8⟩, ⟨0x3fe767dcf5534862, 0x3fdce0a44eb17bcc⟩]

/-- The coefficients of the logarithm polynomial, from the highest power down. -/
def logPolynomial : Array UInt64 := #[0x3fd27616c9496e0b, 0xbfd71969a075c67a, 0x3fdec70a6ca7badd,
  0xbfe7154748bef6c8, 0x3ff71547652ab82b]

/-- The 32 fractional powers of two, with the bits that the integer part of an exponent adds taken out. -/
def exponentialTable : Array UInt64 := #[
  0x3ff0000000000000, 0x3fefd9b0d3158574, 0x3fefb5586cf9890f, 0x3fef9301d0125b51,
  0x3fef72b83c7d517b, 0x3fef54873168b9aa, 0x3fef387a6e756238, 0x3fef1e9df51fdee1,
  0x3fef06fe0a31b715, 0x3feef1a7373aa9cb, 0x3feedea64c123422, 0x3feece086061892d,
  0x3feebfdad5362a27, 0x3feeb42b569d4f82, 0x3feeab07dd485429, 0x3feea47eb03a5585,
  0x3feea09e667f3bcd, 0x3fee9f75e8ec5f74, 0x3feea11473eb0187, 0x3feea589994cce13,
  0x3feeace5422aa0db, 0x3feeb737b0cdc5e5, 0x3feec49182a3f090, 0x3feed503b23e255d,
  0x3feee89f995ad3ad, 0x3feeff76f2fb5e47, 0x3fef199bdd85529c, 0x3fef3720dcef9069,
  0x3fef5818dcfba487, 0x3fef7c97337b9b5f, 0x3fefa4afa2a490da, 0x3fefd0765b6e4540]

/-- The coefficients of the exponential polynomial, from the highest power down. -/
def exponentialPolynomial : Array UInt64 := #[0x3fac6af84b912394, 0x3fcebfce50fac4f3, 0x3fe62e42ff0c52d6]

/-- A coefficient as a float. -/
def coefficient (table : Array UInt64) (i : Nat) : Float := Float.ofBits (table.getD i 0)

/-- The binary logarithm of the positive normal float with the given bit pattern. -/
def logarithm (bits : UInt32) : Float :=
  let offset := bits - 0x3f330000
  let step := logTable.getD ((offset >>> 19) &&& 15).toNat ⟨0, 0⟩
  let top := offset &&& 0xff800000
  let z := (Float32.ofBits (bits - top)).toFloat
  let octave := Float.ofInt (top.toInt32 >>> 23).toInt
  let a := coefficient logPolynomial
  let r := z * Float.ofBits step.inverse - 1
  let base := Float.ofBits step.logarithm + octave
  let r2 := r * r
  let y := a 0 * r + a 1
  let p := a 2 * r + a 3
  let q := a 4 * r + base
  y * (r2 * r2) + (p * r2 + q)

/-- Two to the power `x`, for `x` between -150 and 128. -/
def exponential (x : Float) : Float :=
  let shift := Float.ofBits 0x42e8000000000000
  let shifted := x + shift
  let position := shifted.toBits
  let r := x - (shifted - shift)
  let scale := Float.ofBits
    (exponentialTable.getD (position % 32).toNat 0 + (position <<< 47))
  let c := coefficient exponentialPolynomial
  let z := c 0 * r + c 1
  let y := c 2 * r + 1
  (z * (r * r) + y) * scale

end Power

/-- A positive float to the power of a positive one. -/
def power (x y : Float32) : Float32 :=
  if x.isNaN then x
  else if x.isInf then x
  else
    -- a subnormal base is scaled to a normal one, its logarithm back
    let bits := x.toBits
    let bits := if bits < 0x00800000 then
        (x * Float32.ofBits 0x4b000000).toBits - 0x0b800000
      else bits
    let exponent := y.toFloat * Power.logarithm bits
    if Float.ofBits 0x405fffffffd1d571 < exponent then Float32.ofBits 0x7f800000
    else if exponent ≤ -150 then 0
    else (Power.exponential exponent).toFloat32

end ScreenFusion
