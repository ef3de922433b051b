/-!
# ScreenFusion.Number.Binary32 — stored 32-bit floats

A `Binary32` is the bit pattern of a 32-bit float as memory holds it, the payload of a NaN included; `Float32` is
the number that arithmetic works on, with one NaN.  Uniform values, times and camera planes are stored patterns,
so that they reach the device bit for bit.

* `add` says which NaN a sum is; equality of patterns is decidable.
* `widen` is exact: every 32-bit float is a 64-bit float.
-/

namespace ScreenFusion

/-- The bit pattern of a 32-bit float. -/
structure Binary32 where
  /-- Sign, eight exponent bits and 23 fraction bits. -/
  bits : UInt32
  deriving DecidableEq, Inhabited

namespace Binary32

/-- Positive zero. -/
def zero : Binary32 := ⟨0⟩

/-- The pattern of a number; of NaN, the quiet pattern without sign or payload. -/
def ofFloat (x : Float32) : Binary32 := ⟨x.toBits⟩

/-- The number that a pattern stands for. -/
def toFloat (x : Binary32) : Float32 := Float32.ofBits x.bits

/-- Whether the pattern is some NaN. -/
def isNaN (x : Binary32) : Bool := (x.bits &&& 0x7fffffff) > 0x7f800000

/-- Whether the pattern is neither an infinity nor a NaN. -/
def isFinite (x : Binary32) : Bool := (x.bits &&& 0x7f800000) != 0x7f800000

/-- The pattern with the sign cleared. -/
def magnitude (x : Binary32) : UInt32 := x.bits &&& 0x7fffffff

/-- A sum of patterns.  The first NaN operand passes through, made quiet; infinities of opposite signs have the
default NaN, whose sign bit is set. -/
def add (x y : Binary32) : Binary32 :=
  if x.isNaN then ⟨x.bits ||| 0x00400000⟩
  else if y.isNaN then ⟨y.bits ||| 0x00400000⟩
  else
    let sum := ofFloat (x.toFloat + y.toFloat)
    if sum.isNaN then ⟨0xffc00000⟩ else sum

instance : Add Binary32 := ⟨add⟩

/-- The same number as a 64-bit float. -/
def widen (x : Binary32) : Float :=
  let sign : UInt64 := (x.bits >>> 31).toUInt64 <<< 63
  let exponent := ((x.bits >>> 23) &&& 0xff).toNat
  let fraction : UInt64 := (x.bits &&& 0x7fffff).toUInt64
  let field (e : Nat) : Float := Float.ofBits (sign ||| (UInt64.ofNat e <<< 52) ||| (fraction <<< 29))
  if exponent = 255 then field 2047
  else if exponent = 0 then
    -- a subnormal pattern counts steps of two to the power -149
    let size := fraction.toFloat * Float.ofBits 0x36a0000000000000
    if sign = 0 then size else -size
  else field (exponent + 896)

end Binary32

end ScreenFusion
