/-!
# ScreenFusion.Number.Scalar — the arithmetic that colours are computed in

Colour formulas are written once for any `Scalar`: 32-bit floats when a device runs them, rational numbers when
they are reasoned about.  For floats, `least` and `greatest` return the other operand if one is NaN.
-/

namespace ScreenFusion

/-- Numbers with the operations of the colour formulas. -/
class Scalar (α : Type) extends Add α, Sub α, Mul α, Div α where
  zero : α
  one : α
  two : α
  half : α
  magnitude : α → α
  least : α → α → α
  greatest : α → α → α
  below : α → α → Bool
  atMost : α → α → Bool

namespace Scalar

variable {α : Type} [Scalar α]

/-- A number moved to the nearest bound if it lies outside `0 … 1`. -/
def clampUnit (x : α) : α :=
  if below x zero then zero else if below one x then one else x

/-- The number a fraction `t` of the way from `a` to `b`. -/
def lerp (a b t : α) : α := a + (b - a) * t

end Scalar

/-- The lesser of two floats, or the other one if one is NaN. -/
def leastFloat32 (x y : Float32) : Float32 :=
  if x.isNaN then y else if y.isNaN then x else if y < x then y else x

/-- The greater of two floats, or the other one if one is NaN. -/
def greatestFloat32 (x y : Float32) : Float32 :=
  if x.isNaN then y else if y.isNaN then x else if x < y then y else x

instance : Scalar Float32 where
  zero := 0
  one := 1
  two := 2
  half := 0.5
  magnitude := Float32.abs
  least := leastFloat32
  greatest := greatestFloat32
  below x y := decide (x < y)
  atMost x y := decide (x ≤ y)

instance : Scalar Rat where
  zero := 0
  one := 1
  two := 2
  half := 1 / 2
  magnitude x := if x < 0 then -x else x
  least x y := if y < x then y else x
  greatest x y := if x < y then y else x
  below x y := decide (x < y)
  atMost x y := decide (x ≤ y)

end ScreenFusion
