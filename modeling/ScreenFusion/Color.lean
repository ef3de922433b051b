import ScreenFusion.Number.Power
import ScreenFusion.Precision

/-!
# ScreenFusion.Color — linear colours with straight alpha

An `Rgba α` has four channels in any `Scalar`.  Devices work on `Rgba Float32`; `encode8` is the 8-bit form for
display, whose colour channels follow the sRGB transfer curve.
-/

namespace ScreenFusion

/-- A linear colour with straight alpha. -/
structure Rgba (α : Type) where
  r : α
  g : α
  b : α
  a : α
  deriving DecidableEq, Inhabited

namespace Rgba

/-- The same function on each channel. -/
def map {α β : Type} (f : α → β) (c : Rgba α) : Rgba β := ⟨f c.r, f c.g, f c.b, f c.a⟩

/-- A function of two colours, channel by channel. -/
def zipWith {α β γ : Type} (f : α → β → γ) (x : Rgba α) (y : Rgba β) : Rgba γ :=
  ⟨f x.r y.r, f x.g y.g, f x.b y.b, f x.a y.a⟩

/-- The channels in order. -/
def toList {α : Type} (c : Rgba α) : List α := [c.r, c.g, c.b, c.a]

/-- The colour a fraction `t` of the way from `x` to `y`. -/
def mix {α : Type} [Scalar α] (x y : Rgba α) (t : α) : Rgba α :=
  zipWith (fun a b => Scalar.lerp a b t) x y

/-- Transparent black. -/
def transparent : Rgba Float32 := ⟨0, 0, 0, 0⟩

/-- Whether no channel differs by more than a tolerance. -/
def near (x y : Rgba Float32) (tolerance : Float32) : Bool :=
  (zipWith (fun a b => decide ((a - b).abs ≤ tolerance)) x y).toList.all id

/-- What remains of a colour after it has been stored. -/
def quantize (p : Precision) (c : Rgba Float32) : Rgba Float32 := c.map p.quantize

@[simp] theorem quantize_full (c : Rgba Float32) : c.quantize .full = c := rfl

end Rgba

/-! ## The sRGB transfer curve -/

/-- A linear channel in sRGB. -/
def encodeChannel (x : Float32) : Float32 :=
  if x ≤ 0.0031308 then 12.92 * x else 1.055 * power x (1.0 / 2.4) - 0.055

/-- An sRGB channel made linear. -/
def decodeChannel (x : Float32) : Float32 :=
  if x ≤ 0.04045 then x / 12.92 else power ((x + 0.055) / 1.055) 2.4

/-- A channel of `0 … 1` in steps of `1/255`. -/
def toByte (x : Float32) : UInt8 :=
  UInt8.ofNat (nearestNat 8 (.ofFloat32 (Scalar.clampUnit x * 255)))

/-- The 8-bit form of a colour: sRGB colour channels and linear alpha. -/
def Rgba.encode8 (c : Rgba Float32) : Rgba UInt8 :=
  ⟨toByte (encodeChannel c.r), toByte (encodeChannel c.g), toByte (encodeChannel c.b), toByte c.a⟩

end ScreenFusion
