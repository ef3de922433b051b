import ScreenFusion.Blend.Function
import ScreenFusion.Color

/-!
# ScreenFusion.Blend.Combine — combining a base colour with a new one

Three functions act on whole colours: `skip` keeps the base, `add` adds the new colour, and `alpha` interpolates by the
new colour's alpha.  The others have a formula per colour channel and interpolate from the base to its result.
-/

namespace ScreenFusion

namespace BlendFunction

variable {α : Type} [Scalar α]

open Scalar

/-- What a colour channel `x` of the base and `y` of the new colour give at full opacity. -/
def channel (f : BlendFunction) (x y : α) : α :=
  match f with
  | multiply => x * y
  | screen => one - (one - x) * (one - y)
  | average => (x + y) * Scalar.half
  | darken => least x y
  | lighten => greatest x y
  | difference => magnitude (x - y)
  | exclusion => x + y - two * x * y
  | overlay =>
    if below x Scalar.half then two * x * y else one - two * (one - x) * (one - y)
  | softLight => (one - two * y) * x * x + two * y * x
  | colorBurn =>
    if atMost one x then one
    else if atMost y zero then zero
    else greatest (one - (one - x) / y) zero
  | colorDodge =>
    if atMost x zero then zero
    else if atMost one y then one
    else least (x / (one - y)) one
  | divide => if below zero y then least (x / y) one else one
  | negation => one - magnitude (one - x - y)
  | subtract => greatest (x - y) zero
  | normal | add | alpha | skip => y

/-- The base colour combined with a new one at an opacity. -/
def combine (f : BlendFunction) (base new : Rgba α) (opacity : α) : Rgba α :=
  match f with
  | skip => base
  | add => base.zipWith (fun x y => x + y * opacity) new
  | alpha => base.mix new (new.a * opacity)
  | f =>
    ⟨lerp base.r (f.channel base.r new.r) opacity, lerp base.g (f.channel base.g new.g) opacity,
      lerp base.b (f.channel base.b new.b) opacity, lerp base.a new.a opacity⟩

@[simp] theorem combine_skip (base new : Rgba α) (opacity : α) : skip.combine base new opacity = base := rfl

end BlendFunction

end ScreenFusion
