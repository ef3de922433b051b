import ScreenFusion.Blend.Combine
import ScreenFusion.Uniform.Value

/-!
# ScreenFusion.Blend.Mode — a blend function with an opacity

The opacity that counts is always in `0 … 1`.  A descriptor may hold another number, which is kept as it is and clamped
when it is used.
-/

namespace ScreenFusion

/-- A blend function with an opacity as it was given. -/
structure BlendMode where
  function : BlendFunction
  rawOpacity : Float32
  deriving DecidableEq

namespace BlendMode

/-- A function at full opacity. -/
def ofFunction (f : BlendFunction) : BlendMode := ⟨f, 1⟩

instance : Inhabited BlendMode := ⟨ofFunction .normal⟩

/-- The opacity that counts. -/
def opacity (m : BlendMode) : Float32 := Scalar.clampUnit m.rawOpacity

/-- The mode at another opacity; NaN counts as zero. -/
def withOpacity (m : BlendMode) (opacity : Float32) : BlendMode :=
  { m with rawOpacity := if opacity.isNaN then 0 else Scalar.clampUnit opacity }

/-- The mode as a value of its slot: opacity and function number. -/
def packed (m : BlendMode) : UniformValue :=
  .ofFloats ⟨m.opacity, (UInt32.ofNat m.function.id).toFloat32, 0, 0⟩

/-- A base colour combined with a new one. -/
def combine (m : BlendMode) (base new : Rgba Float32) : Rgba Float32 :=
  m.function.combine base new m.opacity

/-- The fields of a mode in a descriptor. -/
def fields : Json.Record BlendMode where
  title := "BlendMode"
  fields := [
    .defaulted "function" BlendFunction.decode fun f m => { m with function := f },
    .defaulted "opacity" Json.Decoder.binary32 fun x m => { m with rawOpacity := x.toFloat }]
  blank := default

/-- The mode as it is written. -/
def written (m : BlendMode) : Json.Written :=
  .object [("function", m.function.written), ("opacity", .float (.ofFloat m.rawOpacity))]

end BlendMode

end ScreenFusion
