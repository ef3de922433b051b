import ScreenFusion.Kernel

/-!
# ScreenFusion.Effect.Stock — ready-made colour functions

A small collection of kernels: colour arithmetic, depth fog, lookups at other places, and probes that show what a kernel
sees.
-/

namespace ScreenFusion

/-- A ready-made colour function. -/
inductive StockKernel where
  /-- The running colour. -/
  | color
  /-- The complement of the colour channels. -/
  | invert
  /-- Half of every channel. -/
  | halve
  /-- The depth as grey. -/
  | depth
  /-- White, the more the deeper. -/
  | fog
  /-- The place, the time and the time since the last frame. -/
  | frame
  /-- The size of a texel. -/
  | texel
  /-- The input buffer at the place. -/
  | sample
  /-- The input buffer at another place. -/
  | offset (du dv : Float32)
  | constant (c : Rgba Float32)
  /-- The colour channels times a uniform. -/
  | scale (uniform : String)
  /-- A uniform. -/
  | fill (uniform : String)
  /-- Every channel times the same channel of a uniform. -/
  | multiply (uniform : String)
  /-- The complement where a uniform is true. -/
  | invertIf (uniform : String)
  /-- The kind of a uniform as a number, and its readings. -/
  | probe (uniform : String)

namespace StockKernel

/-- The complement of the colour channels. -/
def complement (c : Rgba Float32) : Rgba Float32 := ⟨1 - c.r, 1 - c.g, 1 - c.b, c.a⟩

/-- The number of a kind of uniform. -/
def kindCode : UniformValue → Float32
  | .bool _ => 1
  | .float _ => 2
  | .vec2 .. => 3
  | .vec3 .. => 4
  | .vec4 .. => 5
  | .int _ => 6
  | .uint _ => 7

/-- What the function computes. -/
def shade (k : StockKernel) (i : KernelInput) : Rgba Float32 :=
  match k with
  | color => i.color
  | invert => complement i.color
  | halve => i.color.map (· * 0.5)
  | depth => ⟨i.depth, i.depth, i.depth, 1⟩
  | fog => i.color.map fun c => c + (1 - c) * i.depth
  | frame => ⟨i.uv.u, i.uv.v, i.time, i.deltaTime⟩
  | texel => ⟨i.texel.u, i.texel.v, 0, 1⟩
  | sample => i.sample i.uv
  | offset du dv => i.sample ⟨i.uv.u + du, i.uv.v + dv⟩
  | constant c => c
  | scale uniform =>
    let f := i.float uniform
    ⟨i.color.r * f, i.color.g * f, i.color.b * f, i.color.a⟩
  | fill uniform => i.vec4 uniform
  | multiply uniform => i.color.zipWith (· * ·) (i.vec4 uniform)
  | invertIf uniform => if i.flag uniform then complement i.color else i.color
  | probe uniform =>
    match i.uniform? uniform with
    | none => .transparent
    | some v => ⟨kindCode v, v.asFloat.toFloat, if v.asBool then 1 else 0, v.asVec4.a.toFloat⟩

end StockKernel

end ScreenFusion
