import ScreenFusion.Blend.Mode
import ScreenFusion.Device.Basic

/-!
# ScreenFusion.Device.Draw — running a program over a buffer

For each texel of the output the running colour starts as the input's colour there, and each stage replaces it or combines
its kernel's result with it.  All texels are computed before any is written.
-/

namespace ScreenFusion

/-- What a draw makes of a texel, apart from its program's stages. -/
structure DrawContext where
  values : List UniformValue
  uv : Uv
  depth : Float32
  texel : Uv
  sample : Uv → Rgba Float32

namespace DrawContext

/-- The values of the frame's first slot: time and time since the last frame. -/
def frame (c : DrawContext) : Rgba Float32 :=
  ((c.values[0]?).map fun v => v.asVec4.map Binary32.toFloat).getD .transparent

/-- What a stage's kernel sees. -/
def input (c : DrawContext) (slots : UnitSlots) (color : Rgba Float32) : KernelInput where
  color
  uv := c.uv
  depth := c.depth
  time := c.frame.r
  deltaTime := c.frame.g
  texel := c.texel
  uniform? name := (slots.uniforms.lookup name).bind fun slot => c.values[slot]?
  sample := c.sample

/-- A colour combined with a stage's result, as the value of the stage's blend slot says. -/
def combine (packed : Rgba Float32) (color result : Rgba Float32) : Rgba Float32 :=
  let function := (BlendFunction.ofId? (nearestNat 32 (.ofFloat32 packed.g))).getD .normal
  function.combine color result packed.r

/-- The running colour after a stage. -/
def runStage (c : DrawContext) (color : Rgba Float32) (stage : ProgramStage) : Rgba Float32 :=
  match stage.kernel with
  | none => color
  | some kernel =>
    let result := kernel.shade (c.input stage.slots color)
    match stage.slots.blend with
    | none => result
    | some slot =>
      let packed := ((c.values[slot]?).map fun v => v.asVec4.map Binary32.toFloat).getD ⟨1, 0, 0, 0⟩
      combine packed color result

/-- The colour of the texel. -/
def run (c : DrawContext) (p : Program) : Rgba Float32 :=
  let color := p.stages.foldl c.runStage (c.sample c.uv)
  if p.forcesAlpha then { color with a := 1 } else color

end DrawContext

namespace Device

/-- A program, as a part of an operation. -/
def findProgram (program : Nat) : Act Device Program := do
  match (← Act.get).programs.get? program with
  | some p => return p
  | none => Act.fail (.resource (.unknownProgram program))

/-- A buffer that may be missing, as a part of an operation. -/
def findBound : Option Nat → Act Device (Option Plane)
  | none => return none
  | some t => return some (← findPlane (some t))

/-- Runs a program over a whole buffer. -/
def drawFullscreen (draw : FullscreenDraw) : Act Device Unit := do
  let program ← findProgram draw.program
  match unpackBlock? program.kinds draw.block with
  | none => Act.fail (.resource (.blockSize program.label draw.block.length (16 * program.kinds.length)))
  | some values =>
    let input ← findBound draw.input
    let depth ← findBound draw.depth
    let output ← findPlane draw.output
    let sample (uv : Uv) : Rgba Float32 := (input.map (·.sample uv)).getD .transparent
    let texel (i : Nat) : Rgba Float32 :=
      let uv := output.centre i
      DrawContext.run ⟨values, uv, (depth.map (·.sampleDepth uv)).getD 1, output.texelSize, sample⟩ program
    Act.modify fun d =>
      (d.setPlane draw.output (output.mapColor fun i _ => some (texel i))).count fun s =>
        { s with draws := s.draws + 1 }

/-- The screen as eight-bit colours, row by row. -/
def screen8 (d : Device) : List (Rgba UInt8) := d.screen.color.toList.map Rgba.encode8

/-- The colour of a texel of the screen. -/
def screenPixel? (d : Device) (x y : Nat) : Option (Rgba Float32) :=
  if x < d.screen.width ∧ y < d.screen.height then d.screen.color[y * d.screen.width + x]? else none

end Device

/-- The text for a picture file that cannot be written. -/
def unwritableMessage (path : String) : String := s!"failed to write {path}"

end ScreenFusion
