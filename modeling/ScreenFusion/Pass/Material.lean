import ScreenFusion.Fusion.Basic
import ScreenFusion.Pass.Basic

/-!
# ScreenFusion.Pass.Material — running a raw shader

A material is a shader whose result replaces the input colour.  A material pass builds its program before it is first
used and after each change that needs it; when a build fails it keeps the program it has, and is disabled if it has none.
-/

namespace ScreenFusion

open Fusion

/-- A shader whose result replaces the input colour. -/
structure Material where
  name : String
  shader : String
  uniforms : OrderedMap UniformValue
  defines : OrderedMap String
  readsDepth : Bool
  kernel : Option Kernel
  deriving Inhabited

namespace Material

/-- A material with a shader and nothing else. -/
def create (name shader : String) : Material := ⟨name, shader, .empty, .empty, false, none⟩

/-- The shader that passes its input through. -/
def copyShader : String := "fn main_image(input_color: vec4f, uv: vec2f) -> vec4f \x7b
    return input_color;
\x7d
"

/-- The material that passes its input through. -/
def copy (kernel : Kernel) : Material := { create "copy" copyShader with kernel := some kernel }

/-- What the material needs from its program. -/
def attributes (m : Material) : Attributes := if m.readsDepth then .depth else .none

/-- The unit that the material brings to a program. -/
def toUnit (m : Material) : FuseUnit where
  name := m.name
  shader := m.shader
  uniforms := m.uniforms
  defines := m.defines
  attributes := m.attributes
  kernel := m.kernel
  blended := false

end Material

/-- A built program with the slots of its unit's uniforms. -/
structure CompiledMaterial where
  program : Nat
  uniforms : List (String × Nat)
  slotCount : Nat
  deriving DecidableEq, Inhabited

/-- A pass that runs a material over the write buffer. -/
structure MaterialPass where
  name : String
  settings : PassSettings
  material : Material
  options : FuseOptions
  compiled : Option CompiledMaterial
  /-- Whether the program has to be built again. -/
  dirty : Bool
  /-- The error of the last build, if it failed. -/
  lastError : Option Error
  elapsed : Binary32
  camera : CameraPlanes
  disposed : Bool
  deriving Inhabited

namespace MaterialPass

/-- A pass for a material, named after it. -/
def create (material : Material) : MaterialPass where
  name := s!"ShaderPass({material.name})"
  settings := .swapping
  material
  options := default
  compiled := none
  dirty := true
  lastError := none
  elapsed := .zero
  camera := default
  disposed := false

/-- Replaces the material. -/
def setMaterial (p : MaterialPass) (material : Material) : MaterialPass := { p with material, dirty := true }

/-- Gives a uniform a value; a new name or another kind needs a build. -/
def setUniform (p : MaterialPass) (name : String) (value : UniformValue) : MaterialPass :=
  let (old, uniforms) := p.material.uniforms.getThenInsert name value
  let keepsLayout := (old.map (·.sameKind value)).getD false
  { p with material := { p.material with uniforms }, dirty := p.dirty || !keepsLayout }

/-- Sets the pass up; another precision or alpha needs a build. -/
def configure (setup : Setup) : Act (Staged MaterialPass) Unit :=
  Staged.modify fun p =>
    let options : FuseOptions := ⟨setup.precision, setup.alpha⟩
    if p.options = options then p else { p with options, dirty := true }

/-- Builds the program. -/
def build : Act (Staged MaterialPass) CompiledMaterial := do
  let p ← Staged.get
  let (events, fused) := fuse p.name [p.material.toUnit] p.options
  Staged.report events
  let source ← Act.ofExcept fused
  let program ← Staged.onHost (Host.compileProgram source)
  return ⟨program, (source.layout.head?.map UnitSlots.uniforms).getD [], source.slots.length⟩

/-- Builds the program and takes it into use, or keeps what there is. -/
def rebuild : Act (Staged MaterialPass) Unit := do
  let result ← Act.attempt build
  Staged.modify fun p => { p with dirty := false }
  let p ← Staged.get
  match result with
  | .ok compiled =>
    Staged.modify fun p => { p with compiled := some compiled }
    match p.compiled with
    | some old => let _ ← Staged.release (Host.releaseProgram old.program)
    | none => pure ()
    Staged.modify fun p => { p with lastError := none }
    Staged.report [.materialBuilt p.name]
  | .error e =>
    if p.compiled.isSome then Staged.report [.programKept p.name e]
    else
      Staged.report [.passDisabled p.name e]
      Staged.modify fun p => { p with settings := { p.settings with enabled := false } }
    Staged.modify fun p => { p with lastError := some e }
    Act.fail e

/-- Makes the program ready; a failed build is reported again until something changes. -/
def prepare : Act (Staged MaterialPass) Unit := do
  let p ← Staged.get
  if p.disposed then Act.fail (.resource (.disposedPass p.name))
  else if p.dirty then rebuild
  else
    match p.compiled, p.lastError with
    | none, some e => Act.fail e
    | none, none => rebuild
    | some _, _ => return ()

/-- The values of the program's slots. -/
def values (p : MaterialPass) (compiled : CompiledMaterial) (deltaTime : Binary32) (size : Nat × Nat) :
    List UniformValue :=
  fillUniforms p.material.uniforms compiled.uniforms
    (frameValues compiled.slotCount p.elapsed deltaTime size p.camera)

/-- Runs the program over the write buffer. -/
def render (io : PassIo) (deltaTime : Binary32) : Act (Staged MaterialPass) Unit := do
  prepare
  Staged.modify fun p => { p with elapsed := p.elapsed + deltaTime }
  let p ← Staged.get
  match p.compiled with
  | none => Act.fail (.compile p.name .noProgram)
  | some compiled =>
    let size := io.outputSize (← Staged.device)
    let block := packBlock (p.values compiled deltaTime size)
    Staged.onHost (Host.drawFullscreen ⟨compiled.program, block, some io.input, io.depth, io.output⟩)

/-- Releases the program: whether the pass was live. -/
def dispose : Act (Staged MaterialPass) Bool := do
  let p ← Staged.get
  if p.disposed then return false
  else
    Staged.modify fun p => { p with disposed := true, compiled := none }
    match p.compiled with
    | some compiled => let _ ← Staged.release (Host.releaseProgram compiled.program)
    | none => pure ()
    return true

end MaterialPass

end ScreenFusion
