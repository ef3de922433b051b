import ScreenFusion.Act
import ScreenFusion.Device.Plane
import ScreenFusion.Fusion.Program
import ScreenFusion.Scene.Object
import ScreenFusion.Table

/-!
# ScreenFusion.Device.Basic — a device that runs kernels

A device owns a screen, further buffers called targets, programs and scenes.  Everything but the screen is known by a
number from one counter.  An operation that fails leaves the device as it was.
-/

namespace ScreenFusion

/-- What a target is to be like. -/
structure TargetSpec where
  label : String
  width : Nat
  height : Nat
  precision : Precision
  alpha : Bool
  depth : Bool
  deriving DecidableEq, Inhabited

/-- What a scene is rendered for. -/
inductive SceneMode where
  | color
  | depth
  deriving DecidableEq, Inhabited

/-- A draw of a scene. -/
structure SceneDraw where
  scene : Nat
  layers : Layers
  mode : SceneMode
  /-- Without a target the draw goes to the screen. -/
  target : Option Nat
  /-- Written where the scene shows nothing; without one, what was there stays. -/
  background : Option (Rgba Float32)
  deriving DecidableEq, Inhabited

/-- A draw of a program over a whole buffer. -/
structure FullscreenDraw where
  program : Nat
  /-- The bytes of the uniform block. -/
  block : List UInt8
  input : Option Nat
  depth : Option Nat
  /-- Without an output the draw goes to the screen. -/
  output : Option Nat
  deriving DecidableEq, Inhabited

/-- What a device keeps of a program. -/
structure Program where
  label : String
  stages : List ProgramStage
  kinds : List SlotKind
  forcesAlpha : Bool
  deriving Inhabited

/-- What a device has done. -/
structure Stats where
  draws : Nat
  colorScenes : Nat
  depthScenes : Nat
  clears : Nat
  programsCompiled : Nat
  programsReleased : Nat
  targetsCreated : Nat
  targetsReleased : Nat
  deriving DecidableEq, Inhabited

/-- The targets not released yet. -/
def Stats.liveTargets (s : Stats) : Nat := s.targetsCreated - s.targetsReleased

/-- The programs not released yet. -/
def Stats.livePrograms (s : Stats) : Nat := s.programsCompiled - s.programsReleased

/-- A device that runs kernels. -/
structure Device where
  screen : Plane
  targets : Table Plane
  programs : Table Program
  scenes : Table Scene
  /-- Precisions that targets cannot have. -/
  unsupported : List Precision
  /-- The next number for a target, program or scene. -/
  nextId : Nat
  stats : Stats
  /-- Whether the text of programs is checked. -/
  checksText : Bool
  deriving Inhabited

namespace Device

/-- A device with a screen and nothing else. -/
def create (width height : Nat) (unsupported : List Precision) (checksText : Bool) : Device where
  screen := .create width height .full true
  targets := .empty
  programs := .empty
  scenes := .empty
  unsupported
  nextId := 1
  stats := ⟨0, 0, 0, 0, 0, 0, 0, 0⟩
  checksText

/-! ## Queries -/

/-- The size of the screen. -/
def outputSize (d : Device) : Nat × Nat := (d.screen.width, d.screen.height)

/-- Whether targets can have a precision. -/
def supports (d : Device) (p : Precision) : Bool := !d.unsupported.contains p

/-- The size of a target. -/
def targetSize? (d : Device) (target : Nat) : Option (Nat × Nat) :=
  (d.targets.get? target).map fun p => (p.width, p.height)

/-- The screen, or a target. -/
def plane (d : Device) : Option Nat → Except Error Plane
  | none => .ok d.screen
  | some t => match d.targets.get? t with
    | some p => .ok p
    | none => .error (.resource (.unknownTarget t))

/-- The device with the screen or a target replaced. -/
def setPlane (d : Device) (target : Option Nat) (p : Plane) : Device :=
  match target with
  | none => { d with screen := p }
  | some t => { d with targets := d.targets.insert t p }

/-- The device with other counts. -/
def count (d : Device) (f : Stats → Stats) : Device := { d with stats := f d.stats }

/-! ## Operations -/

/-- A size that a buffer can have. -/
def checkSize (label : String) (width height : Nat) : Act Device Unit :=
  Act.require (0 < width && 0 < height) (.resource (.invalidSize label width height))

/-- The screen or a target, as a part of an operation. -/
def findPlane (target : Option Nat) : Act Device Plane := do
  Act.ofExcept ((← Act.get).plane target)

/-- The next number. -/
def takeId : Act Device Nat := do
  let d ← Act.get
  Act.set { d with nextId := d.nextId + 1 }
  return d.nextId

/-- Gives the screen another size, which makes it empty; the same size changes nothing. -/
def setOutputSize (width height : Nat) : Act Device Unit := do
  checkSize "display" width height
  Act.modify fun d =>
    if d.outputSize = (width, height) then d else { d with screen := d.screen.resized width height }

/-- Makes a target: its number. -/
def createTarget (spec : TargetSpec) : Act Device Nat := do
  checkSize spec.label spec.width spec.height
  Act.require ((← Act.get).supports spec.precision) (.resource (.unsupportedPrecision spec.label spec.precision))
  let id ← takeId
  Act.modify fun d =>
    { d with targets := d.targets.insert id (.create spec.width spec.height spec.precision spec.depth) }.count
      fun s => { s with targetsCreated := s.targetsCreated + 1 }
  return id

/-- Gives a target another size, which makes it empty. -/
def resizeTarget (target width height : Nat) : Act Device Unit := do
  checkSize "target" width height
  let p ← findPlane (some target)
  Act.modify fun d => d.setPlane (some target) (p.resized width height)

/-- Releases a target: whether there was one. -/
def releaseTarget (target : Nat) (d : Device) : Bool × Device :=
  if d.targets.contains target then
    (true, { d with targets := d.targets.erase target }.count fun s =>
      { s with targetsReleased := s.targetsReleased + 1 })
  else (false, d)

/-- What is wrong with a program, if anything is. -/
def programFault? (d : Device) (source : ProgramSource) : Option CompileCause :=
  match if d.checksText then Wgsl.rejection? source.text else none with
  | some reason => some (.rejected reason source.text)
  | none => (source.stages.find? fun s => s.kernel.isNone).map fun s => .noKernel s.label

/-- Makes a program: its number. -/
def compileProgram (source : ProgramSource) : Act Device Nat := do
  match (← Act.get).programFault? source with
  | some cause => Act.fail (.compile source.label cause)
  | none =>
    let id ← takeId
    Act.modify fun d =>
      { d with programs := d.programs.insert id ⟨source.label, source.stages, source.kinds, source.forcesAlpha⟩ }.count
        fun s => { s with programsCompiled := s.programsCompiled + 1 }
    return id

/-- Releases a program: whether there was one. -/
def releaseProgram (program : Nat) (d : Device) : Bool × Device :=
  if d.programs.contains program then
    (true, { d with programs := d.programs.erase program }.count fun s =>
      { s with programsReleased := s.programsReleased + 1 })
  else (false, d)

/-- Fills a buffer with a colour and a depth, each if given. -/
def clear (target : Option Nat) (color : Option (Rgba Float32)) (depth : Option Float32) : Act Device Unit := do
  let p ← findPlane target
  let p := match color with
    | some c => p.mapColor fun _ _ => some c
    | none => p
  let p := match depth with
    | some x => p.mapDepth fun _ _ => x
    | none => p
  Act.modify fun d => (d.setPlane target p).count fun s => { s with clears := s.clears + 1 }

/-- Writes colours into a buffer, row by row. -/
def upload (target : Option Nat) (pixels : List (Rgba Float32)) : Act Device Unit := do
  let p ← findPlane target
  Act.require (pixels.length == p.texels) (.resource (.uploadSize pixels.length p.width p.height))
  let pixels := pixels.toArray
  Act.modify fun d => d.setPlane target (p.mapColor fun i _ => pixels[i]?)

/-- Adds a scene: its number. -/
def addScene (scene : Scene) (d : Device) : Nat × Device :=
  (d.nextId, { d with scenes := d.scenes.insert d.nextId scene, nextId := d.nextId + 1 })

/-- Removes a scene: whether there was one. -/
def removeScene (scene : Nat) (d : Device) : Bool × Device :=
  (d.scenes.contains scene, { d with scenes := d.scenes.erase scene })

/-- The nearer of a stored depth and a fragment's. -/
def nearerDepth (stored depth : Float32) : Float32 := leastFloat32 stored (Scalar.clampUnit depth)

/-- Renders a scene's colours or depths into a buffer. -/
def renderScene (draw : SceneDraw) : Act Device Unit := do
  match (← Act.get).scenes.get? draw.scene with
  | none => Act.fail (.resource (.unknownScene draw.scene))
  | some scene =>
    let p ← findPlane draw.target
    let shade (i : Nat) : Option Fragment := scene.shade (p.centre i) draw.layers
    match draw.mode with
    | .color =>
      let p := p.mapColor fun i _ => ((shade i).map Fragment.color) <|> draw.background
      Act.modify fun d => (d.setPlane draw.target p).count fun s => { s with colorScenes := s.colorScenes + 1 }
    | .depth =>
      Act.require p.depth.isSome (.resource (.noDepthPlane p.width p.height))
      let p := p.mapDepth fun i x => ((shade i).map fun f => nearerDepth x f.depth).getD x
      Act.modify fun d => (d.setPlane draw.target p).count fun s => { s with depthScenes := s.depthScenes + 1 }

end Device

end ScreenFusion
