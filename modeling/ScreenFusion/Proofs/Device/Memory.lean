import ScreenFusion.Proofs.Device.Operation
import ScreenFusion.Proofs.Device.Storage

/-!
# ScreenFusion.Proofs.Device.Memory — a device on buffers as memory holds them

The operations of a device are written once more, texel by texel, for buffers as memory holds them.  There nothing says
that a buffer fits its size, and reading and writing can be stopped by a fault.

* `Risky`: acts that a fault can stop.
* `StoredDevice`: a device in memory and its operations.
* `DeviceOp.runStored`: an operation on it.
* `Device.stored`: the memory of a device.
-/

namespace ScreenFusion

/-! ## Acts that a fault can stop -/

/-- A state change with a result or an error; none if a fault stops it. -/
def Risky (σ α : Type) := σ → Option (Except Error α × σ)

namespace Risky

variable {σ α β : Type}

instance : Monad (Risky σ) where
  pure a := fun s => some (.ok a, s)
  bind x f := fun s => match x s with
    | some (.ok a, s) => f a s
    | some (.error e, s) => some (.error e, s)
    | none => none

theorem bind_of_ok {x : Risky σ α} {f : α → Risky σ β} {s t : σ} {a : α} (h : x s = some (.ok a, t)) :
    (x >>= f) s = f a t := by
  simp only [bind, h]

theorem bind_of_error {x : Risky σ α} {f : α → Risky σ β} {s t : σ} {e : Error} (h : x s = some (.error e, t)) :
    (x >>= f) s = some (.error e, t) := by
  simp only [bind, h]

/-- An act without faults. -/
def safely (x : Act σ α) : Risky σ α := fun s => some (x s)

/-- A computation that may have a fault. -/
def orFault (x : Option α) : Risky σ α := fun s => x.map fun a => (.ok a, s)

end Risky

/-! ## A device in memory -/

/-- The values of a table, each made another. -/
def Table.mapValues {α β : Type} (f : α → β) (t : Table α) : Table β := ⟨t.entries.map fun e => (e.1, f e.2)⟩

/-- A device as memory holds it. -/
structure StoredDevice where
  screen : StoredPlane
  targets : Table StoredPlane
  programs : Table Program
  scenes : Table Scene
  unsupported : List Precision
  nextId : Nat
  stats : Stats
  checksText : Bool

namespace StoredDevice

open Risky

/-- A device with a screen of at least one texel and nothing else. -/
def create (width height : Nat) (unsupported : List Precision) (checksText : Bool) : StoredDevice where
  screen := .create (max width 1) (max height 1) .full true
  targets := .empty
  programs := .empty
  scenes := .empty
  unsupported
  nextId := 1
  stats := ⟨0, 0, 0, 0, 0, 0, 0, 0⟩
  checksText

/-- The screen, or a target. -/
def plane (d : StoredDevice) : Option Nat → Except Error StoredPlane
  | none => .ok d.screen
  | some t => match d.targets.get? t with
    | some p => .ok p
    | none => .error (.resource (.unknownTarget t))

/-- The device with the screen or a target replaced. -/
def setPlane (d : StoredDevice) (target : Option Nat) (p : StoredPlane) : StoredDevice :=
  match target with
  | none => { d with screen := p }
  | some t => { d with targets := d.targets.insert t p }

/-- The device with other counts. -/
def count (d : StoredDevice) (f : Stats → Stats) : StoredDevice := { d with stats := f d.stats }

/-! ### Operations -/

def checkSize (label : String) (width height : Nat) : Act StoredDevice Unit :=
  Act.require (0 < width && 0 < height) (.resource (.invalidSize label width height))

def findPlane (target : Option Nat) : Act StoredDevice StoredPlane := do
  Act.ofExcept ((← Act.get).plane target)

def findBound : Option Nat → Act StoredDevice (Option StoredPlane)
  | none => return none
  | some t => return some (← findPlane (some t))

def findProgram (program : Nat) : Act StoredDevice Program := do
  match (← Act.get).programs.get? program with
  | some p => return p
  | none => Act.fail (.resource (.unknownProgram program))

def takeId : Act StoredDevice Nat := do
  let d ← Act.get
  Act.set { d with nextId := d.nextId + 1 }
  return d.nextId

def setOutputSize (width height : Nat) : Risky StoredDevice Unit := do
  safely (checkSize "display" width height)
  safely <| Act.modify fun d =>
    if (d.screen.width, d.screen.height) = (width, height) then d
    else { d with screen := d.screen.resized width height }

def createTarget (spec : TargetSpec) : Risky StoredDevice Nat := do
  safely (checkSize spec.label spec.width spec.height)
  let unsupported := (← safely Act.get).unsupported
  safely (Act.require (!unsupported.contains spec.precision)
    (.resource (.unsupportedPrecision spec.label spec.precision)))
  let id ← safely takeId
  safely <| Act.modify fun d =>
    { d with targets := d.targets.insert id (.create spec.width spec.height spec.precision spec.depth) }.count
      fun s => { s with targetsCreated := s.targetsCreated + 1 }
  return id

def resizeTarget (target width height : Nat) : Risky StoredDevice Unit := do
  safely (checkSize "target" width height)
  let p ← safely (findPlane (some target))
  safely (Act.modify fun d => d.setPlane (some target) (p.resized width height))

def releaseTarget (target : Nat) (d : StoredDevice) : Bool × StoredDevice :=
  if d.targets.contains target then
    (true, { d with targets := d.targets.erase target }.count fun s =>
      { s with targetsReleased := s.targetsReleased + 1 })
  else (false, d)

/-- What is wrong with a program, if anything is. -/
def programFault? (d : StoredDevice) (source : ProgramSource) : Option CompileCause :=
  match if d.checksText then Wgsl.rejection? source.text else none with
  | some reason => some (.rejected reason source.text)
  | none => (source.stages.find? fun s => s.kernel.isNone).map fun s => .noKernel s.label

def compileProgram (source : ProgramSource) : Risky StoredDevice Nat := do
  match (← safely Act.get).programFault? source with
  | some cause => safely (Act.fail (.compile source.label cause))
  | none =>
    let id ← safely takeId
    safely <| Act.modify fun d =>
      { d with programs := d.programs.insert id ⟨source.label, source.stages, source.kinds, source.forcesAlpha⟩ }.count
        fun s => { s with programsCompiled := s.programsCompiled + 1 }
    return id

def releaseProgram (program : Nat) (d : StoredDevice) : Bool × StoredDevice :=
  if d.programs.contains program then
    (true, { d with programs := d.programs.erase program }.count fun s =>
      { s with programsReleased := s.programsReleased + 1 })
  else (false, d)

def clear (target : Option Nat) (color : Option (Rgba Float32)) (depth : Option Float32) :
    Risky StoredDevice Unit := do
  let p ← safely (findPlane target)
  let p := match color with
    | some c => p.fill c
    | none => p
  let p := match depth with
    | some x => p.fillDepth x
    | none => p
  safely (Act.modify fun d => (d.setPlane target p).count fun s => { s with clears := s.clears + 1 })

/-- Writes colours into a buffer, one after the other. -/
def upload (target : Option Nat) (pixels : List (Rgba Float32)) : Risky StoredDevice Unit := do
  let p ← safely (findPlane target)
  safely (Act.require (pixels.length == p.color.length) (.resource (.uploadSize pixels.length p.width p.height)))
  let p ← orFault (p.paint? pixels.length fun _ i => pixels[i]?.map some)
  safely (Act.modify fun d => d.setPlane target p)

def addScene (scene : Scene) (d : StoredDevice) : Nat × StoredDevice :=
  (d.nextId, { d with scenes := d.scenes.insert d.nextId scene, nextId := d.nextId + 1 })

def removeScene (scene : Nat) (d : StoredDevice) : Bool × StoredDevice :=
  (d.scenes.contains scene, { d with scenes := d.scenes.erase scene })

/-- Renders a scene, texel by texel.  For depths, the centres of all texels are found first. -/
def renderScene (draw : SceneDraw) : Risky StoredDevice Unit := do
  match (← safely Act.get).scenes.get? draw.scene with
  | none => safely (Act.fail (.resource (.unknownScene draw.scene)))
  | some scene =>
    let p ← safely (findPlane draw.target)
    match draw.mode with
    | .color =>
      let p ← orFault <| p.paint? p.color.length fun q i =>
        (q.centre? i).map fun uv => ((scene.shade uv draw.layers).map Fragment.color) <|> draw.background
      safely <| Act.modify fun d =>
        (d.setPlane draw.target p).count fun s => { s with colorScenes := s.colorScenes + 1 }
    | .depth =>
      let centres ← orFault p.centres?
      safely (Act.require p.depth.isSome (.resource (.noDepthPlane p.width p.height)))
      let p := p.mapDepth centres fun x uv =>
        ((scene.shade uv draw.layers).map fun f => Device.nearerDepth x f.depth).getD x
      safely <| Act.modify fun d =>
        (d.setPlane draw.target p).count fun s => { s with depthScenes := s.depthScenes + 1 }

/-- The colour of a texel of a draw. -/
def texel? (program : Program) (values : List UniformValue) (depth : Option StoredPlane) (output : StoredPlane)
    (sample : Uv → Rgba Float32) (i : Nat) : Option (Rgba Float32) := do
  let uv ← output.centre? i
  let z ← match depth with
    | some p => p.sampleDepth? uv
    | none => some 1
  return DrawContext.run ⟨values, uv, z, output.texelSize, sample⟩ program

/-- Runs a program: the colours of all texels are computed, and then written one after the other. -/
noncomputable def drawFullscreen (draw : FullscreenDraw) : Risky StoredDevice Unit := do
  let program ← safely (findProgram draw.program)
  let values ← safely (Act.ofExcept (unpackBlock program.label program.kinds draw.block))
  let input ← safely (findBound draw.input)
  let depth ← safely (findBound draw.depth)
  let output ← safely (findPlane draw.output)
  let sample ← orFault <| match input with
    | some p => p.sampler?
    | none => some fun _ => .transparent
  let pixels ← orFault ((List.range output.color.length).mapM (texel? program values depth output sample))
  let output ← orFault (output.paint? pixels.length fun _ i => pixels[i]?.map some)
  safely <| Act.modify fun d => (d.setPlane draw.output output).count fun s => { s with draws := s.draws + 1 }

end StoredDevice

/-- The operation on a device in memory. -/
noncomputable def DeviceOp.runStored : DeviceOp → Risky StoredDevice DeviceAnswer
  | setOutputSize width height => do
    return (fun _ => .done) (← StoredDevice.setOutputSize width.toNat height.toNat)
  | createTarget label width height precision alpha depth => do
    return .made (← StoredDevice.createTarget ⟨label, width.toNat, height.toNat, precision, alpha, depth⟩)
  | resizeTarget target width height => do
    return (fun _ => .done) (← StoredDevice.resizeTarget target width.toNat height.toNat)
  | releaseTarget target => fun d => some (.ok (.removed (d.releaseTarget target).1), (d.releaseTarget target).2)
  | compileProgram source => do return .made (← StoredDevice.compileProgram source)
  | releaseProgram program => fun d => some (.ok (.removed (d.releaseProgram program).1), (d.releaseProgram program).2)
  | clear target color depth => do return (fun _ => .done) (← StoredDevice.clear target color depth)
  | upload target pixels => do return (fun _ => .done) (← StoredDevice.upload target pixels)
  | addScene scene => fun d => some (.ok (.made (d.addScene scene).1), (d.addScene scene).2)
  | removeScene scene => fun d => some (.ok (.removed (d.removeScene scene).1), (d.removeScene scene).2)
  | renderScene draw => do return (fun _ => .done) (← StoredDevice.renderScene draw)
  | drawFullscreen draw => do return (fun _ => .done) (← StoredDevice.drawFullscreen draw)
  | exclude precision => fun d => some (.ok .done, { d with unsupported := d.unsupported ++ [precision] })

/-! ## The device that memory stands for -/

namespace Table

variable {α β : Type} (f : α → β) (t : Table α)

theorem get?_mapValues (key : Nat) : (t.mapValues f).get? key = (t.get? key).map f := by
  unfold get? mapValues
  induction t.entries with
  | nil => rfl
  | cons e es ih =>
    rw [List.map_cons, lookup_cons, lookup_cons, ih]
    split <;> rfl

theorem keys_mapValues : (t.mapValues f).keys = t.keys := List.map_map

theorem mapValues_insert (key : Nat) (value : α) :
    (t.insert key value).mapValues f = (t.mapValues f).insert key (f value) := by
  refine congrArg Table.mk ?_
  show (insertIn key value t.entries).map _ = insertIn key (f value) (t.entries.map _)
  induction t.entries with
  | nil => rfl
  | cons e es ih =>
    rw [List.map_cons, insertIn, insertIn]
    split
    · rfl
    · split
      · rfl
      · rw [List.map_cons, ih]

theorem mapValues_erase (key : Nat) : (t.erase key).mapValues f = (t.mapValues f).erase key := by
  refine congrArg Table.mk ?_
  show (t.entries.filter _).map _ = (t.entries.map _).filter _
  rw [List.filter_map]
  rfl

end Table

namespace Device

variable {d : Device}

/-- The device as memory holds it. -/
def stored (d : Device) : StoredDevice where
  screen := d.screen.stored
  targets := d.targets.mapValues Plane.stored
  programs := d.programs
  scenes := d.scenes
  unsupported := d.unsupported
  nextId := d.nextId
  stats := d.stats
  checksText := d.checksText

theorem stored_create (width height : Nat) (unsupported : List Precision) (checksText : Bool) :
    (create width height unsupported checksText).stored = .create width height unsupported checksText := by
  unfold stored create StoredDevice.create
  rw [Plane.stored_create]
  rfl

theorem stored_plane (d : Device) (target : Option Nat) :
    d.stored.plane target = (d.plane target).map Plane.stored := by
  cases target with
  | none => rfl
  | some t =>
    have hget : d.stored.targets.get? t = (d.targets.get? t).map Plane.stored := Table.get?_mapValues _ _ t
    unfold StoredDevice.plane plane
    dsimp only
    rw [hget]
    cases d.targets.get? t <;> rfl

theorem stored_setPlane (d : Device) (target : Option Nat) (p : Plane) :
    (d.setPlane target p).stored = d.stored.setPlane target p.stored := by
  cases target with
  | none => rfl
  | some t =>
    unfold setPlane StoredDevice.setPlane stored
    dsimp only
    rw [Table.mapValues_insert]

end Device

end ScreenFusion
