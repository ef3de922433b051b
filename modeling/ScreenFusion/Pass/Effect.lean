import ScreenFusion.Effect.Members
import ScreenFusion.Fusion.Basic
import ScreenFusion.Pass.Basic

/-!
# ScreenFusion.Pass.Effect — many effects, one draw

An effect pass fuses its members into one program.  Changes of membership and of the members' programs only mark the pass;
`commit` builds the program, and a render commits first.  A program is known by its key, so that a change that is taken
back needs no build.  When a build fails the pass keeps the program it has, and is disabled if it has none.
-/

namespace ScreenFusion

open Fusion

/-- What the program of an effect depends on.  Uniform values and blend modes are not part of it. -/
structure EffectKey where
  id : Nat
  shader : String
  defines : List (String × String)
  attributes : Attributes
  uniforms : List (String × String)
  kernel : Option Nat
  deriving DecidableEq, Inhabited

/-- The key of an effect. -/
def EffectKey.of (e : Effect) : EffectKey where
  id := e.id
  shader := e.shader
  defines := e.defines.entries
  attributes := e.attributes
  uniforms := e.uniforms.entries.map fun u => (u.1, u.2.kindName)
  kernel := e.kernel.map Kernel.serial

/-- What a fused program depends on. -/
structure ProgramKey where
  effects : List EffectKey
  options : FuseOptions
  deriving DecidableEq, Inhabited

/-- A built program with the slots of its units. -/
structure CompiledEffects where
  program : Nat
  key : ProgramKey
  layout : List UnitSlots
  slotCount : Nat
  text : String
  deriving DecidableEq, Inhabited

/-- A pass that runs fused effects over the write buffer. -/
structure EffectPass where
  name : String
  settings : PassSettings
  effects : List Effect
  options : FuseOptions
  compiled : Option CompiledEffects
  /-- Whether members or options have changed since the last commit. -/
  membersChanged : Bool
  /-- The error of the last build, if it failed. -/
  lastError : Option Error
  /-- The number of builds that succeeded. -/
  programVersion : Nat
  elapsed : Binary32
  camera : CameraPlanes
  disposed : Bool
  deriving Inhabited

namespace EffectPass

/-- A pass with members that can share a program. -/
def create (name : String) (effects : List Effect) : Except Error EffectPass := do
  let _ ← checkMembers name effects
  return {
    name
    settings := .swapping
    effects
    options := default
    compiled := none
    membersChanged := true
    lastError := none
    programVersion := 0
    elapsed := .zero
    camera := default
    disposed := false }

/-- The member with a number. -/
def effect? (p : EffectPass) (id : Nat) : Option Effect := p.effects.find? fun e => e.id == id

/-- The first member with a name. -/
def effectByName? (p : EffectPass) (name : String) : Option Effect := p.effects.find? fun e => e.name == name

/-- Changes the member with a number. -/
def modifyEffect (p : EffectPass) (id : Nat) (f : Effect → Effect) : EffectPass :=
  { p with effects := p.effects.map fun e => if e.id = id then f e else e }

/-- The attributes of any member. -/
def attributes (p : EffectPass) : Attributes := p.effects.foldl (fun a e => a.union e.attributes) .none

/-- Whether there may be something to build. -/
def isDirty (p : EffectPass) : Bool := p.membersChanged || p.effects.any Effect.isChanged

/-- What the program of the present members depends on. -/
def key (p : EffectPass) : ProgramKey := ⟨p.effects.map EffectKey.of, p.options⟩

/-- The pass with all changes acknowledged. -/
def acknowledgeAll (p : EffectPass) : EffectPass :=
  { p with membersChanged := false, effects := p.effects.map Effect.acknowledge }

/-! ## Members -/

/-- Inserts an effect before the member at an index, at the end if there is none. -/
def insertEffect (index : Nat) (e : Effect) : Act (Staged EffectPass) Unit := do
  let p ← Staged.get
  let _ ← Act.ofExcept (checkMembers p.name (p.effects ++ [e]))
  let index := min index p.effects.length
  Staged.report [.effectInserted p.name e.name index]
  Staged.modify fun p => { p with effects := p.effects.insertIdx index e, membersChanged := true }

/-- Adds an effect after every member. -/
def addEffect (e : Effect) : Act (Staged EffectPass) Unit := do
  insertEffect (← Staged.get).effects.length e

/-- Takes a member out. -/
def removeEffect (p : EffectPass) (id : Nat) : Option Effect × EffectPass :=
  match p.effect? id with
  | some e => (some e, { p with effects := p.effects.eraseP fun e => e.id == id, membersChanged := true })
  | none => (none, p)

/-- Replaces all members: the members before. -/
def setEffects (p : EffectPass) (effects : List Effect) : Except Error (List Effect × EffectPass) := do
  let _ ← checkMembers p.name effects
  return (p.effects, { p with effects, membersChanged := true })

/-- Replaces a member's attributes; if the members then cannot share a program, puts the old ones back. -/
def setEffectAttributes (id : Nat) (attributes : Attributes) : Act (Staged EffectPass) Unit := do
  let p ← Staged.get
  match p.effect? id with
  | none => Act.fail (.configuration p.name (.unknownEffect id))
  | some e =>
    Staged.modify fun p => p.modifyEffect id (·.setAttributes attributes)
    match checkMembers p.name (← Staged.get).effects with
    | .ok _ => return ()
    | .error err =>
      Staged.modify fun p => p.modifyEffect id (·.setAttributes e.attributes)
      Act.fail err

/-! ## Programs -/

/-- Builds the program of the members. -/
def build (key : ProgramKey) : Act (Staged EffectPass) CompiledEffects := do
  let p ← Staged.get
  let _ ← Act.ofExcept (checkMembers p.name p.effects)
  let (events, fused) := fuse p.name (p.effects.map FuseUnit.ofEffect) p.options
  Staged.report events
  let source ← Act.ofExcept fused
  let program ← Staged.onHost (Host.compileProgram source)
  return ⟨program, key, source.layout, source.slots.length, source.text⟩

/-- Builds the program and takes it into use, or keeps what there is. -/
def rebuild (key : ProgramKey) : Act (Staged EffectPass) Unit := do
  let result ← Act.attempt (build key)
  Staged.modify acknowledgeAll
  let p ← Staged.get
  match result with
  | .ok compiled =>
    Staged.modify fun p => { p with compiled := some compiled }
    match p.compiled with
    | some old => let _ ← Staged.release (Host.releaseProgram old.program)
    | none => pure ()
    Staged.modify fun p => { p with programVersion := p.programVersion + 1, lastError := none }
    Staged.report [.fused p.name p.effects.length (p.programVersion + 1)]
  | .error e =>
    if p.compiled.isSome then Staged.report [.programKept p.name e]
    else
      Staged.report [.passDisabled p.name e]
      Staged.modify fun p => { p with settings := { p.settings with enabled := false } }
    Staged.modify fun p => { p with lastError := some e }
    Act.fail e

/-- Brings the program up to date: whether a program was built.  A failed build is reported again until something
changes. -/
def commit : Act (Staged EffectPass) Bool := do
  let p ← Staged.get
  if p.disposed then Act.fail (.resource (.disposedPass p.name))
  else if !p.isDirty && p.compiled.isSome then return false
  else
    match if p.isDirty then none else p.lastError with
    | some e => Act.fail e
    | none =>
      if p.compiled.map CompiledEffects.key = some p.key then
        Staged.modify fun p => { p.acknowledgeAll with lastError := none }
        return false
      else
        rebuild p.key
        return true

/-- Sets the pass up; another precision or alpha needs a build. -/
def configure (setup : Setup) : Act (Staged EffectPass) Unit :=
  Staged.modify fun p =>
    let options : FuseOptions := ⟨setup.precision, setup.alpha⟩
    if p.options = options then p else { p with options, membersChanged := true }

/-- Puts an effect's blend mode and uniforms into the slots of a unit. -/
def fillUnit (values : List UniformValue) (unit : Effect × UnitSlots) : List UniformValue :=
  let (e, slots) := unit
  let values := match slots.blend with
    | some slot => values.set slot e.blend.packed
    | none => values
  fillUniforms e.uniforms slots.uniforms values

/-- The values of the program's slots: the present members fill the program's units in order. -/
def values (p : EffectPass) (compiled : CompiledEffects) (deltaTime : Binary32) (size : Nat × Nat) :
    List UniformValue :=
  (p.effects.zip compiled.layout).foldl fillUnit
    (frameValues compiled.slotCount p.elapsed deltaTime size p.camera)

/-- Runs the program over the write buffer. -/
def render (io : PassIo) (deltaTime : Binary32) : Act (Staged EffectPass) Unit := do
  let _ ← commit
  Staged.modify fun p => { p with elapsed := p.elapsed + deltaTime }
  let p ← Staged.get
  match p.compiled with
  | none => Act.fail (.compile p.name .noProgram)
  | some compiled =>
    let size := io.outputSize (← Staged.device)
    let block := packBlock (p.values compiled deltaTime size)
    Staged.onHost (Host.drawFullscreen ⟨compiled.program, block, some io.input, io.depth, io.output⟩)

/-- Disposes of effects in order: what is reported, and the effects after it. -/
def disposeEffects (effects : List Effect) : List Event × List Effect :=
  let disposed := effects.map Effect.dispose
  (disposed.flatMap fun d => d.2.1, disposed.map fun d => d.2.2)

/-- Releases the program and disposes of the members: whether the pass was live. -/
def dispose : Act (Staged EffectPass) Bool := do
  let p ← Staged.get
  if p.disposed then return false
  else
    Staged.modify fun p => { p with disposed := true, compiled := none }
    match p.compiled with
    | some compiled => let _ ← Staged.release (Host.releaseProgram compiled.program)
    | none => pure ()
    let (events, effects) := disposeEffects p.effects
    Staged.modify fun p => { p with effects }
    Staged.report (events ++ [.passDisposed p.name])
    return true

end EffectPass

end ScreenFusion
