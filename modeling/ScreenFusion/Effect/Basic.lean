import ScreenFusion.Effect.Descriptor
import ScreenFusion.Event
import ScreenFusion.Json.Text
import ScreenFusion.Kernel
import ScreenFusion.OrderedMap

/-!
# ScreenFusion.Effect.Basic — effects

An effect is a shader fragment with the data it needs.  Changes of uniform values and of the blend mode are cheap: they
travel in the uniform block.  Changes of the program's text or layout raise the effect's version; whoever compiles it
acknowledges the version.

* `setUniform_version`: a value of the same kind under a known name does not raise the version.
-/

namespace ScreenFusion

/-- A shader fragment with the data it needs. -/
structure Effect where
  /-- Effects are told apart by this number. -/
  id : Nat
  name : String
  /-- Declares `main_image`, which takes the running colour, the place and, with the depth attribute, the depth. -/
  shader : String
  blend : BlendMode
  attributes : Attributes
  uniforms : OrderedMap UniformValue
  defines : OrderedMap String
  kernel : Option Kernel
  version : Nat
  acknowledged : Nat
  disposed : Bool
  deriving Inhabited

namespace Effect

/-- An effect with a shader and nothing else. -/
def create (id : Nat) (name shader : String) : Effect where
  id
  name
  shader
  blend := default
  attributes := .none
  uniforms := .empty
  defines := .empty
  kernel := none
  version := 0
  acknowledged := 0
  disposed := false

/-- The uniforms of a descriptor in order; the first name that comes twice is an error. -/
def uniformsOf (context : String) :
    List UniformDescriptor → OrderedMap UniformValue → Except Error (OrderedMap UniformValue)
  | [], m => .ok m
  | u :: us, m =>
    if m.contains u.name then .error (.configuration context (.repeatedUniform u.name))
    else uniformsOf context us (m.insert u.name u.value)

/-- The effect that a descriptor describes. -/
def ofDescriptor (id : Nat) (d : EffectDescriptor) : Except Error Effect := do
  let attributes ← Attributes.parseAll d.attributes
  let uniforms ← uniformsOf s!"effect {d.name}" d.uniforms .empty
  let defines := OrderedMap.empty.insertMany (d.defines.map fun x => (x.name, x.value))
  return { create id d.name d.shader with blend := d.blend, attributes, uniforms, defines }

/-- The effect that a JSON text describes. -/
def ofJson (id : Nat) (text : String) : Except Error Effect :=
  match Json.decodeText EffectDescriptor.fields.decode text with
  | .ok d => ofDescriptor id d
  | .error fault => .error (.configuration "effect descriptor" (.text fault))

/-! ## Changes -/

/-- Raises the version. -/
def markChanged (e : Effect) : Effect := { e with version := e.version + 1 }

/-- Whether the effect has changed since it was last acknowledged. -/
def isChanged (e : Effect) : Bool := e.version != e.acknowledged

/-- Acknowledges the version. -/
def acknowledge (e : Effect) : Effect := { e with acknowledged := e.version }

/-- Gives a uniform a value; a new name or another kind changes the program. -/
def setUniform (e : Effect) (name : String) (value : UniformValue) : Effect :=
  let (old, uniforms) := e.uniforms.getThenInsert name value
  let e := { e with uniforms }
  match old with
  | some v => if v.sameKind value then e else e.markChanged
  | none => e.markChanged

/-- Gives a define a value; the same value changes nothing. -/
def setDefine (e : Effect) (name value : String) : Effect :=
  if e.defines.get? name = some value then e
  else { e with defines := e.defines.insert name value }.markChanged

/-- Takes a define away. -/
def removeDefine (e : Effect) (name : String) : Option String × Effect :=
  let (old, defines) := e.defines.getThenErase name
  let e := { e with defines }
  (old, if old.isSome then e.markChanged else e)

/-- Replaces the attributes; the same attributes change nothing. -/
def setAttributes (e : Effect) (attributes : Attributes) : Effect :=
  if e.attributes = attributes then e else { e with attributes }.markChanged

/-- Replaces the shader. -/
def setShader (e : Effect) (shader : String) : Effect := { e with shader }.markChanged

/-- Replaces the kernel. -/
def setKernel (e : Effect) (kernel : Kernel) : Effect := { e with kernel := some kernel }.markChanged

/-- Replaces the blend function. -/
def setBlend (e : Effect) (f : BlendFunction) : Effect := { e with blend := { e.blend with function := f } }

/-- Replaces the opacity. -/
def setOpacity (e : Effect) (opacity : Float32) : Effect := { e with blend := e.blend.withOpacity opacity }

/-- Lets go of the kernel, once: whether this was the first time, and what is reported. -/
def dispose (e : Effect) : Bool × List Event × Effect :=
  if e.disposed then (false, [], e)
  else (true, [.effectDisposed e.name], { e with disposed := true, kernel := none }.markChanged)

theorem setUniform_version {e : Effect} {name : String} {v value : UniformValue}
    (h : e.uniforms.get? name = some v) (hk : v.sameKind value) :
    (e.setUniform name value).version = e.version := by
  simp [setUniform, OrderedMap.getThenInsert, h, hk]

theorem isChanged_acknowledge (e : Effect) : e.acknowledge.isChanged = false := by
  simp [isChanged, acknowledge]

end Effect

end ScreenFusion
