import ScreenFusion.Blend.Mode
import ScreenFusion.Effect.Attributes

/-!
# ScreenFusion.Effect.Descriptor — effects as JSON

A descriptor holds all of an effect but its kernel.  Every field of an effect has a default; a uniform needs a name and a
value, a define a name.
-/

namespace ScreenFusion

/-- Reads a uniform value: a truth value, a number, or two to four numbers. -/
def UniformValue.decode : Json.Decoder UniformValue
  | .bool b => .ok (.bool b)
  | .array items =>
    match items.mapM Json.Decoder.binary32? with
    | some [x, y] => .ok (.vec2 x y)
    | some [x, y, z] => .ok (.vec3 x y z)
    | some [x, y, z, w] => .ok (.vec4 x y z w)
    | _ => .error (.noVariant "UniformValue")
  | v =>
    match Json.Decoder.binary32? v with
    | some x => .ok (.float x)
    | none => .error (.noVariant "UniformValue")

/-- A uniform value as it is written. -/
def UniformValue.written : UniformValue → Json.Written
  | .bool b => .bool b
  | .float x => .float x
  | .vec2 x y => .list .float [x, y]
  | .vec3 x y z => .list .float [x, y, z]
  | .vec4 x y z w => .list .float [x, y, z, w]
  | .int n => .integer n.toInt
  | .uint n => .integer n.toNat

/-- A named uniform value. -/
structure UniformDescriptor where
  name : String
  value : UniformValue
  deriving DecidableEq, Inhabited

namespace UniformDescriptor

/-- The fields of a named uniform value. -/
def fields : Json.Record UniformDescriptor where
  title := "UniformDescriptor"
  fields := [
    .mandatory "name" Json.Decoder.string fun s d => { d with name := s },
    .mandatory "value" UniformValue.decode fun v d => { d with value := v }]
  blank := default

/-- The uniform as it is written. -/
def written (d : UniformDescriptor) : Json.Written :=
  .object [("name", .string d.name), ("value", d.value.written)]

end UniformDescriptor

/-- A define; its value is blank for a mere flag. -/
structure DefineDescriptor where
  name : String
  value : String
  deriving DecidableEq, Inhabited

namespace DefineDescriptor

/-- The fields of a define. -/
def fields : Json.Record DefineDescriptor where
  title := "DefineDescriptor"
  fields := [
    .mandatory "name" Json.Decoder.string fun s d => { d with name := s },
    .defaulted "value" Json.Decoder.string fun s d => { d with value := s }]
  blank := default

/-- The define as it is written. -/
def written (d : DefineDescriptor) : Json.Written :=
  .object [("name", .string d.name), ("value", .string d.value)]

end DefineDescriptor

/-- All of an effect but its kernel. -/
structure EffectDescriptor where
  name : String
  shader : String
  blend : BlendMode
  attributes : List String
  uniforms : List UniformDescriptor
  defines : List DefineDescriptor
  deriving Inhabited

namespace EffectDescriptor

/-- The fields of an effect. -/
def fields : Json.Record EffectDescriptor where
  title := "EffectDescriptor"
  fields := [
    .defaulted "name" Json.Decoder.string fun s d => { d with name := s },
    .defaulted "fragment_shader" Json.Decoder.string fun s d => { d with shader := s },
    .defaulted "blend" BlendMode.fields.decode fun m d => { d with blend := m },
    .defaulted "attributes" (Json.Decoder.list Json.Decoder.string) fun a d => { d with attributes := a },
    .defaulted "uniforms" (Json.Decoder.list UniformDescriptor.fields.decode) fun u d => { d with uniforms := u },
    .defaulted "defines" (Json.Decoder.list DefineDescriptor.fields.decode) fun x d => { d with defines := x }]
  blank := default

/-- The descriptor as it is written. -/
def written (d : EffectDescriptor) : Json.Written :=
  .object [("name", .string d.name), ("fragment_shader", .string d.shader), ("blend", d.blend.written),
    ("attributes", .list .string d.attributes), ("uniforms", .list UniformDescriptor.written d.uniforms),
    ("defines", .list DefineDescriptor.written d.defines)]

end EffectDescriptor

end ScreenFusion
