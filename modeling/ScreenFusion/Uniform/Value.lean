import ScreenFusion.Color

/-!
# ScreenFusion.Uniform.Value — values of uniforms

A uniform value is a truth value, an integer, or one to four floats, kept as stored patterns.  In a program it stands in
a slot of four words; `access` is the shader expression that narrows the slot back to the value.
-/

namespace ScreenFusion

/-- A value of a uniform. -/
inductive UniformValue where
  | bool (b : Bool)
  | float (x : Binary32)
  | vec2 (x y : Binary32)
  | vec3 (x y z : Binary32)
  | vec4 (x y z w : Binary32)
  | int (n : Int32)
  | uint (n : UInt32)
  deriving DecidableEq, Inhabited

namespace UniformValue

/-- The shader type of the value. -/
def kindName : UniformValue → String
  | bool _ => "bool"
  | float _ => "f32"
  | vec2 .. => "vec2f"
  | vec3 .. => "vec3f"
  | vec4 .. => "vec4f"
  | int _ => "i32"
  | uint _ => "u32"

/-- Whether two values have the same shader type, so that one can stand in the other's slot. -/
def sameKind (v w : UniformValue) : Bool := v.kindName == w.kindName

/-- The shader expression that reads the value out of a member of the uniform block. -/
def access (member : String) : UniformValue → String
  | float _ | int _ | uint _ => member ++ ".x"
  | bool _ => "(" ++ member ++ ".x != 0u)"
  | vec2 .. => member ++ ".xy"
  | vec3 .. => member ++ ".xyz"
  | vec4 .. => member

/-- The first component as a float. -/
def asFloat : UniformValue → Binary32
  | bool b => .ofFloat (if b then 1 else 0)
  | float x | vec2 x _ | vec3 x _ _ | vec4 x _ _ _ => x
  | int n => .ofFloat n.toFloat32
  | uint n => .ofFloat n.toFloat32

/-- The components as four floats, the missing ones zero. -/
def asVec4 : UniformValue → Rgba Binary32
  | vec2 x y => ⟨x, y, .zero, .zero⟩
  | vec3 x y z => ⟨x, y, z, .zero⟩
  | vec4 x y z w => ⟨x, y, z, w⟩
  | v => ⟨v.asFloat, .zero, .zero, .zero⟩

/-- Whether the value is true, or its first component is not zero. -/
def asBool : UniformValue → Bool
  | bool b => b
  | v => v.asFloat.magnitude != 0

/-- Four numbers as a value. -/
def ofFloats (c : Rgba Float32) : UniformValue :=
  .vec4 (.ofFloat c.r) (.ofFloat c.g) (.ofFloat c.b) (.ofFloat c.a)

@[simp] theorem sameKind_self (v : UniformValue) : v.sameKind v := by simp [sameKind]

end UniformValue

end ScreenFusion
