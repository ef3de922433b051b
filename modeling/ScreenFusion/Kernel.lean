import ScreenFusion.Uniform.Value

/-!
# ScreenFusion.Kernel — colour functions that a software device runs

A kernel computes the colour of one texel from what a shader would see there.  Kernels are told apart by their serial
number and not by what they compute, since functions cannot be compared.
-/

namespace ScreenFusion

/-- A place in a buffer, `0 … 1` across and down. -/
structure Uv where
  u : Float32
  v : Float32
  deriving Inhabited

/-- What a kernel sees at one texel. -/
structure KernelInput where
  /-- The running colour: the input texel combined with every earlier stage. -/
  color : Rgba Float32
  uv : Uv
  /-- Scene depth, one where none is bound. -/
  depth : Float32
  time : Float32
  deltaTime : Float32
  /-- The size of a texel of the output. -/
  texel : Uv
  /-- The stage's uniforms by name. -/
  uniform? : String → Option UniformValue
  /-- The input buffer of the pass, not the running colour. -/
  sample : Uv → Rgba Float32

namespace KernelInput

/-- A uniform as a float; zero if it is missing. -/
def float (i : KernelInput) (name : String) : Float32 :=
  ((i.uniform? name).map fun v => v.asFloat.toFloat).getD 0

/-- A uniform as four floats; zeros if it is missing. -/
def vec4 (i : KernelInput) (name : String) : Rgba Float32 :=
  ((i.uniform? name).map fun v => v.asVec4.map Binary32.toFloat).getD .transparent

/-- A uniform as a truth value; false if it is missing. -/
def flag (i : KernelInput) (name : String) : Bool :=
  ((i.uniform? name).map UniformValue.asBool).getD false

end KernelInput

/-- A colour function with an identity. -/
structure Kernel where
  serial : Nat
  shade : KernelInput → Rgba Float32

instance : Inhabited Kernel := ⟨0, fun i => i.color⟩

/-- Whether the kernel's result does not depend on the input buffer. -/
def Kernel.Local (k : Kernel) : Prop :=
  ∀ (i : KernelInput) (sample : Uv → Rgba Float32), k.shade { i with sample } = k.shade i

end ScreenFusion
