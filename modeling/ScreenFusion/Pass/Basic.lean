import ScreenFusion.Host

/-!
# ScreenFusion.Pass.Basic — what all passes share

A pass is a step of a frame.  It sees a read buffer, a write buffer and the frame's depth, keeps settings, and works on a
host.  A pass that acts is held together with its host in a `Staged`.
-/

namespace ScreenFusion

/-- The settings of a pass. -/
structure PassSettings where
  enabled : Bool
  /-- The pass fills the write buffer, so that read and write buffers change places after it. -/
  needsSwap : Bool
  /-- The pass draws to the screen wherever it stands. -/
  toScreen : Bool
  deriving DecidableEq, Inhabited

namespace PassSettings

/-- An enabled pass that fills the write buffer. -/
def swapping : PassSettings := ⟨true, true, false⟩

/-- An enabled pass that changes the read buffer. -/
def inPlace : PassSettings := ⟨true, false, false⟩

end PassSettings

/-- The buffers that a pass sees. -/
structure PassIo where
  input : Nat
  /-- The write buffer; without one the pass is terminal and draws to the screen. -/
  output : Option Nat
  /-- The depth of the frame so far. -/
  depth : Option Nat
  deriving DecidableEq, Inhabited

namespace PassIo

/-- Whether the pass draws to the screen. -/
def isTerminal (io : PassIo) : Bool := io.output.isNone

/-- Where a pass that changes the read buffer draws: the screen if it is terminal. -/
def inPlaceTarget (io : PassIo) : Option Nat := io.output.map fun _ => io.input

/-- The size of what a pass that fills the write buffer draws into. -/
def outputSize (io : PassIo) (d : Device) : Nat × Nat := (io.output.bind d.targetSize?).getD d.outputSize

end PassIo

/-- The precision and the alpha channel that passes are set up for. -/
structure Setup where
  alpha : Bool
  precision : Precision
  deriving DecidableEq, Inhabited

/-- Something that acts on a host. -/
structure Staged (P : Type) where
  stage : P
  host : Host

namespace Staged

variable {P α : Type}

/-- What acts. -/
def get : Act (Staged P) P := fun s => (.ok s.stage, s)

/-- Changes what acts. -/
def modify (f : P → P) : Act (Staged P) Unit := fun s => (.ok (), { s with stage := f s.stage })

/-- The device. -/
def device : Act (Staged P) Device := fun s => (.ok s.host.device, s)

/-- An act of the host. -/
def onHost (x : Act Host α) : Act (Staged P) α := fun s =>
  let (r, host) := x s.host
  (r, { s with host })

/-- A command of the host that cannot fail. -/
def release (x : Host → Bool × Host) : Act (Staged P) Bool := fun s =>
  let (found, host) := x s.host
  (.ok found, { s with host })

/-- Reports events. -/
def report (events : List Event) : Act (Staged P) Unit := fun s =>
  (.ok (), { s with host := s.host.report events })

@[simp] theorem get_apply (s : Staged P) : get s = (.ok s.stage, s) := rfl

@[simp] theorem modify_apply (f : P → P) (s : Staged P) :
    modify f s = (.ok (), { s with stage := f s.stage }) := rfl

@[simp] theorem device_apply (s : Staged P) : device s = (.ok s.host.device, s) := rfl

@[simp] theorem onHost_apply (x : Act Host α) (s : Staged P) :
    onHost x s = ((x s.host).1, { s with host := (x s.host).2 }) := rfl

@[simp] theorem release_apply (x : Host → Bool × Host) (s : Staged P) :
    release x s = (.ok (x s.host).1, { s with host := (x s.host).2 }) := rfl

@[simp] theorem report_apply (events : List Event) (s : Staged P) :
    report events s = (.ok (), { s with host := s.host.report events }) := rfl

end Staged

/-! ## Frame data -/

/-- The near and far planes of a camera. -/
structure CameraPlanes where
  near : Binary32
  far : Binary32
  deriving DecidableEq

instance : Inhabited CameraPlanes := ⟨⟨.ofFloat 0.3, .ofFloat 1000⟩⟩

/-- A length as a float, at least one. -/
def lengthFloat (n : Nat) : Float32 := (UInt64.ofNat (max n 1)).toFloat32

/-- The values of a program's slots before its units fill theirs: the frame's slots, and zeros. -/
def frameValues (slots : Nat) (time deltaTime : Binary32) (size : Nat × Nat) (camera : CameraPlanes) :
    List UniformValue :=
  let w := lengthFloat size.1
  let h := lengthFloat size.2
  [.vec4 time deltaTime .zero .zero, .ofFloats ⟨w, h, 1 / w, 1 / h⟩, .vec4 camera.near camera.far .zero .zero] ++
    List.replicate (slots - 3) (.vec4 .zero .zero .zero .zero)

/-- Puts the values of a unit's uniforms into its slots. -/
def fillUniforms (uniforms : OrderedMap UniformValue) (slots : List (String × Nat)) (values : List UniformValue) :
    List UniformValue :=
  slots.foldl (fun values s =>
    match uniforms.get? s.1 with
    | some v => values.set s.2 v
    | none => values) values

theorem length_frameValues (slots : Nat) (time deltaTime : Binary32) (size : Nat × Nat) (camera : CameraPlanes) :
    (frameValues slots time deltaTime size camera).length = max slots 3 := by
  simp only [frameValues, List.length_append, List.length_cons, List.length_nil, List.length_replicate]
  omega

end ScreenFusion
