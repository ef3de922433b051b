import ScreenFusion.Effect.Basic
import ScreenFusion.Uniform.Slot

/-!
# ScreenFusion.Fusion.Program — programs as a device gets them

A program is shader text with the layout of its uniform block, and a list of stages for a device that runs kernels.
-/

namespace ScreenFusion

/-- The slots of one unit of a program. -/
structure UnitSlots where
  /-- The slot of the blend mode; without one the unit replaces the running colour. -/
  blend : Option Nat
  /-- The slots of the uniforms by the names that the unit knows them by. -/
  uniforms : List (String × Nat)
  deriving DecidableEq, Inhabited

/-- One colour transform of a program. -/
structure ProgramStage where
  label : String
  kernel : Option Kernel
  slots : UnitSlots
  readsDepth : Bool
  deriving Inhabited

/-- A program as a device gets it. -/
structure ProgramSource where
  label : String
  text : String
  /-- The members of the uniform block in order, with their kinds. -/
  slots : List (String × SlotKind)
  stages : List ProgramStage
  readsDepth : Bool
  /-- Whether the output's alpha is one whatever the stages compute. -/
  forcesAlpha : Bool
  deriving Inhabited

/-- The slots of the units in order. -/
def ProgramSource.layout (p : ProgramSource) : List UnitSlots := p.stages.map ProgramStage.slots

/-- The kinds of the slots in order. -/
def ProgramSource.kinds (p : ProgramSource) : List SlotKind := p.slots.map Prod.snd

end ScreenFusion
