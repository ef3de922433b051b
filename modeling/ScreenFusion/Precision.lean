import ScreenFusion.Number.Half
import ScreenFusion.Number.Scalar

/-!
# ScreenFusion.Precision — storage formats of colour buffers

A colour buffer stores each channel in eight bits, as a 16-bit float or as a 32-bit float.  `quantize` is what
remains of a channel after it has been stored.
-/

namespace ScreenFusion

/-- How exactly a colour buffer stores its channels. -/
inductive Precision where
  /-- Eight bits, the steps of `0 … 1`. -/
  | low
  /-- A 16-bit float. -/
  | half
  /-- A 32-bit float. -/
  | full
  deriving DecidableEq, Inhabited

namespace Precision

/-- The name in options. -/
def name : Precision → String
  | low => "low"
  | half => "half"
  | full => "full"

/-- The name in messages. -/
def title : Precision → String
  | low => "Low"
  | half => "Half"
  | full => "Full"

/-- The define that fused programs see for this precision. -/
def define : Precision → String
  | low => "FRAMEBUFFER_PRECISION_LOW"
  | half => "FRAMEBUFFER_PRECISION_HALF"
  | full => "FRAMEBUFFER_PRECISION_FULL"

/-- The precisions by name. -/
def byName : List (String × Precision) := [low, half, full].map fun p => (p.name, p)

/-- What remains of a channel after it has been stored. -/
def quantize (p : Precision) (x : Float32) : Float32 :=
  match p with
  | low => roundFloat32 (Scalar.clampUnit x * 255) / 255
  | half => roundToHalf x
  | full => x

/-- A precision and the lesser ones that may stand in for it, best first. -/
def fallbacks : Precision → List Precision
  | full => [full, half, low]
  | half => [half, low]
  | low => [low]

@[simp] theorem quantize_full (x : Float32) : full.quantize x = x := rfl

theorem mem_fallbacks_self (p : Precision) : p ∈ p.fallbacks := by cases p <;> decide

end Precision

end ScreenFusion
