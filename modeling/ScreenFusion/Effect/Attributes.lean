import ScreenFusion.Error
import ScreenFusion.Flags
import ScreenFusion.Json.Written
import ScreenFusion.Text.Keyword

/-!
# ScreenFusion.Effect.Attributes — what an effect needs from its program

An effect may read the scene depth, and it may sample several texels of its input.  The second attribute is exclusive:
of the members of one program, at most one may have it.
-/

namespace ScreenFusion

/-- A set of attributes; bits without a meaning are kept. -/
structure Attributes where
  bits : UInt8
  deriving DecidableEq, Inhabited

namespace Attributes

/-- No attribute. -/
def none : Attributes := ⟨0⟩

/-- Reads the shared scene depth. -/
def depth : Attributes := ⟨1⟩

/-- Samples several neighbouring texels of the input. -/
def convolution : Attributes := ⟨2⟩

/-- The attributes of either set. -/
def union (a b : Attributes) : Attributes := ⟨a.bits ||| b.bits⟩

/-- Whether all attributes of `b` are in `a`. -/
def includes (a b : Attributes) : Bool := a.bits &&& b.bits == b.bits

/-- Whether the effect reads depth. -/
def readsDepth (a : Attributes) : Bool := a.includes depth

/-- The attributes that at most one member of a program may have, with their names. -/
def exclusive : List (String × Attributes) := [("CONVOLUTION", convolution)]

/-- The names of the attributes as flags. -/
def flagNames : FlagNames := ⟨8, [("DEPTH", 1), ("CONVOLUTION", 2)]⟩

/-- The attribute that a keyword names. -/
def parse (text : String) : Except Error Attributes :=
  match Text.keyword text with
  | "depth" => .ok depth
  | "convolution" | "multi-tap" => .ok convolution
  | other => .error (.configuration "effect attributes" (.unknownAttribute other))

/-- The attributes that any of some keywords name. -/
def parseAll : List String → Except Error Attributes
  | [] => .ok none
  | t :: ts => do
    let a ← parse t
    return a.union (← parseAll ts)

/-- Reads a set from a JSON text. -/
def decode : Json.Decoder Attributes := fun v => (flagNames.decode v).map fun n => ⟨UInt8.ofNat n⟩

/-- The set as it is written. -/
def written (a : Attributes) : Json.Written := .string (flagNames.render a.bits.toNat)

end Attributes

end ScreenFusion
