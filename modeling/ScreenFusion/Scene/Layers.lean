import ScreenFusion.Flags
import ScreenFusion.Json.Written

/-!
# ScreenFusion.Scene.Layers — render layers

There are 32 render layers, one bit each.  An object is shown to a draw if they have a layer in common.
-/

namespace ScreenFusion

/-- A set of render layers. -/
structure Layers where
  bits : UInt32
  deriving DecidableEq, Inhabited

namespace Layers

/-- Every layer. -/
def all : Layers := ⟨0xffffffff⟩

/-- The set of one layer; layers are counted modulo 32. -/
def layer (index : Nat) : Layers := ⟨1 <<< UInt32.ofNat (index % 32)⟩

/-- Whether two sets have a layer in common. -/
def meets (a b : Layers) : Bool := a.bits &&& b.bits != 0

/-- Whether all layers of `b` are in `a`. -/
def includes (a b : Layers) : Bool := a.bits &&& b.bits == b.bits

/-- The layers of either set. -/
def union (a b : Layers) : Layers := ⟨a.bits ||| b.bits⟩

/-- The layers of `a` that are not in `b`. -/
def without (a b : Layers) : Layers := ⟨a.bits &&& ~~~b.bits⟩

/-- The names of the layers as flags. -/
def flagNames : FlagNames := ⟨32, [("DEFAULT", 1), ("ALL", 0xffffffff)]⟩

/-- Reads a set from a JSON text. -/
def decode : Json.Decoder Layers := fun v => (flagNames.decode v).map fun n => ⟨UInt32.ofNat n⟩

/-- The set as it is written. -/
def written (a : Layers) : Json.Written := .string (flagNames.render a.bits.toNat)

end Layers

end ScreenFusion
