import ScreenFusion.Pass.Basic

/-!
# ScreenFusion.Pass.Clear — filling the read buffer

A clear pass fills the read buffer, or the screen if it is terminal, with a colour and with the greatest depth.
-/

namespace ScreenFusion

/-- A pass that fills the read buffer. -/
structure ClearPass where
  settings : PassSettings
  disposed : Bool
  color : Option (Rgba Float32)
  depth : Bool
  deriving DecidableEq

namespace ClearPass

/-- A pass with a colour and with or without depth. -/
def create (color : Option (Rgba Float32)) (depth : Bool) : ClearPass := ⟨.inPlace, false, color, depth⟩

instance : Inhabited ClearPass := ⟨create (some .transparent) true⟩

/-- The name of every clear pass. -/
def name : String := "ClearPass"

/-- Fills the buffer; a pass with nothing to fill gives no command. -/
def render (io : PassIo) : Act (Staged ClearPass) Unit := do
  let p ← Staged.get
  if p.color.isNone && !p.depth then return ()
  else Staged.onHost (Host.clear io.inPlaceTarget p.color (if p.depth then some 1 else none))

/-- Disposes of the pass: whether it was live. -/
def dispose : Act (Staged ClearPass) Bool := do
  let p ← Staged.get
  Staged.modify fun p => { p with disposed := true }
  return !p.disposed

end ClearPass

end ScreenFusion
