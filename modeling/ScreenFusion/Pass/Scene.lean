import ScreenFusion.Pass.Basic

/-!
# ScreenFusion.Pass.Scene — drawing a scene

A scene pass draws a scene into the read buffer, or to the screen if it is terminal.  It draws in place, so what follows
reads what it drew.
-/

namespace ScreenFusion

/-- A pass that draws a scene. -/
structure ScenePass where
  settings : PassSettings
  disposed : Bool
  scene : Nat
  layers : Layers
  /-- Written where the scene shows nothing; without one, what was there stays. -/
  background : Option (Rgba Float32)
  deriving DecidableEq, Inhabited

namespace ScenePass

/-- A pass that draws all layers of a scene over transparent texels. -/
def create (scene : Nat) : ScenePass := ⟨.inPlace, false, scene, .all, some .transparent⟩

/-- The name of every scene pass. -/
def name : String := "RenderPass"

/-- Draws the scene. -/
def render (io : PassIo) : Act (Staged ScenePass) Unit := do
  let p ← Staged.get
  Staged.onHost (Host.renderScene ⟨p.scene, p.layers, .color, io.inPlaceTarget, p.background⟩)

/-- Disposes of the pass: whether it was live. -/
def dispose : Act (Staged ScenePass) Bool := do
  let p ← Staged.get
  Staged.modify fun p => { p with disposed := true }
  return !p.disposed

end ScenePass

end ScreenFusion
