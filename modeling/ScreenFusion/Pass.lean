import ScreenFusion.Pass.Clear
import ScreenFusion.Pass.Depth
import ScreenFusion.Pass.Effect
import ScreenFusion.Pass.Material
import ScreenFusion.Pass.Scene

/-!
# ScreenFusion.Pass — passes of any kind

A pipeline holds passes of five kinds.  Each can be set up, made ready, run, resized and disposed of; the kinds that have
nothing to do in one of these do nothing.
-/

namespace ScreenFusion

/-- A pass of any kind. -/
inductive Pass where
  | clear (p : ClearPass)
  | scene (p : ScenePass)
  | depth (p : DepthPass)
  | material (p : MaterialPass)
  | effect (p : EffectPass)
  deriving Inhabited

namespace Pass

/-- The name of the pass. -/
def name : Pass → String
  | clear _ => ClearPass.name
  | scene _ => ScenePass.name
  | depth _ => DepthPass.name
  | material p => p.name
  | effect p => p.name

/-- The settings of the pass. -/
def settings : Pass → PassSettings
  | clear p => p.settings
  | scene p => p.settings
  | depth p => p.settings
  | material p => p.settings
  | effect p => p.settings

/-- The pass with other settings. -/
def withSettings (settings : PassSettings) : Pass → Pass
  | clear p => clear { p with settings }
  | scene p => scene { p with settings }
  | depth p => depth { p with settings }
  | material p => material { p with settings }
  | effect p => effect { p with settings }

/-- Whether the pass takes part in frames. -/
def isEnabled (p : Pass) : Bool := p.settings.enabled

/-- The pass, enabled or not. -/
def setEnabled (p : Pass) (enabled : Bool) : Pass := p.withSettings { p.settings with enabled }

/-- Whether the pass fills the frame's depth. -/
def isDepthProducer : Pass → Bool
  | depth _ => true
  | _ => false

/-- Whether the pass can be the one that draws to the screen at the end. -/
def presents (p : Pass) : Bool := !p.isDepthProducer

/-- What the pass needs of shared buffers. -/
def attributes : Pass → Attributes
  | material p => p.material.attributes
  | effect p => p.attributes
  | _ => .none

/-- The depth buffer that the pass filled when it last ran. -/
def depthOutput : Pass → Option Nat
  | depth p => p.output
  | _ => none

/-- The members of an effect pass; other passes have none. -/
def effects : Pass → List Effect
  | effect p => p.effects
  | _ => []

/-- Changes the member with a number. -/
def modifyEffect (id : Nat) (f : Effect → Effect) : Pass → Pass
  | effect p => effect (p.modifyEffect id f)
  | p => p

/-- Replaces the planes of the camera, which the passes that run programs have. -/
def setCamera (camera : CameraPlanes) : Pass → Pass
  | material p => material { p with camera }
  | effect p => effect { p with camera }
  | p => p

/-- An act of one kind of pass as an act of any pass. -/
def within {P α : Type} (wrap : P → Pass) (p : P) (x : Act (Staged P) α) : Act (Staged Pass) α := fun s =>
  let (r, t) := x ⟨p, s.host⟩
  (r, ⟨wrap t.stage, t.host⟩)

/-- Sets the pass up for a pipeline. -/
def configure (setup : Setup) : Act (Staged Pass) Unit := do
  match ← Staged.get with
  | clear _ | scene _ => return ()
  | depth p => within depth p DepthPass.configure
  | material p => within material p (MaterialPass.configure setup)
  | effect p => within effect p (EffectPass.configure setup)

/-- Makes the pass ready between frames. -/
def prepare : Act (Staged Pass) Unit := do
  match ← Staged.get with
  | clear _ | scene _ | depth _ => return ()
  | material p => within material p MaterialPass.prepare
  | effect p => within effect p (do let _ ← EffectPass.commit)

/-- Runs the pass. -/
def render (io : PassIo) (deltaTime : Binary32) : Act (Staged Pass) Unit := do
  match ← Staged.get with
  | clear p => within clear p (ClearPass.render io)
  | scene p => within scene p (ScenePass.render io)
  | depth p => within depth p DepthPass.render
  | material p => within material p (MaterialPass.render io deltaTime)
  | effect p => within effect p (EffectPass.render io deltaTime)

/-- Tells the pass the size of the pipeline. -/
def resize (width height : Nat) : Act (Staged Pass) Unit := do
  match ← Staged.get with
  | depth p => within depth p (DepthPass.resize width height)
  | _ => return ()

/-- Disposes of the pass: whether it was live. -/
def dispose : Act (Staged Pass) Bool := do
  match ← Staged.get with
  | clear p => within clear p ClearPass.dispose
  | scene p => within scene p ScenePass.dispose
  | depth p => within depth p DepthPass.dispose
  | material p => within material p MaterialPass.dispose
  | effect p => within effect p EffectPass.dispose

end Pass

end ScreenFusion
