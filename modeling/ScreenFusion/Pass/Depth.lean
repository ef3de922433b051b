import ScreenFusion.Pass.Basic
import ScreenFusion.Resolution

/-!
# ScreenFusion.Pass.Depth — drawing a scene's depth

A depth pass owns a buffer and draws the depth of a scene into it.  The buffer's size follows a resolution, whose base is
the size of the pipeline.
-/

namespace ScreenFusion

/-- A pass that draws depth into a buffer of its own. -/
structure DepthPass where
  settings : PassSettings
  scene : Nat
  layers : Layers
  resolution : Resolution
  /-- The number of the pass's watcher of the resolution. -/
  watcher : Nat
  target : Option Nat
  /-- Whether the buffer holds what was last drawn. -/
  rendered : Bool
  disposed : Bool
  deriving DecidableEq

namespace DepthPass

/-- A pass without a buffer that draws all layers of a scene. -/
def create (scene : Nat) : DepthPass :=
  let (watcher, resolution) := (Resolution.ofScale (.ofFloat 1)).subscribe
  ⟨.inPlace, scene, .all, resolution, watcher, none, false, false⟩

instance : Inhabited DepthPass := ⟨create 0⟩

/-- The name of every depth pass. -/
def name : String := "DepthPass"

/-- The size of the buffer. -/
def size (p : DepthPass) : Nat × Nat :=
  let (w, h) := p.resolution.size
  (w.toNat, h.toNat)

/-- The pass with another base size, and whether its watcher noticed a change. -/
def rebased (p : DepthPass) (width height : Nat) : Bool × DepthPass :=
  let (_, resolution) := p.resolution.setBase (UInt32.ofNat width) (UInt32.ofNat height)
  let (changed, resolution) := resolution.takeChanged p.watcher
  (changed.getD false, { p with resolution })

/-- Makes the buffer, once, at the size of the output. -/
def configure : Act (Staged DepthPass) Unit := do
  let p ← Staged.get
  if p.disposed then Act.fail (.resource (.disposedPass name))
  else if p.target.isSome then return ()
  else
    let (width, height) := (← Staged.device).outputSize
    let (_, p) := p.rebased width height
    Staged.modify fun _ => p
    let (width, height) := p.size
    let target ← Staged.onHost (Host.createTarget ⟨name ++ ".depth", width, height, .full, false, true⟩)
    Staged.modify fun p => { p with target := some target }
    Staged.report [.depthAllocated name width height]

/-- Draws the depth. -/
def render : Act (Staged DepthPass) Unit := do
  Staged.modify fun p => { p with rendered := false }
  let p ← Staged.get
  match p.target with
  | none => Act.fail (.resource (.noDepthBuffer name))
  | some target =>
    Staged.onHost (Host.clear (some target) none (some 1))
    Staged.onHost (Host.renderScene ⟨p.scene, p.layers, .depth, some target, none⟩)
    Staged.modify fun p => { p with rendered := true }

/-- Follows another size; a buffer of another size than wanted is resized, also if that failed before. -/
def resize (width height : Nat) : Act (Staged DepthPass) Unit := do
  let (changed, p) := (← Staged.get).rebased width height
  Staged.modify fun _ => { p with rendered := p.rendered && !changed }
  match p.target with
  | none => return ()
  | some target =>
    if (← Staged.device).targetSize? target = some p.size then return ()
    else
      Staged.modify fun p => { p with rendered := false }
      Staged.onHost (Host.resizeTarget target p.size.1 p.size.2)
      Staged.report [.depthResized name p.size.1 p.size.2]

/-- Releases the buffer and stops following: whether the pass was live. -/
def dispose : Act (Staged DepthPass) Bool := do
  let p ← Staged.get
  if p.disposed then return false
  else
    Staged.modify fun p => { p with disposed := true, target := none, rendered := false }
    match p.target with
    | some target => let _ ← Staged.release (Host.releaseTarget target)
    | none => pure ()
    Staged.modify fun p => { p with resolution := p.resolution.unsubscribe p.watcher }
    return true

/-- The buffer, if it holds what was last drawn. -/
def output (p : DepthPass) : Option Nat := if p.rendered then p.target else none

end DepthPass

end ScreenFusion
