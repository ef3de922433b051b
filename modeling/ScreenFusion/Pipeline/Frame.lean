import ScreenFusion.Pipeline.Basic

/-!
# ScreenFusion.Pipeline.Frame — running a frame

A frame first makes every enabled pass ready and starts only if that succeeds.  Then enabled passes run in order.  The
first enabled depth pass runs if a pass needs depth, and those after it get its buffer.  A pass that fills the write
buffer makes the two buffers change places, unless it is terminal: the last pass that presents, and any pass set to draw to
the screen, draw there.
-/

namespace ScreenFusion

/-- The buffers at a point of a frame. -/
structure FrameState where
  read : Nat
  write : Nat
  depth : Option Nat
  /-- Whether a depth pass has run. -/
  depthRendered : Bool
  deriving DecidableEq, Inhabited

namespace Pipeline

/-- Whether a pass takes part in the frame and can present. -/
def isPresenter (e : PipelineEntry) : Bool := e.pass.isEnabled && e.pass.presents

/-- Whether a pass takes part in the frame and reads depth. -/
def needsDepth (e : PipelineEntry) : Bool := e.pass.isEnabled && e.pass.attributes.readsDepth

/-- Makes enabled passes ready in order, up to the first that fails. -/
def prepareEntries : List PipelineEntry → Host → Except Error Unit × List PipelineEntry × Host
  | [], h => (.ok (), [], h)
  | e :: es, h =>
    if e.pass.isEnabled then
      let (outcome, s) := Pass.prepare ⟨e.pass, h⟩
      let e := { e with pass := s.stage }
      match outcome with
      | .ok () =>
        let (outcome, es, h) := prepareEntries es s.host
        (outcome, e :: es, h)
      | .error err => (.error err, e :: es, s.host)
    else
      let (outcome, es, h) := prepareEntries es h
      (outcome, e :: es, h)

/-- Runs a depth pass of the frame, unless no depth is needed or another one has run. -/
def runDepth (deltaTime : Binary32) (depthNeeded : Bool) (f : FrameState) : Act (Staged Pass) FrameState := do
  let name := (← Staged.get).name
  if !depthNeeded || f.depthRendered then
    Staged.report [.depthPassSkipped name]
    return f
  else
    Pass.render ⟨f.read, some f.write, none⟩ deltaTime
    let depth := (← Staged.get).depthOutput
    Staged.report [.depthRendered name]
    return { f with depth, depthRendered := true }

/-- Runs a colour pass of the frame; `last` if no pass after it presents. -/
def runColor (deltaTime : Binary32) (last : Bool) (f : FrameState) : Act (Staged Pass) FrameState := do
  let p ← Staged.get
  if f.depth.isNone && p.attributes.readsDepth then Staged.report [.depthMissing p.name]
  let terminal := p.settings.toScreen || last
  Pass.render ⟨f.read, if terminal then none else some f.write, f.depth⟩ deltaTime
  Staged.report [.passRendered p.name terminal]
  if p.settings.needsSwap && !terminal then
    Staged.report [.buffersSwapped]
    return { f with read := f.write, write := f.read }
  else return f

/-- Runs a pass of the frame. -/
def runPass (deltaTime : Binary32) (depthNeeded last : Bool) (f : FrameState) : Act (Staged Pass) FrameState := do
  let p ← Staged.get
  if !p.isEnabled then
    Staged.report [.disabledPassSkipped p.name]
    return f
  else if p.isDepthProducer then runDepth deltaTime depthNeeded f
  else runColor deltaTime last f

/-- Runs passes in order, up to the first that fails. -/
def runEntries (deltaTime : Binary32) (depthNeeded : Bool) :
    List PipelineEntry → FrameState → Host → Except Error FrameState × List PipelineEntry × Host
  | [], f, h => (.ok f, [], h)
  | e :: es, f, h =>
    let last := !es.any isPresenter
    let (outcome, s) := runPass deltaTime depthNeeded last f ⟨e.pass, h⟩
    let e := { e with pass := s.stage }
    match outcome with
    | .ok f =>
      let (outcome, es, h) := runEntries deltaTime depthNeeded es f s.host
      (outcome, e :: es, h)
    | .error err => (.error err, e :: es, s.host)

/-- An act on the passes of the pipeline in order. -/
def onEntries {α : Type} (x : List PipelineEntry → Host → Except Error α × List PipelineEntry × Host) :
    Act (Staged Pipeline) α := fun s =>
  let (outcome, entries, host) := x s.stage.entries s.host
  (outcome, ⟨{ s.stage with entries }, host⟩)

/-- Runs a frame. -/
def render (deltaTime : Binary32) : Act (Staged Pipeline) Unit := do
  let (read, write) ← liveBuffers
  onEntries prepareEntries
  Staged.modify fun p => { p with elapsed := p.elapsed + deltaTime }
  let depthNeeded := (← Staged.get).entries.any needsDepth
  let f ← onEntries fun entries h => runEntries deltaTime depthNeeded entries ⟨read, write, none, false⟩ h
  Staged.modify fun p => { p with buffers := some (f.read, f.write) }

end Pipeline

end ScreenFusion
