import ScreenFusion.Pass
import ScreenFusion.Pipeline.Options

/-!
# ScreenFusion.Pipeline.Basic — an ordered list of passes over two buffers

A pipeline owns a read buffer, a write buffer and passes in order.  Passes are known by numbers that are not used again.
-/

namespace ScreenFusion

/-- A pass in a pipeline. -/
structure PipelineEntry where
  id : Nat
  pass : Pass
  deriving Inhabited

/-- An ordered list of passes over two buffers. -/
structure Pipeline where
  options : PipelineOptions
  entries : List PipelineEntry
  /-- The read and the write buffer, until the pipeline is disposed of. -/
  buffers : Option (Nat × Nat)
  size : Nat × Nat
  /-- The time of all frames together. -/
  elapsed : Binary32
  nextPass : Nat
  deriving Inhabited

namespace Pipeline

/-- Whether the pipeline has been disposed of. -/
def isDisposed (p : Pipeline) : Bool := p.buffers.isNone

/-- The pass with a number. -/
def pass? (p : Pipeline) (id : Nat) : Option Pass :=
  (p.entries.find? fun e => e.id == id).map PipelineEntry.pass

/-- Changes the pass with a number. -/
def modifyPass (p : Pipeline) (id : Nat) (f : Pass → Pass) : Pipeline :=
  { p with entries := p.entries.map fun e => if e.id = id then { e with pass := f e.pass } else e }

/-- Enables or disables a pass: whether there is one with this number. -/
def setEnabled (p : Pipeline) (id : Nat) (enabled : Bool) : Bool × Pipeline :=
  ((p.pass? id).isSome, p.modifyPass id (·.setEnabled enabled))

/-- What passes are set up for. -/
def setup (p : Pipeline) : Setup := ⟨p.options.alpha, p.options.precision⟩

/-! ## Setting up -/

/-- The best supported precision that may stand in for the requested one. -/
def choosePrecision (requested : Precision) : Act Host Precision := do
  let h ← Act.get
  match requested.fallbacks.find? h.device.supports with
  | none => Act.fail (.resource (.noPrecision requested))
  | some chosen =>
    if chosen ≠ requested then Act.modify (·.report [.precisionLowered requested chosen])
    return chosen

/-- Makes the two buffers, or neither. -/
def createBuffers (options : PipelineOptions) (width height : Nat) : Act Host (Nat × Nat) := do
  let spec (label : String) : TargetSpec :=
    ⟨label, width, height, options.precision, options.alpha, options.depthBuffer⟩
  let read ← Host.createTarget (spec "pipeline.read")
  match ← Act.attempt (Host.createTarget (spec "pipeline.write")) with
  | .ok write => return (read, write)
  | .error e =>
    Act.modify fun h => (h.releaseTarget read).2
    Act.fail e

/-- A pipeline without passes at the size of the screen. -/
def create (options : PipelineOptions) : Act Host Pipeline := do
  let precision ← choosePrecision options.precision
  let options := { options with precision }
  let size := (← Act.get).device.outputSize
  let buffers ← createBuffers options size.1 size.2
  Act.modify (·.report [.pipelineCreated size.1 size.2 precision options.alpha])
  return {
    options
    entries := []
    buffers := some buffers
    size
    elapsed := .zero
    nextPass := 1 }

/-- The two buffers, as a part of an operation. -/
def liveBuffers : Act (Staged Pipeline) (Nat × Nat) := do
  match (← Staged.get).buffers with
  | some buffers => return buffers
  | none => Act.fail (.resource .disposedPipeline)

/-- An act of a pass with the host of the pipeline: its outcome and the pass after it. -/
def runOn {α : Type} (pass : Pass) (x : Act (Staged Pass) α) : Act (Staged Pipeline) (Except Error α × Pass) := fun s =>
  let (r, t) := x ⟨pass, s.host⟩
  (.ok (r, t.stage), { s with host := t.host })

/-! ## Passes -/

/-- Adds a pass at an index, or at the end: its number.  The pass is set up and sized first; one for which that fails is
disposed of. -/
def addPass (pass : Pass) (index : Option Nat) : Act (Staged Pipeline) Nat := do
  let _ ← liveBuffers
  let p ← Staged.get
  let (outcome, pass) ← runOn pass do
    Pass.configure p.setup
    Pass.resize p.size.1 p.size.2
  match outcome with
  | .error e =>
    let _ ← runOn pass Pass.dispose
    Act.fail e
  | .ok () =>
    let id := p.nextPass
    let index := min (index.getD p.entries.length) p.entries.length
    Staged.report [.passAdded pass.name index]
    Staged.modify fun p => { p with entries := p.entries.insertIdx index ⟨id, pass⟩, nextPass := id + 1 }
    return id

/-- Removes a pass and disposes of it. -/
def removePass (id : Nat) : Act (Staged Pipeline) (Option Pass) := do
  let p ← Staged.get
  match p.pass? id with
  | none => return none
  | some pass =>
    Staged.modify fun p => { p with entries := p.entries.eraseP fun e => e.id == id }
    let (outcome, pass) ← runOn pass Pass.dispose
    match outcome with
    | .ok true => pure ()
    | _ => Staged.report [.passAlreadyDisposed pass.name]
    Staged.report [.passRemoved pass.name]
    return some pass

/-- Disposes of passes in order. -/
def disposeEntries : List PipelineEntry → Host → Host
  | [], h => h
  | e :: es, h => disposeEntries es (Pass.dispose ⟨e.pass, h⟩).2.host

/-- Disposes of all passes and releases the buffers: whether the pipeline was live. -/
def dispose : Act (Staged Pipeline) Bool := do
  let p ← Staged.get
  match p.buffers with
  | none => return false
  | some (read, write) =>
    Staged.modify fun p => { p with buffers := none, entries := [] }
    Staged.onHost (Act.modify (disposeEntries p.entries))
    let _ ← Staged.release (Host.releaseTarget read)
    let _ ← Staged.release (Host.releaseTarget write)
    Staged.report [.pipelineDisposed]
    return true

/-! ## Sizes -/

/-- Tells passes in order a size: the passes after it and the first error.  Every pass is told. -/
def resizeEntries (width height : Nat) :
    List PipelineEntry → Host → List PipelineEntry × Option Error × Host
  | [], h => ([], none, h)
  | e :: es, h =>
    let (outcome, s) := Pass.resize width height ⟨e.pass, h⟩
    let e := { e with pass := s.stage }
    match outcome with
    | .ok () =>
      let (es, error, h) := resizeEntries width height es s.host
      (e :: es, error, h)
    | .error first =>
      let h := s.host.report [.resizeFailed s.stage.name width height first]
      let (es, _, h) := resizeEntries width height es h
      (e :: es, some first, h)

/-- Resizes the screen, the buffers and then every pass.  A pass that fails keeps its buffers and is told the size again
the next time; the first failure is the outcome. -/
def resize (width height : Nat) : Act (Staged Pipeline) Unit := do
  let (read, write) ← liveBuffers
  if width = 0 ∨ height = 0 then Act.fail (.resource (.pipelineSize width height))
  else
    Staged.onHost (Host.setOutputSize width height)
    Staged.onHost (Host.resizeTarget read width height)
    Staged.onHost (Host.resizeTarget write width height)
    let error ← fun s =>
      let (entries, error, host) := resizeEntries width height s.stage.entries s.host
      (.ok error, ⟨{ s.stage with size := (width, height), entries }, host⟩)
    Staged.report [.pipelineResized width height]
    match error with
    | some e => Act.fail e
    | none => return ()

end Pipeline

end ScreenFusion
