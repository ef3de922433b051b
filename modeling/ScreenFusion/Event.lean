import ScreenFusion.Error

/-!
# ScreenFusion.Event — what the library reports while it works

Passes and pipelines report what they do as events.  `Event.level` says how loud an event is, `Event.message` words it.
-/

namespace ScreenFusion

/-- How loud an event is. -/
inductive Level where
  | warn
  | debug
  | trace
  deriving DecidableEq, Inhabited

/-- The name of a level. -/
def Level.name : Level → String
  | warn => "WARN"
  | debug => "DEBUG"
  | trace => "TRACE"

/-- Something a pass or a pipeline reports. -/
inductive Event where
  | effectDisposed (effect : String)
  | uniformRenamed (label uniform unit member : String)
  | effectInserted (pass effect : String) (index : Nat)
  | fused (pass : String) (effects version : Nat)
  | materialBuilt (pass : String)
  /-- A build failed and the program before it stays. -/
  | programKept (pass : String) (error : Error)
  /-- A build failed and there is no program before it. -/
  | passDisabled (pass : String) (error : Error)
  | passDisposed (pass : String)
  | depthAllocated (pass : String) (width height : Nat)
  | depthResized (pass : String) (width height : Nat)
  | precisionLowered (requested chosen : Precision)
  | pipelineCreated (width height : Nat) (precision : Precision) (alpha : Bool)
  | passAdded (pass : String) (index : Nat)
  | passAlreadyDisposed (pass : String)
  | passRemoved (pass : String)
  | resizeFailed (pass : String) (width height : Nat) (error : Error)
  | pipelineResized (width height : Nat)
  | disabledPassSkipped (pass : String)
  | depthPassSkipped (pass : String)
  | depthRendered (pass : String)
  | depthMissing (pass : String)
  | passRendered (pass : String) (toScreen : Bool)
  | buffersSwapped
  | pipelineDisposed
  deriving DecidableEq, Inhabited

namespace Event

/-- How loud the event is. -/
def level : Event → Level
  | programKept .. | passDisabled .. | precisionLowered .. | passAlreadyDisposed _ | resizeFailed .. |
    depthMissing _ => .warn
  | disabledPassSkipped _ | depthPassSkipped _ | depthRendered _ | passRendered .. | buffersSwapped => .trace
  | _ => .debug

/-- The text of the event. -/
def message : Event → String
  | effectDisposed effect => s!"effect {effect} disposed"
  | uniformRenamed label uniform unit member => s!"{label}: uniform {uniform} of {unit} renamed to {member}"
  | effectInserted pass effect index => s!"{pass}: effect {effect} inserted at {index}"
  | fused pass effects version => s!"{pass}: fused {effects} effect(s), program version {version}"
  | materialBuilt pass => s!"{pass}: program rebuilt"
  | programKept pass error =>
    s!"{pass}: recompilation failed, keeping last good program: {error.message}"
  | passDisabled pass error => s!"{pass}: compilation failed, pass disabled: {error.message}"
  | passDisposed pass => s!"{pass}: disposed"
  | depthAllocated pass width height => s!"{pass}: allocated depth buffer {width}x{height}"
  | depthResized pass width height => s!"{pass}: depth buffer resized to {width}x{height}"
  | precisionLowered requested chosen =>
    s!"{requested.title} buffers are not supported, falling back to {chosen.title}"
  | pipelineCreated width height precision alpha =>
    s!"pipeline created: {width}x{height}, {precision.title} precision, alpha {alpha}"
  | passAdded pass index => s!"pass {pass} added at {index}"
  | passAlreadyDisposed pass => s!"pass {pass} was already disposed"
  | passRemoved pass => s!"pass {pass} removed"
  | resizeFailed pass width height error => s!"{pass}: resize to {width}x{height} failed: {error.message}"
  | pipelineResized width height => s!"pipeline resized to {width}x{height}"
  | disabledPassSkipped pass => s!"skip {pass} (disabled)"
  | depthPassSkipped pass => s!"skip {pass} (depth not needed)"
  | depthRendered pass => s!"render {pass} (depth)"
  | depthMissing pass => s!"{pass} reads depth but no depth pass ran before it"
  | passRendered pass toScreen => s!"render {pass}" ++ if toScreen then " (to screen)" else ""
  | buffersSwapped => "swap buffers"
  | pipelineDisposed => "pipeline disposed"

end Event

end ScreenFusion
