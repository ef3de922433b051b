import ScreenFusion.Json.Decode
import ScreenFusion.Precision
import ScreenFusion.Wgsl.Check
import ScreenFusion.Wgsl.Conditional

/-!
# ScreenFusion.Error — what can go wrong

Errors are of three kinds: a configuration that cannot work, a program that a device does not take, and a resource that
cannot be had.  Each carries its cause; `Error.message` is the one place that words them.
-/

namespace ScreenFusion

/-- What a checked name is the name of. -/
inductive NameRole where
  | uniform
  | define
  deriving DecidableEq, Inhabited

/-- The role in messages. -/
def NameRole.title : NameRole → String
  | uniform => "uniform"
  | define => "define"

/-- Why a configuration cannot work. -/
inductive ConfigurationCause where
  | blendFunction (token : String)
  | unknownAttribute (token : String)
  /-- A descriptor or options text that cannot be read. -/
  | text (fault : Json.Fault)
  | repeatedUniform (name : String)
  | disposedEffect (name : String)
  /-- Two effects of a pass need the same attribute, which only one may have. -/
  | exclusiveAttribute (first second flag : String)
  | unusableName (role : NameRole) (name : String)
  | reservedName (role : NameRole) (name : String)
  | uniformAndDefine (name : String)
  | conditionals (fault : Wgsl.ConditionalFault)
  | noEntryPoint
  | clashingItem (name : String)
  | unknownEffect (id : Nat)
  | selectionLayer (layer : Nat)
  deriving DecidableEq, Inhabited

/-- Why a program cannot be had. -/
inductive CompileCause where
  | rejected (reason : Wgsl.Rejection) (source : String)
  | noKernel (stage : String)
  | noProgram
  deriving DecidableEq, Inhabited

/-- Why a resource cannot be had. -/
inductive ResourceCause where
  | blockSize (label : String) (bound expected : Nat)
  | uploadSize (count width height : Nat)
  | unknownTarget (id : Nat)
  | unknownProgram (id : Nat)
  | unknownScene (id : Nat)
  | invalidSize (label : String) (width height : Nat)
  | unsupportedPrecision (label : String) (precision : Precision)
  | noDepthPlane (width height : Nat)
  | disposedPass (name : String)
  | disposedPipeline
  | pipelineSize (width height : Nat)
  | noPrecision (requested : Precision)
  | noDepthBuffer (name : String)
  /-- Nothing of some kind has this number. -/
  | unknownItem (kind : String) (id : Nat)
  /-- A failure that was armed on purpose. -/
  | rehearsed (text : String)
  deriving DecidableEq, Inhabited

/-- What went wrong. -/
inductive Error where
  | configuration (context : String) (cause : ConfigurationCause)
  | compile (label : String) (cause : CompileCause)
  | resource (cause : ResourceCause)
  deriving DecidableEq, Inhabited

namespace ConfigurationCause

/-- The text of a cause. -/
def message : ConfigurationCause → String
  | blendFunction token => s!"unsupported blend function: {token}"
  | unknownAttribute token => s!"unknown attribute: {token}"
  | text fault => fault.message
  | repeatedUniform name => s!"duplicate uniform {name}"
  | disposedEffect name => s!"effect {name} has been disposed"
  | exclusiveAttribute first second flag =>
    s!"effects {first} and {second} both require EffectAttributes({flag}) and cannot be fused into one pass"
  | unusableName role name => s!"{role.title} name `{name}` is not a usable WGSL identifier"
  | reservedName role name => s!"{role.title} name `{name}` is reserved by the fused program"
  | uniformAndDefine name => s!"`{name}` is declared both as a uniform and as a define"
  | conditionals fault => fault.message
  | noEntryPoint => "shader does not declare fn main_image"
  | clashingItem name => s!"function or struct `{name}` clashes with a reserved or declared name"
  | unknownEffect id => s!"no effect with id {id}"
  | selectionLayer layer => s!"layer {layer} cannot tag a selection; use 1 to 31"

end ConfigurationCause

namespace CompileCause

/-- The text of a cause, for a program with a label. -/
def message (label : String) : CompileCause → String
  | rejected reason source => reason.message label source
  | noKernel stage => s!"stage {stage} has no software kernel"
  | noProgram => "no compiled program"

end CompileCause

namespace ResourceCause

/-- The text of a cause. -/
def message : ResourceCause → String
  | blockSize label bound expected => s!"{label}: {bound} byte uniform block bound, {expected} expected"
  | uploadSize count width height => s!"upload of {count} texels into a {width}x{height} buffer"
  | unknownTarget id => s!"unknown target {id}"
  | unknownProgram id => s!"unknown program {id}"
  | unknownScene id => s!"unknown scene {id}"
  | invalidSize label width height => s!"{label}: invalid size {width}x{height}"
  | unsupportedPrecision label precision => s!"{label}: {precision.title} precision is not supported"
  | noDepthPlane width height => s!"{width}x{height} target has no depth plane"
  | disposedPass name => s!"{name} has been disposed"
  | disposedPipeline => "pipeline has been disposed"
  | pipelineSize width height => s!"invalid pipeline size {width}x{height}"
  | noPrecision requested => s!"renderer supports no buffer precision up to {requested.title}"
  | noDepthBuffer name => s!"{name} has no depth buffer"
  | unknownItem kind id => s!"unknown {kind} {id}"
  | rehearsed text => text

end ResourceCause

namespace Error

/-- The text of an error. -/
def message : Error → String
  | configuration context cause => s!"configuration error in {context}: {cause.message}"
  | compile label cause => s!"compile error in {label}: {cause.message label}"
  | resource cause => s!"resource error: {cause.message}"

/-- Whether the error is about a configuration or a program, and not about a resource. -/
def isBuildError : Error → Bool
  | configuration .. | compile .. => true
  | resource _ => false

end Error

end ScreenFusion
