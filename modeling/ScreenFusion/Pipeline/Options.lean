import ScreenFusion.Error
import ScreenFusion.Json.Text
import ScreenFusion.Json.Written

/-!
# ScreenFusion.Pipeline.Options — how a pipeline is to be set up
-/

namespace ScreenFusion

/-- Reads a precision from a JSON text. -/
def Precision.decode : Json.Decoder Precision := Json.Decoder.variant Precision.byName

/-- A precision as it is written. -/
def Precision.written (p : Precision) : Json.Written := .string p.name

/-- How a pipeline is to be set up. -/
structure PipelineOptions where
  /-- Whether there is an alpha channel; without one the output is solid. -/
  alpha : Bool
  precision : Precision
  /-- Whether the buffers of the pipeline have depth. -/
  depthBuffer : Bool
  deriving DecidableEq

namespace PipelineOptions

instance : Inhabited PipelineOptions := ⟨⟨true, .half, false⟩⟩

/-- The fields of the options. -/
def fields : Json.Record PipelineOptions where
  title := "PipelineOptions"
  fields := [
    .defaulted "alpha" Json.Decoder.bool fun b o => { o with alpha := b },
    .defaulted "precision" Precision.decode fun p o => { o with precision := p },
    .defaulted "depth_buffer" Json.Decoder.bool fun b o => { o with depthBuffer := b }]
  blank := default

/-- The options as they are written. -/
def written (o : PipelineOptions) : Json.Written :=
  .object [("alpha", .bool o.alpha), ("precision", o.precision.written), ("depth_buffer", .bool o.depthBuffer)]

/-- The options in a JSON text. -/
def ofJson (text : String) : Except Error PipelineOptions :=
  match Json.decodeText fields.decode text with
  | .ok o => .ok o
  | .error fault => .error (.configuration "pipeline options" (.text fault))

end PipelineOptions

end ScreenFusion
