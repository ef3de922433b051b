import ScreenFusion.Effect.Stock
import ScreenFusion.Host.Record
import ScreenFusion.Proofs.Pass.KeptProgram
import ScreenFusion.Proofs.Pipeline.Disabled
import ScreenFusion.Proofs.Pipeline.Fused
import ScreenFusion.Scene.Selection
import ScreenFusion.Studio
import ScreenFusion.Wgsl.Eval
import ScreenFusion.Proofs.Device.Holdings
import ScreenFusion.Proofs.Pass.Holdings
import ScreenFusion.Proofs.Pass.Setter
import ScreenFusion.Proofs.Pipeline.Conservation
import ScreenFusion.Proofs.Wgsl.Fragment
import ScreenFusion.Proofs.Wgsl.Resolution
import ScreenFusion.Proofs.Wgsl.Place
import ScreenFusion.Proofs.Fusion.Fresh
import ScreenFusion.Proofs.Fusion.Naming
import ScreenFusion.Proofs.Fusion.Substitute
import ScreenFusion.Proofs.Fusion.Separation
import ScreenFusion.Proofs.Fusion.Capture
import ScreenFusion.Proofs.Host.Only
import ScreenFusion.Proofs.Pass.Builder
import ScreenFusion.Proofs.Pipeline.Refusal
import ScreenFusion.Proofs.Pipeline.Stall
import ScreenFusion.Proofs.Pass.Writes
import ScreenFusion.Proofs.Pipeline.Buffers
import ScreenFusion.Proofs.Pipeline.HandOff
import ScreenFusion.Proofs.Pipeline.DepthOnce
import ScreenFusion.Proofs.Fusion.Constants
import ScreenFusion.Proofs.Device.Later
import ScreenFusion.Proofs.Pass.Along
import ScreenFusion.Proofs.Pass.Installed
import ScreenFusion.Proofs.Pass.Use
import ScreenFusion.Proofs.Pass.Binding
import ScreenFusion.Proofs.Pass.SlotKinds
import ScreenFusion.Proofs.Pass.KeptImage
import ScreenFusion.Proofs.Pipeline.Passes
import ScreenFusion.Proofs.Pipeline.DepthSupply
import ScreenFusion.Proofs.Pass.Lasting
import ScreenFusion.Proofs.Pass.Forcing
import ScreenFusion.Proofs.Device.Coat
import ScreenFusion.Proofs.Pipeline.Clock
import ScreenFusion.Proofs.Pipeline.Roster
import ScreenFusion.Proofs.Pipeline.Admission
import ScreenFusion.Proofs.Pipeline.Opacity
import ScreenFusion.Proofs.Wgsl.Declaration
import ScreenFusion.Proofs.Fusion.Slots
import ScreenFusion.Proofs.Fusion.Extension
import ScreenFusion.Proofs.Effect.Compatible
import ScreenFusion.Proofs.Pass.Vetting
import ScreenFusion.Proofs.Pass.Violation
import ScreenFusion.Proofs.Pass.Rejection
import ScreenFusion.Proofs.Wgsl.Conditional
import ScreenFusion.Proofs.Wgsl.Atom
import ScreenFusion.Proofs.Wgsl.Comment
import ScreenFusion.Proofs.Wgsl.FieldType
import ScreenFusion.Proofs.Uniform.Access
import ScreenFusion.Proofs.Device.Soundness
import ScreenFusion.Proofs.Pipeline.Resizing
import ScreenFusion.Proofs.Resolution.Repetition
import ScreenFusion.Proofs.Blend.Shader
import ScreenFusion.Proofs.Blend.Stack
import ScreenFusion.Proofs.Scene.Layers
import ScreenFusion.Proofs.Scene.Tagging
import ScreenFusion.Proofs.Effect.Loading
import ScreenFusion.Proofs.Fusion.Header
import ScreenFusion.Proofs.Resolution.Extent
import ScreenFusion.Proofs.Fusion.Search
import ScreenFusion.Proofs.OrderedMap.History
import ScreenFusion.Proofs.Wgsl.Cursor
import ScreenFusion.Proofs.Resolution.Aspect
