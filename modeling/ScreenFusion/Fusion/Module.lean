import ScreenFusion.Blend.Library
import ScreenFusion.Fusion.Names
import ScreenFusion.Uniform.Slot

/-!
# ScreenFusion.Fusion.Module — the text of a fused module

A module is the uniform block, the bindings, a vertex entry point that covers the output, functions that give access to
the frame's data, the blend library, the units' code, and a fragment entry point that calls the units in order.
-/

namespace ScreenFusion.Fusion

/-- The vertex entry point and the functions that read the frame's data and the input buffer. -/
def scaffold : String := "struct FxVertexOutput \x7b
    @builtin(position) position: vec4f,
    @location(0) uv: vec2f,
\x7d;

@vertex
fn vs_main(@builtin(vertex_index) index: u32) -> FxVertexOutput \x7b
    var out: FxVertexOutput;
    let x = f32((index << 1u) & 2u);
    let y = f32(index & 2u);
    out.position = vec4f(x * 2.0 - 1.0, 1.0 - y * 2.0, 0.0, 1.0);
    out.uv = vec2f(x, y);
    return out;
\x7d

fn fx_time() -> f32 \x7b return fx.frame.x; \x7d
fn fx_delta_time() -> f32 \x7b return fx.frame.y; \x7d
fn fx_resolution() -> vec2f \x7b return fx.resolution.xy; \x7d
fn fx_texel_size() -> vec2f \x7b return fx.resolution.zw; \x7d
fn fx_camera_near() -> f32 \x7b return fx.camera.x; \x7d
fn fx_camera_far() -> f32 \x7b return fx.camera.y; \x7d

fn fx_sample_input(uv: vec2f) -> vec4f \x7b
    return textureSampleLevel(fx_input, fx_sampler, uv, 0.0);
\x7d
"

/-- The function that reads the depth buffer. -/
def depthScaffold : String := "
fn fx_read_depth(uv: vec2f) -> f32 \x7b
    return textureSampleLevel(fx_depth, fx_sampler, uv, 0.0).r;
\x7d
"

/-- The declaration of the uniform block. -/
def blockText (slots : List (String × SlotKind)) : String :=
  "struct FxUniforms \x7b\n" ++
    String.join (slots.map fun s => "    " ++ s.1 ++ ": " ++ s.2.shaderType ++ ",\n") ++ "\x7d;\n\n"

/-- The declarations of the bindings. -/
def bindingText (readsDepth : Bool) : String :=
  "@group(0) @binding(0)\nvar<uniform> fx: FxUniforms;\n\n" ++
    "@group(0) @binding(1)\nvar fx_input: texture_2d<f32>;\n\n" ++
    "@group(0) @binding(2)\nvar fx_sampler: sampler;\n\n" ++
    if readsDepth then "@group(0) @binding(3)\nvar fx_depth: texture_2d<f32>;\n\n" else ""

/-- The fragment entry point with the given calls. -/
def entryText (calls : List String) (readsDepth alpha : Bool) : String :=
  "@fragment\nfn fs_main(in: FxVertexOutput) -> @location(0) vec4f \x7b\n" ++
    "    let uv = in.uv;\n    var color = fx_sample_input(uv);\n" ++
    (if readsDepth then "    let depth = fx_read_depth(uv);\n" else "") ++
    String.join (calls.map (· ++ "\n")) ++
    (if alpha then "" else "    color.a = 1.0;\n") ++ "    return color;\n\x7d\n"

/-- The module with the given slots, units' code and calls. -/
def moduleText (label : String) (slots : List (String × SlotKind)) (blocks calls : List String)
    (readsDepth alpha : Bool) : String :=
  "// fused program: " ++ commentText label ++ "\n\n" ++ blockText slots ++ bindingText readsDepth ++ scaffold ++
    (if readsDepth then depthScaffold else "") ++ blendLibrary ++ "\n" ++
    String.join (blocks.map (· ++ "\n\n")) ++ entryText calls readsDepth alpha

end ScreenFusion.Fusion
