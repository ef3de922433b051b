import ScreenFusion.Kernel
import ScreenFusion.Scene.Layers

/-!
# ScreenFusion.Scene.Object — scenes of rectangles

A scene stands in for what a host draws: rectangles on render layers, each with a depth and a colour or a gradient.  At a
place it shows the nearest rectangle that covers the place.
-/

namespace ScreenFusion

/-- What a scene shows at a place. -/
structure Fragment where
  color : Rgba Float32
  /-- Zero at the near plane, one at the far plane. -/
  depth : Float32
  deriving Inhabited

/-- A rectangle of a scene. -/
structure SceneObject where
  /-- The first covered place. -/
  topLeft : Uv
  /-- The first place not covered any more. -/
  bottomRight : Uv
  layers : Layers
  color : Rgba Float32
  depth : Float32
  /-- Whether the red and green channels show the place, and the depth grows across. -/
  gradient : Bool
  deriving Inhabited

namespace SceneObject

/-- Whether the rectangle covers a place. -/
def covers (o : SceneObject) (p : Uv) : Bool :=
  o.topLeft.u ≤ p.u && p.u < o.bottomRight.u && o.topLeft.v ≤ p.v && p.v < o.bottomRight.v

/-- What the rectangle shows at a place. -/
def fragment (o : SceneObject) (p : Uv) : Fragment :=
  if o.gradient then ⟨{ o.color with r := p.u, g := p.v }, p.u⟩ else ⟨o.color, o.depth⟩

end SceneObject

/-- A scene of rectangles. -/
abbrev Scene := List SceneObject

namespace Scene

/-- The nearer of two fragments; of two equally near, the first. -/
def nearer (best : Option Fragment) (f : Fragment) : Option Fragment :=
  match best with
  | none => some f
  | some b => if f.depth < b.depth then some f else some b

/-- What the scene shows at a place on some layers, if anything. -/
def shade (s : Scene) (p : Uv) (layers : Layers) : Option Fragment :=
  ((s.filter fun o => o.layers.meets layers && o.covers p).map (·.fragment p)).foldl nearer none

end Scene

end ScreenFusion
