import ScreenFusion.Kernel

/-!
# ScreenFusion.Device.Plane — buffers of a software device

A plane has a colour for each texel, row by row, and may have a depth.  It is never empty, and its texels fit its size:
both are part of the type, so that every place has a texel.
-/

namespace ScreenFusion

/-- A buffer with colours and perhaps depths. -/
structure Plane where
  width : Nat
  height : Nat
  precision : Precision
  color : Vector (Rgba Float32) (width * height)
  depth : Option (Vector Float32 (width * height))
  width_pos : 0 < width
  height_pos : 0 < height

namespace Plane

/-- A plane of transparent texels at the greatest depth.  Its sides are at least one. -/
def create (width height : Nat) (precision : Precision) (hasDepth : Bool) : Plane where
  width := max width 1
  height := max height 1
  precision
  color := .replicate _ .transparent
  depth := if hasDepth then some (.replicate _ 1) else none
  width_pos := by omega
  height_pos := by omega

instance : Inhabited Plane := ⟨create 1 1 .full false⟩

/-- The number of texels. -/
def texels (p : Plane) : Nat := p.width * p.height

/-- A new plane of another size. -/
def resized (p : Plane) (width height : Nat) : Plane := create width height p.precision p.depth.isSome

/-- The width and the height as floats. -/
def size (p : Plane) : Uv :=
  ⟨(UInt64.ofNat p.width).toFloat32, (UInt64.ofNat p.height).toFloat32⟩

/-- The size of a texel. -/
def texelSize (p : Plane) : Uv := ⟨1 / p.size.u, 1 / p.size.v⟩

/-- The texel at a place; places outside the plane fall on its border. -/
def texelAt (p : Plane) (uv : Uv) : Fin (p.width * p.height) :=
  let x := cellIndex (uv.u * p.size.u) p.width
  let y := cellIndex (uv.v * p.size.v) p.height
  ⟨y * p.width + x, by
    have hx : x < p.width := cellIndex_lt p.width_pos _
    have hy : y < p.height := cellIndex_lt p.height_pos _
    calc y * p.width + x < y * p.width + p.width := by omega
      _ = (y + 1) * p.width := by rw [Nat.succ_mul]
      _ ≤ p.height * p.width := Nat.mul_le_mul_right _ hy
      _ = p.width * p.height := Nat.mul_comm _ _⟩

/-- The centre of a texel. -/
def centre (p : Plane) (i : Nat) : Uv :=
  ⟨((UInt64.ofNat (i % p.width)).toFloat32 + 0.5) / p.size.u,
    ((UInt64.ofNat (i / p.width)).toFloat32 + 0.5) / p.size.v⟩

/-- The colour at a place. -/
def sample (p : Plane) (uv : Uv) : Rgba Float32 := p.color[p.texelAt uv]

/-- The depth at a place; one if the plane has none. -/
def sampleDepth (p : Plane) (uv : Uv) : Float32 :=
  match p.depth with
  | some depth => depth[p.texelAt uv]
  | none => 1

/-- The plane with every colour replaced; colours are stored in the plane's precision. -/
def mapColor (p : Plane) (f : Nat → Rgba Float32 → Option (Rgba Float32)) : Plane :=
  { p with color := p.color.mapIdx fun i c => ((f i c).map (Rgba.quantize p.precision)).getD c }

/-- The plane with every depth replaced, if it has any. -/
def mapDepth (p : Plane) (f : Nat → Float32 → Float32) : Plane :=
  { p with depth := p.depth.map fun depth => depth.mapIdx f }

@[simp] theorem mapColor_width (p : Plane) (f : Nat → Rgba Float32 → Option (Rgba Float32)) :
    (p.mapColor f).width = p.width := rfl

@[simp] theorem mapColor_height (p : Plane) (f : Nat → Rgba Float32 → Option (Rgba Float32)) :
    (p.mapColor f).height = p.height := rfl

@[simp] theorem create_width {width : Nat} (h : 0 < width) (height : Nat) (precision : Precision) (hasDepth : Bool) :
    (create width height precision hasDepth).width = width := by
  simp only [create]
  omega

@[simp] theorem create_height {height : Nat} (h : 0 < height) (width : Nat) (precision : Precision)
    (hasDepth : Bool) : (create width height precision hasDepth).height = height := by
  simp only [create]
  omega

end Plane

end ScreenFusion
