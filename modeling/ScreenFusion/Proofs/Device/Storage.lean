import Mathlib.Algebra.Ring.Nat
import Mathlib.Algebra.Ring.Int.Defs
import ScreenFusion.Device.Draw

/-!
# ScreenFusion.Proofs.Device.Storage — buffers as memory holds them

In memory a buffer is a size and a row of texels, and nothing says that these fit.  Where an index is not one of the
row, where a number is to be put between bounds that do not stand in order, or where something is divided by a width of
zero, there is no result: the program is stopped by a fault.  On buffers that fit, nothing of that happens, and the
result is that of the buffers whose type says that they fit.

* `StoredPlane`: a buffer without that knowledge, with its reading and writing.
* `StoredPlane.Sound`, `StoredPlane.Sound.texelIndex?`: buffers that fit have a texel for every place.
* `Plane.stored`, `Plane.stored_sample?`, `Plane.stored_centre?`: what is read from a buffer that fits.
* `StoredPlane.paint?_eq`, `Plane.stored_paint?`: what is written to it.
-/

namespace ScreenFusion

/-! ## Cells -/

/-- The number between two bounds that is nearest to another; a fault if the bounds do not stand in order. -/
def clampInt? (x low high : Int) : Option Int := if low ≤ high then some (max low (min high x)) else none

/-- The 64-bit integer below a number; zero for NaN, and the nearest one for numbers that are too large. -/
def floorInt64 (x : Float32) : Int := (Decoded.ofFloat32 x).toIntIn (-2 ^ 63) (2 ^ 63 - 1) Dyadic.floor

/-- The cell of a row that a coordinate falls into. -/
def cell? (x : Float32) (count : Nat) : Option Nat :=
  (clampInt? (floorInt64 x) 0 ((count : Int) - 1)).map Int.toNat

/-- A row with cells has one for every coordinate. -/
theorem exists_cell? {count : Nat} (h : 0 < count) (x : Float32) : ∃ i, cell? x count = some i ∧ i < count := by
  have horder : (0 : Int) ≤ (count : Int) - 1 := by omega
  rw [cell?, clampInt?, if_pos horder]
  exact ⟨_, rfl, by omega⟩

theorem cell?_eq {count : Nat} (h : 0 < count) (hcount : count ≤ 2 ^ 63) (x : Float32) :
    cell? x count = some (cellIndex x count) := by
  have horder : (0 : Int) ≤ (count : Int) - 1 := by omega
  rw [cell?, clampInt?, if_pos horder, floorInt64, cellIndex, Option.map_some]
  -- where the floor leaves the 64-bit integers, it is beyond the last cell or before the first one as well
  cases Decoded.ofFloat32 x with
  | nan => simp only [Decoded.toIntIn]; congr 1; omega
  | infinite negative => cases negative <;> simp only [Decoded.toIntIn] <;> congr 1 <;> simp <;> omega
  | finite y => simp only [Decoded.toIntIn]; congr 1; omega

/-! ## Buffers -/

/-- A buffer as memory holds it. -/
structure StoredPlane where
  width : Nat
  height : Nat
  precision : Precision
  color : List (Rgba Float32)
  depth : Option (List Float32)

namespace StoredPlane

/-- A buffer of transparent texels at the greatest depth. -/
def create (width height : Nat) (precision : Precision) (hasDepth : Bool) : StoredPlane where
  width
  height
  precision
  color := List.replicate (width * height) .transparent
  depth := if hasDepth then some (List.replicate (width * height) 1) else none

/-- A new buffer of another size. -/
def resized (p : StoredPlane) (width height : Nat) : StoredPlane := create width height p.precision p.depth.isSome

/-- The width and the height as floats. -/
def size (p : StoredPlane) : Uv := ⟨(UInt64.ofNat p.width).toFloat32, (UInt64.ofNat p.height).toFloat32⟩

/-- The size of a texel. -/
def texelSize (p : StoredPlane) : Uv := ⟨1 / p.size.u, 1 / p.size.v⟩

/-- The index of the texel at a place. -/
def texelIndex? (p : StoredPlane) (uv : Uv) : Option Nat := do
  let x ← cell? (uv.u * p.size.u) p.width
  let y ← cell? (uv.v * p.size.v) p.height
  return y * p.width + x

/-- The colour at a place. -/
def sample? (p : StoredPlane) (uv : Uv) : Option (Rgba Float32) := do p.color[← p.texelIndex? uv]?

/-- The depth at a place; one if the buffer has none. -/
def sampleDepth? (p : StoredPlane) (uv : Uv) : Option Float32 :=
  match p.depth with
  | none => some 1
  | some depth => do depth[← p.texelIndex? uv]?

/-- The centre of a texel.  Row and column are an integer quotient by the width and its rest. -/
def centre? (p : StoredPlane) (i : Nat) : Option Uv :=
  if p.width = 0 then none
  else some ⟨((UInt64.ofNat (i % p.width)).toFloat32 + 0.5) / p.size.u,
    ((UInt64.ofNat (i / p.width)).toFloat32 + 0.5) / p.size.v⟩

open Classical in
/-- The colours at all places, for kernels, which may ask for any of them: a fault if one has no colour. -/
noncomputable def sampler? (p : StoredPlane) : Option (Uv → Rgba Float32) :=
  if h : ∀ uv, (p.sample? uv).isSome then some fun uv => (p.sample? uv).get (h uv) else none

/-- The centres of all texels in order. -/
def centres? (p : StoredPlane) : Option (List Uv) := (List.range p.color.length).mapM p.centre?

/-- Writes the colour of a texel. -/
def store? (p : StoredPlane) (i : Nat) (c : Rgba Float32) : Option StoredPlane :=
  if i < p.color.length then some { p with color := p.color.set i (c.quantize p.precision) } else none

/-- Goes through some texels in order: at each, a colour is found and written, or nothing is written, or there is a
fault. -/
def paint? (p : StoredPlane) (count : Nat) (f : StoredPlane → Nat → Option (Option (Rgba Float32))) :
    Option StoredPlane :=
  (List.range count).foldlM (fun q i => do
    match ← f q i with
    | some c => q.store? i c
    | none => return q) p

/-- The buffer with one colour. -/
def fill (p : StoredPlane) (c : Rgba Float32) : StoredPlane :=
  { p with color := p.color.map fun _ => c.quantize p.precision }

/-- The buffer with one depth, if it has any. -/
def fillDepth (p : StoredPlane) (x : Float32) : StoredPlane :=
  { p with depth := p.depth.map (·.map fun _ => x) }

/-- Goes through the depths and some places in step; further depths stay. -/
def mapDepth (p : StoredPlane) (places : List Uv) (f : Float32 → Uv → Float32) : StoredPlane :=
  { p with depth := p.depth.map fun depth => List.zipWith f depth places ++ depth.drop places.length }

/-- The texels fit the size, and there is one. -/
structure Sound (p : StoredPlane) : Prop where
  width : 1 ≤ p.width
  height : 1 ≤ p.height
  color : p.color.length = p.width * p.height
  depth : ∀ depth, p.depth = some depth → depth.length = p.width * p.height

/-- A sound buffer has a texel for every place, whatever its coordinates are. -/
theorem Sound.texelIndex? {p : StoredPlane} (s : p.Sound) (uv : Uv) :
    ∃ i, p.texelIndex? uv = some i ∧ i < p.color.length := by
  obtain ⟨x, hx, hwidth⟩ := exists_cell? s.width (uv.u * p.size.u)
  obtain ⟨y, hy, hheight⟩ := exists_cell? s.height (uv.v * p.size.v)
  refine ⟨y * p.width + x, ?_, ?_⟩
  · rw [StoredPlane.texelIndex?, hx, hy]
    rfl
  · rw [s.color]
    calc y * p.width + x < y * p.width + p.width := by omega
      _ = (y + 1) * p.width := by rw [Nat.succ_mul]
      _ ≤ p.height * p.width := Nat.mul_le_mul_right _ hheight
      _ = p.width * p.height := Nat.mul_comm _ _

/-- The colours after the first texels have been gone through. -/
def swept (p : StoredPlane) (g : Nat → Option (Rgba Float32)) (count : Nat) : List (Rgba Float32) :=
  p.color.mapIdx fun i c => if i < count then ((g i).map (Rgba.quantize p.precision)).getD c else c

section Sweep

variable {p : StoredPlane} {g : Nat → Option (Rgba Float32)} {count : Nat}

theorem swept_zero : p.swept g 0 = p.color := List.ext_getElem? fun i => by simp [swept]

theorem swept_succ_of_none (h : g count = none) : p.swept g (count + 1) = p.swept g count := by
  refine List.ext_getElem? fun i => ?_
  unfold swept
  rw [List.getElem?_mapIdx, List.getElem?_mapIdx]
  rcases Nat.lt_trichotomy i count with hi | rfl | hi
  · simp [show i < count + 1 by omega, hi]
  · simp [h]
  · simp [show ¬i < count + 1 by omega, show ¬i < count by omega]

theorem swept_succ_of_some {c : Rgba Float32} (h : g count = some c) :
    p.swept g (count + 1) = (p.swept g count).set count (c.quantize p.precision) := by
  refine List.ext_getElem? fun i => ?_
  unfold swept
  rw [List.getElem?_set, List.getElem?_mapIdx, List.getElem?_mapIdx]
  rcases Nat.lt_trichotomy i count with hi | rfl | hi
  · simp [show i < count + 1 by omega, hi, show ¬count = i by omega]
  · by_cases hlength : i < p.color.length <;> simp [h, hlength]
  · simp [show ¬i < count + 1 by omega, show ¬i < count by omega, show ¬count = i by omega]

/-- What a sweep leaves, if nothing that it finds depends on the colours. -/
theorem paint?_eq {f : StoredPlane → Nat → Option (Option (Rgba Float32))} (hcount : count ≤ p.color.length)
    (hf : ∀ (color : List (Rgba Float32)), ∀ i < count, f { p with color } i = some (g i)) :
    p.paint? count f = some { p with color := p.swept g count } := by
  induction count with
  | zero =>
    rw [swept_zero]
    rfl
  | succ count ih =>
    have hbefore := ih (by omega) fun color i hi => hf color i (by omega)
    have hlength : count < (p.swept g count).length := by
      rw [swept, List.length_mapIdx]
      omega
    rw [paint?] at hbefore ⊢
    rw [List.range_succ, List.foldlM_append, hbefore]
    show ((f _ count).bind _).bind _ = _
    -- so far only colours have been written, and what is found does not depend on them
    rw [hf _ count (by omega)]
    cases hg : g count with
    | none =>
      rw [swept_succ_of_none hg]
      rfl
    | some c =>
      rw [swept_succ_of_some hg]
      show (StoredPlane.store? _ count c).bind _ = _
      rw [store?, if_pos hlength]
      rfl

end Sweep

end StoredPlane

/-! ## Buffers that fit -/

theorem mapM_eq_some_map {α β : Type} {xs : List α} {f : α → Option β} {g : α → β} (h : ∀ x ∈ xs, f x = some (g x)) :
    xs.mapM f = some (xs.map g) := by
  induction xs with
  | nil => rfl
  | cons x xs ih =>
    obtain ⟨hx, hxs⟩ := List.forall_mem_cons.1 h
    rw [List.mapM_cons, hx, ih hxs]
    rfl

namespace Plane

variable {p : Plane}

/-- The buffer as memory holds it. -/
def stored (p : Plane) : StoredPlane := ⟨p.width, p.height, p.precision, p.color.toList, p.depth.map Vector.toList⟩

theorem sound_stored (p : Plane) : p.stored.Sound := by
  refine ⟨p.width_pos, p.height_pos, Vector.length_toList, fun depth h => ?_⟩
  obtain ⟨v, -, rfl⟩ := Option.map_eq_some_iff.1 h
  exact Vector.length_toList

/-- The sides are 32-bit numbers. -/
structure Modest (p : Plane) : Prop where
  width : p.width < 2 ^ 32
  height : p.height < 2 ^ 32

theorem Modest.mapColor (m : p.Modest) (f : Nat → Rgba Float32 → Option (Rgba Float32)) : (p.mapColor f).Modest :=
  ⟨m.width, m.height⟩

theorem Modest.mapDepth (m : p.Modest) (f : Nat → Float32 → Float32) : (p.mapDepth f).Modest := ⟨m.width, m.height⟩

theorem modest_create {width height : Nat} (hw : width < 2 ^ 32) (hh : height < 2 ^ 32) (precision : Precision)
    (hasDepth : Bool) : (create width height precision hasDepth).Modest :=
  ⟨by show max width 1 < _; omega, by show max height 1 < _; omega⟩

theorem stored_create (width height : Nat) (precision : Precision) (hasDepth : Bool) :
    (create width height precision hasDepth).stored =
      .create (max width 1) (max height 1) precision hasDepth := by
  cases hasDepth <;> simp [stored, create, StoredPlane.create]

theorem stored_create_of_pos {width height : Nat} (hw : 0 < width) (hh : 0 < height) (precision : Precision)
    (hasDepth : Bool) : (create width height precision hasDepth).stored =
      .create width height precision hasDepth := by
  rw [stored_create, Nat.max_eq_left hw, Nat.max_eq_left hh]

theorem stored_resized (p : Plane) {width height : Nat} (hw : 0 < width) (hh : 0 < height) :
    (p.resized width height).stored = p.stored.resized width height := by
  rw [resized, stored_create_of_pos hw hh, StoredPlane.resized]
  cases hd : p.depth <;> simp [stored, hd]

/-! ### Reading -/

theorem stored_texelIndex? (m : p.Modest) (uv : Uv) : p.stored.texelIndex? uv = some (p.texelAt uv).val := by
  have hw := m.width
  have hh := m.height
  have hx : cell? (uv.u * p.stored.size.u) p.stored.width = some _ := cell?_eq p.width_pos (by omega) _
  have hy : cell? (uv.v * p.stored.size.v) p.stored.height = some _ := cell?_eq p.height_pos (by omega) _
  rw [StoredPlane.texelIndex?, hx, hy]
  rfl

theorem stored_sample? (m : p.Modest) (uv : Uv) : p.stored.sample? uv = some (p.sample uv) := by
  rw [StoredPlane.sample?, stored_texelIndex? m]
  show p.color.toList[(p.texelAt uv).val]? = _
  rw [Vector.getElem?_toList]
  exact Vector.getElem?_eq_getElem (p.texelAt uv).isLt

theorem stored_sampleDepth? (m : p.Modest) (uv : Uv) : p.stored.sampleDepth? uv = some (p.sampleDepth uv) := by
  have hindex := stored_texelIndex? m uv
  unfold StoredPlane.sampleDepth? sampleDepth
  rw [hindex]
  unfold stored
  cases hd : p.depth with
  | none => rfl
  | some depth =>
    show depth.toList[(p.texelAt uv).val]? = _
    rw [Vector.getElem?_toList]
    exact Vector.getElem?_eq_getElem (p.texelAt uv).isLt

theorem stored_centre? (p : Plane) (i : Nat) : p.stored.centre? i = some (p.centre i) :=
  if_neg (Nat.ne_of_gt p.width_pos)

theorem stored_sampler? (m : p.Modest) : p.stored.sampler? = some p.sample := by
  have hall : ∀ uv, (p.stored.sample? uv).isSome := fun uv => by
    rw [stored_sample? m]
    rfl
  rw [StoredPlane.sampler?, dif_pos hall]
  refine congrArg some (funext fun uv => ?_)
  exact Option.get_of_eq_some _ (stored_sample? m uv)

theorem stored_centres? (p : Plane) :
    p.stored.centres? = some ((List.range (p.width * p.height)).map p.centre) := by
  have hlength : p.stored.color.length = p.width * p.height := Vector.length_toList
  rw [StoredPlane.centres?, hlength]
  exact mapM_eq_some_map fun i _ => stored_centre? p i

/-! ### Writing -/

/-- A sweep over all texels. -/
theorem stored_paint? {f : StoredPlane → Nat → Option (Option (Rgba Float32))} {g : Nat → Option (Rgba Float32)}
    (hf : ∀ (color : List (Rgba Float32)), ∀ i < p.width * p.height, f { p.stored with color } i = some (g i)) :
    p.stored.paint? (p.width * p.height) f = some (p.mapColor fun i _ => g i).stored := by
  have hlength : p.stored.color.length = p.width * p.height := Vector.length_toList
  rw [StoredPlane.paint?_eq (Nat.le_of_eq hlength.symm) hf]
  have hcolor : p.stored.swept g (p.width * p.height) = (p.mapColor fun i _ => g i).color.toList := by
    refine List.ext_getElem? fun i => ?_
    show (List.mapIdx _ p.color.toList)[i]? = (p.color.mapIdx _).toList[i]?
    rw [List.getElem?_mapIdx, Vector.getElem?_toList, Vector.getElem?_toList, Vector.getElem?_mapIdx]
    by_cases hi : i < p.width * p.height
    · simp only [hi, if_true]
      rfl
    · rw [Vector.getElem?_eq_none (by omega)]
      rfl
  rw [hcolor]
  rfl

theorem stored_fill (p : Plane) (c : Rgba Float32) : (p.mapColor fun _ _ => some c).stored = p.stored.fill c := by
  have hcolor : (p.color.mapIdx fun _ _ => c.quantize p.precision).toList =
      p.color.toList.map fun _ => c.quantize p.precision := by
    refine List.ext_getElem? fun i => ?_
    rw [Vector.getElem?_toList, Vector.getElem?_mapIdx, List.getElem?_map, Vector.getElem?_toList]
  exact congrArg (fun color => StoredPlane.mk p.width p.height p.precision color (p.depth.map Vector.toList)) hcolor

/-- Other depths in the buffer's memory. -/
theorem stored_of_depths (p : Plane) {f : Nat → Float32 → Float32} {g : List Float32 → List Float32}
    (h : ∀ depth : Vector Float32 (p.width * p.height), (depth.mapIdx f).toList = g depth.toList) :
    (p.mapDepth f).stored = { p.stored with depth := p.stored.depth.map g } := by
  have hdepth : (p.depth.map fun depth => depth.mapIdx f).map Vector.toList = (p.depth.map Vector.toList).map g := by
    rw [Option.map_map, Option.map_map]
    exact congrArg (fun r => p.depth.map r) (funext h)
  exact congrArg (StoredPlane.mk p.width p.height p.precision p.color.toList) hdepth

theorem stored_fillDepth (p : Plane) (x : Float32) : (p.mapDepth fun _ _ => x).stored = p.stored.fillDepth x := by
  refine stored_of_depths p fun depth => List.ext_getElem? fun i => ?_
  rw [Vector.getElem?_toList, Vector.getElem?_mapIdx, List.getElem?_map, Vector.getElem?_toList]

theorem stored_mapDepth (p : Plane) (f : Float32 → Uv → Float32) :
    (p.mapDepth fun i x => f x (p.centre i)).stored =
      p.stored.mapDepth ((List.range (p.width * p.height)).map p.centre) f := by
  refine stored_of_depths p fun depth => ?_
  have hlength : depth.toList.length ≤ ((List.range (p.width * p.height)).map p.centre).length := by simp
  rw [List.drop_of_length_le hlength, List.append_nil]
  refine List.ext_getElem? fun i => ?_
  rw [Vector.getElem?_toList, Vector.getElem?_mapIdx, List.getElem?_zipWith, Vector.getElem?_toList, List.getElem?_map]
  by_cases hi : i < p.width * p.height
  · rw [Vector.getElem?_eq_getElem hi, List.getElem?_range hi]
    rfl
  · rw [Vector.getElem?_eq_none (by omega)]
    rfl

end Plane

end ScreenFusion
