import ScreenFusion.Number.Binary32
import ScreenFusion.Text.Hexadecimal

/-!
# ScreenFusion.Number.Pattern — floats as the digits of their patterns

A float is written exactly as the eight hexadecimal digits of its pattern.  What cannot be told apart by its use is written
alike: zeros of either sign, and every NaN.
-/

namespace ScreenFusion

namespace Binary32

/-- The digits of the pattern. -/
def text (x : Binary32) : String :=
  if x.isNaN then "nan"
  else if x.magnitude = 0 then "00000000"
  else Text.hexadecimalOf 8 x.bits.toNat

/-- The float that a text names: `nan`, an infinity, or the digits of a pattern. -/
def ofText? : String → Option Binary32
  | "nan" => some ⟨0x7fc00000⟩
  | "inf" => some ⟨0x7f800000⟩
  | "-inf" => some ⟨0xff800000⟩
  | s => (Text.readHexadecimal? s.toList).map fun n => ⟨UInt32.ofNat n⟩

end Binary32

end ScreenFusion
