import Mathlib
import ScreenFusion.Number.Binary32

/-!
# ScreenFusion.Proofs.Number.NotANumber — the numbers that differ from themselves

A stored pattern is NaN if all its exponent bits are set and not all its fraction bits are clear.  The number that such a
pattern stands for is NaN, which differs from every number and from itself; every other number equals itself.
-/

namespace ScreenFusion

open Float.Model (Format)

/-- A float equals itself unless it is NaN. -/
theorem beq_self_float (x : Float32) : (x == x) = !x.isNaN := by
  rw [Bool.eq_iff_iff, Float32.beq_self_iff, Float32.isNaN_eq_decide_eq_nan]
  simp

namespace Binary32

open Float.Model.UnpackedFloat

/-- A pattern is read as NaN iff its bits are those of one. -/
theorem isNaN_unpack_iff (b : BitVec Format.binary32.numBits) :
    (unpack Format.binary32 b).isNaN = true ↔ isNaNBits b = true := by
  unfold unpack isNaNBits
  dsimp only
  split
  · split <;> simp_all
  · split <;> (try split) <;> simp_all

/-- The bits of NaN: the greatest exponent, and a fraction. -/
theorem isNaNBits_bits (x : Binary32) : @isNaNBits Format.binary32 x.bits.toBitVec = x.isNaN := by
  have exponent : (@unpackExponent Format.binary32 x.bits.toBitVec).toNat = x.bits.toNat / 2 ^ 23 % 2 ^ 8 := by
    simp [unpackExponent, Nat.shiftRight_eq_div_pow]
  have fraction : (@unpackMantissa Format.binary32 x.bits.toBitVec).toNat = x.bits.toNat % 2 ^ 23 := by
    simp [unpackMantissa]
  have magnitude : (x.bits &&& 0x7fffffff).toNat = x.bits.toNat % 2 ^ 31 := by
    rw [UInt32.toNat_and]
    exact Nat.and_two_pow_sub_one_eq_mod x.bits.toNat 31
  have hones (e : BitVec 8) : e = -1#8 ↔ e.toNat = 255 := BitVec.toNat_inj.symm
  have hzeros (m : BitVec 23) : m = 0#23 ↔ m.toNat = 0 := BitVec.toNat_inj.symm
  rw [Bool.eq_iff_iff, isNaNBits, isNaN, decide_eq_true_iff, decide_eq_true_iff, gt_iff_lt, UInt32.lt_iff_toNat_lt,
    magnitude, hones, Ne, hzeros, exponent, fraction]
  show _ ↔ 255 * 2 ^ 23 < x.bits.toNat % 2 ^ 31
  omega

/-- A pattern stands for NaN iff it is one. -/
theorem isNaN_toFloat (x : Binary32) : x.toFloat.isNaN = x.isNaN := by
  show (unpack Format.binary32 (pack Format.binary32 (unpack Format.binary32 x.bits.toBitVec))).isNaN = _
  rw [pack_unpack, ← isNaNBits_bits]
  split
  · next h =>
    rw [unpack_packedNaN, h]
    rfl
  · rw [Bool.eq_iff_iff, isNaN_unpack_iff]

theorem toFloat_beq_self (x : Binary32) : (x.toFloat == x.toFloat) = !x.isNaN := by
  rw [beq_self_float, isNaN_toFloat]

end Binary32

end ScreenFusion
