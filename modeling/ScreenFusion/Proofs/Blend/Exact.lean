import Mathlib.Data.Rat.Cast.Order
import Mathlib.Tactic.Linarith
import Mathlib.Tactic.NormNum
import Mathlib.Tactic.Ring
import ScreenFusion.Blend.Combine

/-!
# ScreenFusion.Proofs.Blend.Exact — blending in rational numbers

In rational numbers the operations of `Scalar` are the usual ones.  All functions but three interpolate from the base to
what their formula gives.

* `Rgba.mix_eq_mix_iff`: when two colours mixed into a third give the same.
* `BlendFunction.combine_of_interpolates`: the combined colour of a function that interpolates.
* `BlendFunction.combine_eq_self`: at opacity zero nothing is combined, whatever the function.
-/

namespace ScreenFusion

namespace Scalar

variable (x y t : ℚ)

@[simp] theorem zero_rat : (zero : ℚ) = 0 := rfl

@[simp] theorem one_rat : (one : ℚ) = 1 := rfl

@[simp] theorem two_rat : (two : ℚ) = 2 := rfl

@[simp] theorem half_rat : (half : ℚ) = 1 / 2 := rfl

@[simp] theorem least_rat : least x y = min x y := by
  rw [min_comm, min_def_lt]
  rfl

@[simp] theorem greatest_rat : greatest x y = max x y := by
  rw [max_def_lt]
  rfl

@[simp] theorem magnitude_rat : magnitude x = |x| := by
  rw [abs_eq_max_neg, max_comm, max_def]
  show (if x < 0 then -x else x) = _
  split <;> split <;> linarith

@[simp] theorem below_rat : below x y = decide (x < y) := rfl

@[simp] theorem atMost_rat : atMost x y = decide (x ≤ y) := rfl

theorem lerp_rat : lerp x y t = x + (y - x) * t := rfl

/-- The weights of the two ends add up to one. -/
theorem lerp_eq_weighted : lerp x y t = x * (1 - t) + y * t := by
  rw [lerp_rat]
  ring

@[simp] theorem lerp_zero : lerp x y 0 = x := by simp [lerp_rat]

theorem lerp_eq_lerp_iff {x y z t : ℚ} : lerp x y t = lerp x z t ↔ t = 0 ∨ y = z := by
  rw [lerp_rat, lerp_rat, add_right_inj, mul_eq_mul_right_iff, sub_left_inj, or_comm]

end Scalar

@[simp] theorem Rgba.mix_zero (c d : Rgba ℚ) : c.mix d 0 = c := by simp [mix, zipWith]

/-- What is mixed into a colour shows in the result, unless none of it is mixed in. -/
theorem Rgba.mix_eq_mix_iff {c d e : Rgba ℚ} {t : ℚ} : c.mix d t = c.mix e t ↔ t = 0 ∨ d = e := by
  obtain ⟨r, g, b, a⟩ := d
  obtain ⟨r', g', b', a'⟩ := e
  simp only [mix, zipWith, Rgba.mk.injEq, Scalar.lerp_eq_lerp_iff, ← or_and_left]

theorem Rgba.toList_inj {α : Type} {c d : Rgba α} : c.toList = d.toList ↔ c = d := by
  obtain ⟨r, g, b, a⟩ := c
  obtain ⟨r', g', b', a'⟩ := d
  simp [Rgba.toList]

namespace BlendFunction

open Scalar

/-- The function interpolates from the base to what its formula gives. -/
def Interpolates (f : BlendFunction) : Prop := f ≠ skip ∧ f ≠ add ∧ f ≠ alpha

instance (f : BlendFunction) : Decidable f.Interpolates := inferInstanceAs (Decidable (_ ∧ _))

/-- The functions that do not interpolate, one by one, and then those that do. -/
theorem interpolates_cases (f : BlendFunction) : f = skip ∨ f = add ∨ f = alpha ∨ f.Interpolates := by
  unfold Interpolates
  tauto

theorem combine_of_interpolates {α : Type} [Scalar α] {f : BlendFunction} (hf : f.Interpolates) (base new : Rgba α)
    (opacity : α) : f.combine base new opacity =
      base.mix ⟨f.channel base.r new.r, f.channel base.g new.g, f.channel base.b new.b, new.a⟩ opacity := by
  obtain ⟨hskip, hadd, halpha⟩ := hf
  cases f <;> first | rfl | contradiction

/-- At opacity zero nothing is combined. -/
theorem combine_eq_self (f : BlendFunction) (base new : Rgba ℚ) : f.combine base new 0 = base := by
  obtain rfl | rfl | rfl | hf := f.interpolates_cases
  · rfl
  · simp [combine, Rgba.zipWith]
  · simp [combine]
  · simp [combine_of_interpolates hf]

end BlendFunction

end ScreenFusion
