import Mathlib
import ScreenFusion.Number.Rounding

/-!
# ScreenFusion.Proofs.Number.Binary64 — products and quotients of positive numbers

A positive normal number is `m · 2^e` with a mantissa `m` of 53 bits.  Products and quotients of such numbers are
computed with two more bits that say where between two mantissas the exact result lies, and rounded to the nearer
mantissa.  So what comes out is off by at most half a unit of its last place.

* `Approximates`: what a mantissa and its two extra bits say of a number.
* `exists_roundWithAccuracy`: what rounding gives.
* `IsNormal`: a float as a mantissa and an exponent, and how it is decoded.
* `isNormal_toFloat`, `IsNormal.mul`, `IsNormal.div`: words as floats, products and quotients.
* `Dyadic.round_eq_floor`: what a float becomes as a whole number.
-/

namespace ScreenFusion

open Float.Model (Format totalExponent)

open Float.Model.UnpackedFloat

/-! ## Two extra bits -/

/-- The least number that a mantissa with its round bit stands for. -/
def lowest (em : ExtendedMantissa) : ℚ := em.mantissa + if em.roundBit then 1 / 2 else 0

/-- A number lies where a mantissa and its two extra bits say: less than half a unit above the mantissa with the round
bit, and at it unless the sticky bit is set. -/
def Approximates (em : ExtendedMantissa) (x : ℚ) : Prop :=
  if em.stickyBit then lowest em < x ∧ x < lowest em + 1 / 2 else x = lowest em

theorem lowest_shiftRightOne (em : ExtendedMantissa) : lowest em.shiftRightOne = em.mantissa / 2 := by
  have hm : ((em.mantissa % 2 : ℕ) : ℚ) + 2 * (em.mantissa / 2 : ℕ) = em.mantissa := by
    exact_mod_cast Nat.mod_add_div em.mantissa 2
  show ((em.mantissa / 2 : ℕ) : ℚ) + (if (em.mantissa % 2 != 0) = true then 1 / 2 else 0) = _
  rcases Nat.mod_two_eq_zero_or_one em.mantissa with h | h
  · rw [h, Nat.cast_zero] at hm
    rw [h, if_neg (by decide)]
    linarith
  · rw [h, Nat.cast_one] at hm
    rw [h, if_pos (by decide)]
    linarith

namespace Approximates

variable {em : ExtendedMantissa} {m d : Nat} {x : ℚ}

theorem exact (m : Nat) : Approximates (.ofMantissaAndAccuracy m .exact) m := by
  simp [Approximates, lowest, ExtendedMantissa.ofMantissaAndAccuracy]

theorem inexact {o : Ordering} (hlow : m < x) (hhigh : x < m + 1) (ho : compare x (m + 1 / 2) = o) :
    Approximates (.ofMantissaAndAccuracy m (.inexact o)) x := by
  cases o with
  | lt =>
    have hhalf := compare_lt_iff_lt.1 ho
    simp only [Approximates, lowest, ExtendedMantissa.ofMantissaAndAccuracy, if_true, Bool.false_eq_true, if_false,
      add_zero]
    exact ⟨hlow, hhalf⟩
  | eq =>
    simpa [Approximates, lowest, ExtendedMantissa.ofMantissaAndAccuracy] using compare_eq_iff_eq.1 ho
  | gt =>
    have hhalf := compare_gt_iff_gt.1 ho
    simp only [Approximates, lowest, ExtendedMantissa.ofMantissaAndAccuracy, if_true]
    exact ⟨hhalf, by linarith⟩

/-- A quotient lies where its remainder says. -/
theorem quotient (m : Nat) (hd : 0 < d) :
    Approximates (.ofMantissaAndAccuracy (m / d) (accuracyOfFraction (m % d) d)) (m / d) := by
  have hd' : (0 : ℚ) < d := by exact_mod_cast hd
  have hx : (m / d : ℚ) = (m / d : ℕ) + (m % d : ℕ) / d := by
    rw [eq_comm, add_comm, div_add' _ _ _ hd'.ne', mul_comm]
    exact congrArg (· / (d : ℚ)) (by exact_mod_cast Nat.mod_add_div m d)
  have hlt : ((m % d : ℕ) : ℚ) / d < 1 := by
    rw [div_lt_one hd']
    exact_mod_cast Nat.mod_lt m hd
  rw [hx]
  unfold accuracyOfFraction
  split
  · next h =>
    rw [h, Nat.cast_zero, zero_div, add_zero]
    exact exact _
  · next h =>
    have hpos : (0 : ℚ) < (m % d : ℕ) / d := div_pos (by exact_mod_cast Nat.pos_of_ne_zero h) hd'
    refine inexact (by linarith) (by linarith) ?_
    rcases lt_trichotomy (2 * (m % d)) d with hc | hc | hc
    · have hc' : (2 * (m % d : ℕ) : ℚ) < d := by exact_mod_cast hc
      rw [Nat.compare_eq_lt.2 hc, compare_lt_iff_lt, add_lt_add_iff_left, div_lt_iff₀ hd']
      linarith
    · have hc' : (2 * (m % d : ℕ) : ℚ) = d := by exact_mod_cast hc
      rw [Nat.compare_eq_eq.2 hc, compare_eq_iff_eq, add_right_inj, div_eq_iff hd'.ne']
      linarith
    · have hc' : (d : ℚ) < 2 * (m % d : ℕ) := by exact_mod_cast hc
      rw [Nat.compare_eq_gt.2 hc, compare_gt_iff_gt, add_lt_add_iff_left, lt_div_iff₀ hd']
      linarith

/-- Shifting a bit out leaves the extra bits right about half of the number. -/
theorem shiftRightOne (h : Approximates em x) : Approximates em.shiftRightOne (x / 2) := by
  obtain ⟨m, r, s⟩ := em
  unfold Approximates
  rw [lowest_shiftRightOne]
  cases s with
  | false =>
    have hx : x = m + if r = true then 1 / 2 else 0 := h
    cases r with
    | false =>
      rw [if_neg Bool.false_ne_true, add_zero] at hx
      show x / 2 = m / 2
      rw [hx]
    | true =>
      rw [if_pos rfl] at hx
      show (m : ℚ) / 2 < x / 2 ∧ x / 2 < m / 2 + 1 / 2
      constructor <;> linarith
  | true =>
    have hx : (m : ℚ) + (if r = true then 1 / 2 else 0) < x ∧ x < m + (if r = true then 1 / 2 else 0) + 1 / 2 := h
    have hr : (0 : ℚ) ≤ (if r = true then 1 / 2 else 0) ∧ (if r = true then 1 / 2 else 0) ≤ (1 / 2 : ℚ) := by
      split <;> norm_num
    show (if (r || true) = true then (m : ℚ) / 2 < x / 2 ∧ x / 2 < m / 2 + 1 / 2 else _)
    rw [Bool.or_true, if_pos rfl]
    constructor <;> linarith [hx.1, hx.2, hr.1, hr.2]

theorem shiftRight (h : Approximates em x) (k : Nat) : Approximates (em >>> k) (x / 2 ^ k) := by
  induction k with
  | zero =>
    rw [pow_zero, div_one]
    exact h
  | succ k ih =>
    rw [pow_succ, ← div_div]
    exact ih.shiftRightOne

/-- Rounding is to the nearer mantissa. -/
theorem abs_sub_le (h : Approximates em x) : |(em.roundedMantissa : ℚ) - x| ≤ 1 / 2 := by
  obtain ⟨m, r, s⟩ := em
  rw [abs_le]
  cases r <;> cases s
  · have hx : x = m + 0 := h
    show -(1 / 2) ≤ (m : ℚ) - x ∧ (m : ℚ) - x ≤ 1 / 2
    constructor <;> linarith
  · have hx : (m : ℚ) + 0 < x ∧ x < m + 0 + 1 / 2 := h
    show -(1 / 2) ≤ (m : ℚ) - x ∧ (m : ℚ) - x ≤ 1 / 2
    constructor <;> linarith [hx.1, hx.2]
  · have hx : x = m + 1 / 2 := h
    have hodd : ((m % 2 : ℕ) : ℚ) ≤ 1 := by exact_mod_cast Nat.le_of_lt_succ (Nat.mod_lt m two_pos)
    show -(1 / 2) ≤ ((m + m % 2 : ℕ) : ℚ) - x ∧ ((m + m % 2 : ℕ) : ℚ) - x ≤ 1 / 2
    rw [Nat.cast_add]
    constructor <;> linarith [Nat.cast_nonneg (α := ℚ) (m % 2)]
  · have hx : (m : ℚ) + 1 / 2 < x ∧ x < m + 1 / 2 + 1 / 2 := h
    show -(1 / 2) ≤ ((m + 1 : ℕ) : ℚ) - x ∧ ((m + 1 : ℕ) : ℚ) - x ≤ 1 / 2
    rw [Nat.cast_add, Nat.cast_one]
    constructor <;> linarith [hx.1, hx.2]

end Approximates

/-! ## Rounding -/

theorem mantissa_shiftRight (em : ExtendedMantissa) (k : Nat) : (em >>> k).mantissa = em.mantissa / 2 ^ k := by
  induction k with
  | zero => exact (Nat.div_one em.mantissa).symm
  | succ k ih =>
    rw [Nat.pow_succ, ← Nat.div_div_eq_div_mul, ← ih]
    rfl

theorem mantissa_ofMantissaAndAccuracy (m : Nat) (accuracy : Accuracy) :
    (ExtendedMantissa.ofMantissaAndAccuracy m accuracy).mantissa = m := by
  rcases accuracy with _ | _ | _ | _ <;> rfl

theorem roundedMantissa_mem (em : ExtendedMantissa) :
    em.mantissa ≤ em.roundedMantissa ∧ em.roundedMantissa ≤ em.mantissa + 1 := by
  obtain ⟨m, r, s⟩ := em
  cases r <;> cases s
  · exact ⟨Nat.le_refl m, Nat.le_succ m⟩
  · exact ⟨Nat.le_refl m, Nat.le_succ m⟩
  · show m ≤ m + m % 2 ∧ m + m % 2 ≤ m + 1
    omega
  · exact ⟨Nat.le_succ m, Nat.le_refl _⟩

theorem shiftToTargetExponent_eq {m k : Nat} {e : Int} (accuracy : Accuracy) (hm : m.log2 = 52 + k)
    (he : -1074 ≤ e + k) :
    shiftToTargetExponent Format.binary64 m e accuracy =
      (ExtendedMantissa.ofMantissaAndAccuracy m accuracy >>> k, e + k) := by
  have htarget : Format.binary64.targetExponent (totalExponent m e) = e + k := by
    simp only [Format.targetExponent, totalExponent, hm, Format.mantissaBits, Format.minExponent]
    omega
  have hshift : (e + k - e).toNat = k := by omega
  rw [shiftToTargetExponent, htarget, shiftToExponent, hshift]

theorem log2_eq_of_mem {m : Nat} (hlow : 2 ^ 52 ≤ m) (hhigh : m < 2 ^ 53) : m.log2 = 52 :=
  (Nat.log2_eq_iff (by omega)).2 ⟨hlow, hhigh⟩

/-- Rounding ends with a mantissa of 53 bits, if all bits beyond them are zero once the extra bits are gone. -/
theorem roundWithAccuracy_eq {m n j : Nat} {e f : Int} {accuracy : Accuracy} {em : ExtendedMantissa} (sign : Sign)
    (hshifted : shiftToTargetExponent Format.binary64 m e accuracy = (em, f)) (hn : em.roundedMantissa = n * 2 ^ j)
    (hlog : em.roundedMantissa.log2 = 52 + j) (hf : -1074 ≤ f + j) (hpos : 0 < n) :
    roundWithAccuracy Format.binary64 sign m e accuracy = .finite sign n (f + j) hpos := by
  have hmantissa : (ExtendedMantissa.ofMantissaAndAccuracy em.roundedMantissa .exact >>> j).mantissa = n := by
    rw [mantissa_shiftRight, mantissa_ofMantissaAndAccuracy, hn, Nat.mul_div_cancel _ (Nat.two_pow_pos j)]
  rw [roundWithAccuracy, hshifted]
  dsimp only
  rw [shiftToTargetExponent_eq .exact hlog hf]
  simp only [hmantissa, dif_neg hpos.ne']

theorem Approximates.abs_scaled_le {em : ExtendedMantissa} {x : ℚ} {k : Nat} (h : Approximates em (x / 2 ^ k))
    (e : Int) :
    |(em.roundedMantissa : ℚ) * 2 ^ (e + k) - x * 2 ^ e| ≤ 2 ^ (e + k) / 2 := by
  have hpow : (0 : ℚ) < 2 ^ (e + k) := zpow_pos two_pos _
  have hfactor : (em.roundedMantissa : ℚ) * 2 ^ (e + k) - x * 2 ^ e =
      (em.roundedMantissa - x / 2 ^ k) * 2 ^ (e + k) := by
    rw [zpow_add₀ two_ne_zero, zpow_natCast]
    field_simp
  rw [hfactor, abs_mul, abs_of_pos hpow]
  linarith [mul_le_mul_of_nonneg_right h.abs_sub_le hpow.le]

/-- What rounding gives of a number of which 53 bits or more are known. -/
theorem exists_roundWithAccuracy {m k : Nat} {e : Int} {accuracy : Accuracy} {x : ℚ} (sign : Sign)
    (hx : Approximates (.ofMantissaAndAccuracy m accuracy) x) (hm : m.log2 = 52 + k) (he : -1074 ≤ e + k) :
    ∃ (n : Nat) (f : Int) (hn : 0 < n), 2 ^ 52 ≤ n ∧ n < 2 ^ 53 ∧ e + k ≤ f ∧ f ≤ e + k + 1 ∧
      roundWithAccuracy Format.binary64 sign m e accuracy = .finite sign n f hn ∧
      |(n : ℚ) * 2 ^ f - x * 2 ^ e| ≤ 2 ^ f / 2 := by
  have hpow : (0 : ℚ) < 2 ^ (e + k) := zpow_pos two_pos _
  have hshifted := shiftToTargetExponent_eq accuracy hm he
  have herror := (hx.shiftRight k).abs_scaled_le e
  obtain ⟨hrlow, hrhigh⟩ := roundedMantissa_mem (ExtendedMantissa.ofMantissaAndAccuracy m accuracy >>> k)
  rw [mantissa_shiftRight, mantissa_ofMantissaAndAccuracy] at hrlow hrhigh
  generalize (ExtendedMantissa.ofMantissaAndAccuracy m accuracy >>> k) = em at hrlow hrhigh herror hshifted
  obtain ⟨hmlow, hmhigh⟩ := (Nat.log2_eq_iff (by rintro rfl; rw [Nat.log2_zero] at hm; omega)).1 hm
  have hlow : 2 ^ 52 ≤ em.roundedMantissa := by
    refine Nat.le_trans ((Nat.le_div_iff_mul_le (Nat.two_pow_pos k)).2 ?_) hrlow
    rwa [← Nat.pow_add]
  have hhigh : em.roundedMantissa ≤ 2 ^ 53 := by
    refine Nat.le_trans hrhigh ((Nat.div_lt_iff_lt_mul (Nat.two_pow_pos k)).2 ?_)
    rwa [← Nat.pow_add, Nat.add_right_comm 52 1 k]
  rcases Nat.lt_or_eq_of_le hhigh with hlt | heq
  · have hpos : 0 < em.roundedMantissa := Nat.lt_of_lt_of_le (Nat.two_pow_pos 52) hlow
    have hround :=
      roundWithAccuracy_eq (j := 0) sign hshifted (Nat.mul_one _).symm (log2_eq_of_mem hlow hlt) (by omega) hpos
    rw [Nat.cast_zero, add_zero] at hround
    exact ⟨_, _, hpos, hlow, hlt, le_refl _, by omega, hround, herror⟩
  · -- The mantissa has become a bit too long, and its last bit is zero.
    refine ⟨2 ^ 52, e + k + 1, by decide, Nat.le_refl _, by decide, by omega, le_refl _, ?_, ?_⟩
    · exact roundWithAccuracy_eq (j := 1) sign hshifted heq (by rw [heq, Nat.log2_two_pow]) (by omega) (by decide)
    · have hvalue : ((2 ^ 52 : ℕ) : ℚ) * 2 ^ (e + k + 1) = em.roundedMantissa * 2 ^ (e + k) := by
        rw [heq, zpow_add_one₀ two_ne_zero]
        push_cast
        ring
      rw [hvalue, zpow_add_one₀ two_ne_zero]
      linarith

/-! ## Floats as numbers -/

/-- Whether a sign is that of negative numbers. -/
def isNegative : Sign → Bool
  | .negative => true
  | .positive => false

/-- What a float stands for whose fields are taken apart. -/
def decodedUnpacked : Float.Model.UnpackedFloat → Decoded
  | .notANumber => .nan
  | .infinity s => .infinite (isNegative s)
  | .zero s => .finite ⟨isNegative s, 0, -1074⟩
  | .finite s m e _ => .finite ⟨isNegative s, m, e⟩

theorem toNat_implicit_bit (b : BitVec 52) : (1#1 ++ b).toNat = 2 ^ 52 + b.toNat := by
  rw [BitVec.toNat_append, ← Nat.shiftLeft_add_eq_or_of_lt b.isLt]
  rfl

/-- The sign of a float is its topmost bit. -/
theorem isNegative_unpackSign (b : BitVec 64) :
    isNegative (Sign.ofBitVec (@unpackSign Format.binary64 b)) = decide (2 ^ 63 ≤ b.toNat) := by
  have hbit : (@unpackSign Format.binary64 b).toNat = b.toNat / 2 ^ 63 := by
    have hlt : b.toNat / 2 ^ 63 < 2 := Nat.div_lt_of_lt_mul b.isLt
    rw [← Nat.mod_eq_of_lt hlt]
    simp [unpackSign, Nat.shiftRight_eq_div_pow]
  have hzero : @unpackSign Format.binary64 b = 0#1 ↔ b.toNat / 2 ^ 63 = 0 := by
    rw [← hbit]
    exact BitVec.toNat_inj.symm
  unfold Sign.ofBitVec
  by_cases h : 2 ^ 63 ≤ b.toNat
  · rw [if_neg (mt hzero.1 (Nat.div_pos h (Nat.two_pow_pos 63)).ne'), decide_eq_true h]
    rfl
  · rw [if_pos (hzero.2 (Nat.div_eq_of_lt (Nat.lt_of_not_le h))), decide_eq_false h]
    rfl

/-- Decoding a float is taking its fields apart. -/
theorem ofFloat64_eq (x : Float) : Decoded.ofFloat64 x = decodedUnpacked x.toModel.unpack := by
  generalize hb : x.toModel.toBits.toBitVec = b
  have hexponent : (@unpackExponent Format.binary64 b).toNat = b.toNat / 2 ^ 52 % 2 ^ 11 := by
    simp [unpackExponent, Nat.shiftRight_eq_div_pow]
  have hmantissa : (@unpackMantissa Format.binary64 b).toNat = b.toNat % 2 ^ 52 := by
    simp [unpackMantissa]
  have hfields : Decoded.ofFloat64 x = Decoded.ofFields 11 52 (2 ^ 63 ≤ b.toNat) (b.toNat / 2 ^ 52 % 2 ^ 11)
      (b.toNat % 2 ^ 52) := by
    rw [← hb]
    rfl
  have hunpack : x.toModel.unpack = Float.Model.UnpackedFloat.unpack Format.binary64 b := by
    rw [← hb]
    rfl
  rw [hfields, hunpack, ← hexponent, ← hmantissa, ← isNegative_unpackSign]
  have hones : @unpackExponent Format.binary64 b = -1#11 ↔ (@unpackExponent Format.binary64 b).toNat = 2047 :=
    BitVec.toNat_inj.symm
  have hnone : @unpackExponent Format.binary64 b = 0#11 ↔ (@unpackExponent Format.binary64 b).toNat = 0 :=
    BitVec.toNat_inj.symm
  have hzero : @unpackMantissa Format.binary64 b = 0#52 ↔ (@unpackMantissa Format.binary64 b).toNat = 0 :=
    BitVec.toNat_inj.symm
  unfold Float.Model.UnpackedFloat.unpack Decoded.ofFields
  dsimp only
  by_cases h1 : @unpackExponent Format.binary64 b = -1#11
  · rw [if_pos h1, if_pos (hones.1 h1)]
    by_cases h0 : @unpackMantissa Format.binary64 b = 0#52
    · rw [if_pos h0, if_pos (hzero.1 h0)]
      rfl
    · rw [if_neg h0, if_neg (mt hzero.2 h0)]
      rfl
  · rw [if_neg h1, if_neg (mt hones.2 h1)]
    by_cases h2 : @unpackExponent Format.binary64 b = 0#11
    · rw [if_pos h2, if_pos (hnone.1 h2)]
      by_cases h0 : @unpackMantissa Format.binary64 b = 0#52
      · rw [dif_pos h0, hzero.1 h0]
        rfl
      · rw [dif_neg h0, hnone.1 h2]
        rfl
    · rw [if_neg h2, if_neg (mt hnone.2 h2)]
      simp only [decodedUnpacked, toNat_implicit_bit]
      rfl

/-! ## Positive normal numbers -/

theorem unpackSign_packComponents (sign : Sign) (exponent : BitVec 11) (mantissa : BitVec 52) :
    unpackSign (packComponents Format.binary64 sign exponent mantissa) = sign.toBitVec := by
  show (sign.toBitVec ++ exponent ++ mantissa).extractLsb' 63 1 = sign.toBitVec
  rw [BitVec.extractLsb'_append_eq_of_le (by decide), BitVec.extractLsb'_append_eq_of_le (by decide)]
  cases sign <;> rfl

/-- Fields of a normal number are put together and taken apart again. -/
theorem unpack_packComponents (sign : Sign) {exponent : BitVec 11} (mantissa : BitVec 52) (hones : exponent ≠ -1#11)
    (hnone : exponent ≠ 0#11) :
    Float.Model.UnpackedFloat.unpack Format.binary64 (packComponents Format.binary64 sign exponent mantissa) =
      .finite sign (2 ^ 52 + mantissa.toNat) (exponent.toNat - 1075) (Nat.add_pos_left (Nat.two_pow_pos 52) _) := by
  have hsign : Sign.ofBitVec sign.toBitVec = sign := by cases sign <;> rfl
  unfold Float.Model.UnpackedFloat.unpack
  simp only [unpackExponent_packComponents, unpackMantissa_packComponents, unpackSign_packComponents, hsign,
    toNat_implicit_bit, if_neg hones, if_neg hnone]
  rfl

theorem pack_normal {m : Nat} {e : Int} {hm : 0 < m} (hlow : 2 ^ 52 ≤ m) (hhigh : m < 2 ^ 53) (hleast : -1074 ≤ e)
    (hgreatest : e ≤ 971) :
    Float.Model.UnpackedFloat.pack Format.binary64 (.finite .positive m e hm) =
      packComponents Format.binary64 .positive (BitVec.ofNat 11 (e + 1075).toNat) (BitVec.ofNat 52 m) := by
  have hbiased : e + (Format.binary64.exponentBias : Int) + (Format.binary64.mantissaBitsWithoutImplicit : Int) =
      e + 1075 := by
    show e + 1023 + 52 = e + 1075
    omega
  have hfits : ¬2 ^ Format.binary64.exponentBits ≤ (e + 1075).toNat + 1 := by
    show ¬2048 ≤ (e + 1075).toNat + 1
    omega
  rw [Float.Model.UnpackedFloat.pack]
  dsimp only
  rw [hbiased, if_neg hfits, if_pos (by rw [log2_eq_of_mem hlow hhigh]; rfl)]

/-- A float is the positive number `m · 2^e`, with all 53 bits of the mantissa. -/
structure IsNormal (x : Float) (m : Nat) (e : Int) : Prop where
  low : 2 ^ 52 ≤ m
  high : m < 2 ^ 53
  least : -1074 ≤ e
  greatest : e ≤ 971
  model : x.toModel = .pack (.finite .positive m e (Nat.lt_of_lt_of_le (Nat.two_pow_pos 52) low))

namespace IsNormal

variable {x y : Float} {m n : Nat} {e f : Int}

theorem pos (h : IsNormal x m e) : 0 < m := Nat.lt_of_lt_of_le (Nat.two_pow_pos 52) h.low

theorem unpack (h : IsNormal x m e) : x.toModel.unpack = .finite .positive m e h.pos := by
  have hexponent : (BitVec.ofNat 11 (e + 1075).toNat).toNat = (e + 1075).toNat := by
    have hlt : (e + 1075).toNat < 2 ^ 11 := by have := h.greatest; omega
    rw [BitVec.toNat_ofNat, Nat.mod_eq_of_lt hlt]
  have hones : BitVec.ofNat 11 (e + 1075).toNat ≠ -1#11 := by
    intro h1
    have h2 : (e + 1075).toNat = 2047 := hexponent.symm.trans ((congrArg BitVec.toNat h1).trans (by decide))
    have := h.greatest
    omega
  have hnone : BitVec.ofNat 11 (e + 1075).toNat ≠ 0#11 := by
    intro h1
    have h2 : (e + 1075).toNat = 0 := hexponent.symm.trans ((congrArg BitVec.toNat h1).trans (by decide))
    have := h.least
    omega
  have hmantissa : 2 ^ 52 + (BitVec.ofNat 52 m).toNat = m := by
    have hlow := h.low
    have hhigh := h.high
    rw [BitVec.toNat_ofNat]
    omega
  rw [h.model]
  show Float.Model.UnpackedFloat.unpack Format.binary64 (Float.Model.UnpackedFloat.pack Format.binary64 _) = _
  rw [pack_normal h.low h.high h.least h.greatest, unpack_packComponents _ _ hones hnone]
  have hvalue : ((BitVec.ofNat 11 (e + 1075).toNat).toNat : Int) - 1075 = e := by
    have := h.least
    omega
  simp only [hmantissa, hvalue]

theorem decoded (h : IsNormal x m e) : Decoded.ofFloat64 x = .finite ⟨false, m, e⟩ := by
  rw [ofFloat64_eq, h.unpack]
  rfl

theorem mul (hx : IsNormal x m e) (hy : IsNormal y n f) (hlow : -1126 ≤ e + f) (hhigh : e + f ≤ 917) :
    ∃ k g, IsNormal (x * y) k g ∧ e + f + 52 ≤ g ∧ g ≤ e + f + 54 ∧
      |(k : ℚ) * 2 ^ g - m * 2 ^ e * (n * 2 ^ f)| ≤ 2 ^ g / 2 := by
  have hlow' : 2 ^ 104 ≤ m * n := le_of_eq_of_le (by norm_num) (Nat.mul_le_mul hx.low hy.low)
  have hhigh' : m * n < 2 ^ 106 := lt_of_lt_of_eq (Nat.mul_lt_mul'' hx.high hy.high) (by norm_num)
  have hne : m * n ≠ 0 := (Nat.mul_pos hx.pos hy.pos).ne'
  have hlog : 104 ≤ (m * n).log2 ∧ (m * n).log2 < 106 := ⟨(Nat.le_log2 hne).2 hlow', (Nat.log2_lt hne).2 hhigh'⟩
  obtain ⟨k, g, hk, hklow, hkhigh, hg, hg', hround, herror⟩ :=
    exists_roundWithAccuracy (k := (m * n).log2 - 52) (e := e + f) .positive (Approximates.exact (m * n)) (by omega)
      (by omega)
  have hvalue : ((m * n : ℕ) : ℚ) * 2 ^ (e + f) = m * 2 ^ e * (n * 2 ^ f) := by
    rw [zpow_add₀ two_ne_zero, Nat.cast_mul]
    ring
  rw [hvalue] at herror
  refine ⟨k, g, ⟨hklow, hkhigh, by omega, by omega, ?_⟩, by omega, by omega, herror⟩
  show Float.Model.pack (Float.Model.UnpackedFloat.mul Format.binary64 x.toModel.unpack y.toModel.unpack) = _
  rw [hx.unpack, hy.unpack, ← hround]
  rfl

theorem div (hx : IsNormal x m e) (hy : IsNormal y n f) (hlow : -1021 ≤ e - f) (hhigh : e - f ≤ 1022) :
    ∃ k g, IsNormal (x / y) k g ∧ e - f - 53 ≤ g ∧ g ≤ e - f - 51 ∧
      |(k : ℚ) * 2 ^ g - m * 2 ^ e / (n * 2 ^ f)| ≤ 2 ^ g / 2 := by
  have hcore : divCore Format.binary64 m e n f =
      (m * 2 ^ 53 / n, e - f - 53, accuracyOfFraction (m * 2 ^ 53 % n) n) := by
    have htarget : Format.binary64.targetExponent (totalExponent m e - totalExponent n f) = e - f - 53 := by
      simp only [Format.targetExponent, totalExponent, log2_eq_of_mem hx.low hx.high, log2_eq_of_mem hy.low hy.high,
        Format.mantissaBits, Format.minExponent]
      omega
    have hshift : (e - f - (e - f - 53)).toNat = 53 := by omega
    rw [divCore, htarget, Int.min_eq_right (by omega), hshift, Nat.shiftLeft_eq]
  have hlow' : 2 ^ 52 ≤ m * 2 ^ 53 / n := by
    rw [Nat.le_div_iff_mul_le hy.pos]
    exact Nat.mul_le_mul hx.low hy.high.le
  have hhigh' : m * 2 ^ 53 / n < 2 ^ 54 := by
    rw [Nat.div_lt_iff_lt_mul hy.pos]
    calc m * 2 ^ 53 < 2 ^ 53 * 2 ^ 53 := Nat.mul_lt_mul_of_pos_right hx.high (Nat.two_pow_pos 53)
      _ = 2 ^ 54 * 2 ^ 52 := by norm_num
      _ ≤ 2 ^ 54 * n := Nat.mul_le_mul_left _ hy.low
  have hne : m * 2 ^ 53 / n ≠ 0 := (Nat.lt_of_lt_of_le (Nat.two_pow_pos 52) hlow').ne'
  have hlog : 52 ≤ (m * 2 ^ 53 / n).log2 ∧ (m * 2 ^ 53 / n).log2 < 54 :=
    ⟨(Nat.le_log2 hne).2 hlow', (Nat.log2_lt hne).2 hhigh'⟩
  obtain ⟨k, g, hk, hklow, hkhigh, hg, hg', hround, herror⟩ :=
    exists_roundWithAccuracy (k := (m * 2 ^ 53 / n).log2 - 52) (e := e - f - 53) .positive
      (Approximates.quotient (m * 2 ^ 53) hy.pos) (by omega) (by omega)
  have hvalue : ((m * 2 ^ 53 : ℕ) : ℚ) / n * 2 ^ (e - f - 53) = m * 2 ^ e / (n * 2 ^ f) := by
    rw [zpow_sub₀ two_ne_zero, zpow_sub₀ two_ne_zero]
    push_cast
    have hn : (n : ℚ) ≠ 0 := by exact_mod_cast hy.pos.ne'
    field_simp
  rw [hvalue] at herror
  refine ⟨k, g, ⟨hklow, hkhigh, by omega, by omega, ?_⟩, by omega, by omega, herror⟩
  show Float.Model.pack (Float.Model.UnpackedFloat.div Format.binary64 x.toModel.unpack y.toModel.unpack) = _
  rw [hx.unpack, hy.unpack, Float.Model.UnpackedFloat.div, hcore, ← hround]
  rfl

end IsNormal

/-- A word above zero as a float. -/
theorem isNormal_toFloat {n : UInt32} (hn : 0 < n.toNat) :
    ∃ m e, IsNormal n.toFloat m e ∧ -52 ≤ e ∧ e ≤ -21 ∧ (m : ℚ) * 2 ^ e = n.toNat := by
  have hlog : n.toNat.log2 < 32 := (Nat.log2_lt hn.ne').2 n.toNat_lt
  obtain ⟨k, hk⟩ : ∃ k, n.toNat.log2 + k = 52 := ⟨52 - n.toNat.log2, by omega⟩
  have hlow : 2 ^ 52 ≤ n.toNat * 2 ^ k := by
    rw [← hk, Nat.pow_add]
    exact Nat.mul_le_mul_right _ (Nat.log2_self_le hn.ne')
  have hhigh : n.toNat * 2 ^ k < 2 ^ 53 := by
    have hlt : n.toNat < 2 ^ (n.toNat.log2 + 1) := Nat.lt_log2_self
    calc n.toNat * 2 ^ k < 2 ^ (n.toNat.log2 + 1) * 2 ^ k := Nat.mul_lt_mul_of_pos_right hlt (Nat.two_pow_pos k)
      _ = 2 ^ 53 := by rw [← Nat.pow_add, Nat.add_right_comm, hk]
  have hpos : 0 < n.toNat * 2 ^ k := Nat.mul_pos hn (Nat.two_pow_pos k)
  have htarget : Format.binary64.targetExponent (totalExponent n.toNat 0) = -k := by
    simp only [Format.targetExponent, totalExponent, Format.mantissaBits, Format.minExponent]
    omega
  have hround : Float.Model.UnpackedFloat.round Format.binary64 .positive n.toNat 0 =
      .finite .positive (n.toNat * 2 ^ k) (-k) hpos := by
    have hexact := roundWithAccuracy_eq (j := 0) .positive
      (shiftToTargetExponent_eq (k := 0) (e := -k) .exact (log2_eq_of_mem hlow hhigh) (by omega)) (Nat.mul_one _).symm
      (log2_eq_of_mem hlow hhigh) (by omega) hpos
    rw [Nat.cast_zero, add_zero, add_zero] at hexact
    have hshift : (0 - -(k : Int)).toNat = k := by omega
    rw [Float.Model.UnpackedFloat.round, htarget, decreaseExponent, hshift, Nat.shiftLeft_eq]
    dsimp only
    rw [zero_sub]
    exact hexact
  refine ⟨n.toNat * 2 ^ k, -k, ⟨hlow, hhigh, by omega, by omega, ?_⟩, by omega, by omega, ?_⟩
  · show Float.Model.pack (Float.Model.UnpackedFloat.normalize Format.binary64 n.toNat 0 .positive) = _
    rw [Float.Model.UnpackedFloat.normalize, Int.compare_eq_gt.2 (by omega)]
    dsimp only
    rw [Int.toNat_natCast, hround]
  · rw [zpow_neg, zpow_natCast]
    push_cast
    field_simp

/-! ## Zero -/

/-- A float is the positive zero. -/
def IsZero (x : Float) : Prop := x.toModel.unpack = .zero .positive

theorem isZero_toFloat : IsZero (0 : UInt32).toFloat := rfl

namespace IsZero

variable {x y : Float} {m : Nat} {e : Int}

theorem decoded (h : IsZero x) : Decoded.ofFloat64 x = .finite ⟨false, 0, -1074⟩ := by
  rw [ofFloat64_eq, h]
  rfl

theorem mul (hx : IsZero x) (hy : IsNormal y m e) : IsZero (x * y) := by
  have hmodel : (x * y).toModel = .pack (.zero .positive) := by
    show Float.Model.pack (Float.Model.UnpackedFloat.mul Format.binary64 x.toModel.unpack y.toModel.unpack) = _
    rw [hx, hy.unpack]
    rfl
  rw [IsZero, hmodel]
  rfl

theorem div (hx : IsZero x) (hy : IsNormal y m e) : IsZero (x / y) := by
  have hmodel : (x / y).toModel = .pack (.zero .positive) := by
    show Float.Model.pack (Float.Model.UnpackedFloat.div Format.binary64 x.toModel.unpack y.toModel.unpack) = _
    rw [hx, hy.unpack]
    rfl
  rw [IsZero, hmodel]
  rfl

end IsZero

/-! ## Whole numbers -/

/-- Rounding is down from half a unit above. -/
theorem Dyadic.round_eq_floor (m : Nat) (e : Int) :
    (⟨false, m, e⟩ : Dyadic).round = ⌊(m : ℚ) * 2 ^ e + 1 / 2⌋ := by
  by_cases he : 0 ≤ e
  · obtain ⟨k, rfl⟩ := Int.eq_ofNat_of_zero_le he
    have hround : (⟨false, m, (k : Int)⟩ : Dyadic).round = (m * 2 ^ k : ℕ) := by
      rw [Dyadic.round, if_pos he]
      rfl
    rw [hround, eq_comm, Int.floor_eq_iff, zpow_natCast]
    push_cast
    constructor <;> linarith
  · obtain ⟨k, hk⟩ := Int.eq_ofNat_of_zero_le (Int.neg_nonneg.2 (Int.le_of_not_le he))
    obtain rfl : e = -k := by omega
    have hround : (⟨false, m, -(k : Int)⟩ : Dyadic).round = ((2 * m + 2 ^ k) / (2 * 2 ^ k) : ℕ) := by
      rw [Dyadic.round, if_neg he, neg_neg]
      rfl
    have hvalue : (m : ℚ) * 2 ^ (-(k : Int)) + 1 / 2 = ((2 * m + 2 ^ k : ℕ) : ℚ) / (2 * 2 ^ k : ℕ) := by
      rw [zpow_neg, zpow_natCast]
      push_cast
      field_simp
    rw [hround, hvalue, Rat.floor_natCast_div_natCast, Int.natCast_ediv]

end ScreenFusion
