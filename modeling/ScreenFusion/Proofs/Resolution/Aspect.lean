import ScreenFusion.Proofs.Number.Binary64
import ScreenFusion.Resolution

/-!
# ScreenFusion.Proofs.Resolution.Aspect — an axis that follows an override of the other one

Where one axis is overridden, the other axis is to have the proportion to it that the base has.  Lengths are computed with
floats, and a product of lengths is rounded before it is divided.  So a derived length is the nearest one to a number that
is very close to the exact proportion, and the nearest one to the exact proportion itself unless lengths are huge.

An overridden axis is at least one long, but the other axis follows the override as it was given.  So an override of zero
gives the proportion of the base only where it is less than three to two.

* `nearestLength`, `KeepsAspect`: the length that a proportion asks for.
* `nearestLength_of_unit`: a quotient that is rounded before asks for the same length.
* `exists_derived`: the number that a derived length is nearest to.
* `single_override_iff`: which overrides keep the proportion of the base, and which that come to the same effective length
  give the same size.
-/

namespace ScreenFusion

/-! ## Lengths for numbers -/

/-- The nearest length to a number. -/
def nearestLength (x : ℚ) : ℕ := max 1 (min (2 ^ 32 - 1) ⌊x + 1 / 2⌋₊)

theorem nearestLength_zero : nearestLength 0 = 1 := by norm_num [nearestLength]

/-- The least length is nearest to what is less than one and a half. -/
theorem nearestLength_eq_one_iff {x : ℚ} (hx : 0 ≤ x) : nearestLength x = 1 ↔ x < 3 / 2 := by
  have hfloor : ⌊x + 1 / 2⌋₊ < 2 ↔ x < 3 / 2 := by
    rw [Nat.floor_lt (by positivity)]
    constructor <;> intro h <;> norm_num at h ⊢ <;> linarith
  rw [← hfloor, nearestLength]
  omega

/-- A length has the proportion to another one that the base lengths have: it is the nearest length to a number that
differs from the proportion by less than a float can tell, and the nearest one to the proportion if lengths are moderate. -/
structure KeepsAspect (length other base baseOther : ℕ) : Prop where
  close : ∃ x : ℚ, |x - other * base / baseOther| ≤ other * base / baseOther / 2 ^ 51 ∧ length = nearestLength x
  exact : other * base < 2 ^ 52 → length = nearestLength (other * base / baseOther)

section

variable {m n d a j : ℕ} {e : ℤ} {q : ℚ}

/-- A normal number is at least `2^52` units of its last place. -/
theorem le_of_unit (hm : 2 ^ 52 ≤ m) (e : ℤ) : 2 ^ 52 * (2 : ℚ) ^ e ≤ m * 2 ^ e := by
  have hm' : (2 : ℚ) ^ 52 ≤ m := by exact_mod_cast hm
  exact mul_le_mul_of_nonneg_right hm' (zpow_pos two_pos e).le

theorem cast_le_of_lt (hn : n < 2 ^ 52) : (n : ℚ) ≤ 2 ^ 52 - 1 := by
  have hn' : (n : ℚ) + 1 ≤ 2 ^ 52 := by exact_mod_cast hn
  exact le_sub_iff_add_le.2 hn'

/-- Half a unit of the last place as a part of the number. -/
theorem abs_sub_le_of_unit (hm : 2 ^ 52 ≤ m) (h : |(m : ℚ) * 2 ^ e - q| ≤ 2 ^ e / 2) :
    |(m : ℚ) * 2 ^ e - q| ≤ q * 3 / 2 ^ 54 := by
  have hunit := le_of_unit hm e
  have habs := le_abs_self ((m : ℚ) * 2 ^ e - q)
  have hnonneg := abs_nonneg ((m : ℚ) * 2 ^ e - q)
  norm_num at hunit ⊢
  linarith

/-- A number below `2^52` is rounded to a number with a fraction. -/
theorem neg_of_unit (hm : 2 ^ 52 ≤ m) (h : |(m : ℚ) * 2 ^ e - q| ≤ 2 ^ e / 2) (hq : q ≤ 2 ^ 52 - 1) : e < 0 := by
  by_contra he
  have hone : (1 : ℚ) ≤ 2 ^ e := one_le_zpow₀ one_le_two (Int.not_lt.1 he)
  have hunit := le_of_unit hm e
  have habs := le_abs_self ((m : ℚ) * 2 ^ e - q)
  norm_num at hunit hq
  linarith

/-- A rounded quotient of moderate numbers is on the same side as the quotient of the middle between two whole numbers.
With `a` the half of a power of two, `m / (2 * a)` is nearest to `n / d`. -/
theorem middles_of_unit (hm : 2 ^ 52 ≤ m) (hn : n < 2 ^ 52) (hd : 0 < d) (hlow : 4 * n * a ≤ 2 * m * d + d)
    (hhigh : 2 * m * d ≤ 4 * n * a + d) (hj : 2 * j * d ≤ 2 * n + d) (hj' : 2 * n + d < 2 * (j + 1) * d) :
    2 * j * a ≤ m + a ∧ m + a < 2 * (j + 1) * a := by
  constructor
  · by_contra hlt
    have hj2 := Nat.mul_le_mul_right (2 * a) hj
    have hlt2 := Nat.mul_le_mul_right (2 * d) (Nat.succ_le_of_lt (Nat.lt_of_not_le hlt))
    rw [Nat.succ_eq_add_one] at hlt2
    nlinarith
  · by_contra hle
    have hj2 := Nat.mul_le_mul_right (2 * a) (Nat.succ_le_of_lt hj')
    have hle2 := Nat.mul_le_mul_right (2 * d) (Nat.le_of_not_lt hle)
    rw [Nat.succ_eq_add_one] at hj2
    -- The quotient is so close below the middle that its denominator is as great as a unit of the last place.
    have had : 2 * a ≤ d := by nlinarith
    have hna : 2 * n * (2 * a) ≤ 2 * n * d := Nat.mul_le_mul_left _ had
    have hmn : 2 * m ≤ 2 * n + 1 := Nat.le_of_mul_le_mul_right (by nlinarith : 2 * m * d ≤ (2 * n + 1) * d) hd
    omega

theorem floor_half_eq_iff (n : ℕ) (hd : 0 < d) :
    ⌊(n / d : ℚ) + 1 / 2⌋₊ = j ↔ 2 * j * d ≤ 2 * n + d ∧ 2 * n + d < 2 * (j + 1) * d := by
  have hd' : (0 : ℚ) < 2 * d := by exact_mod_cast Nat.mul_pos two_pos hd
  have hvalue : (n / d : ℚ) + 1 / 2 = (2 * n + d) / (2 * d) := by
    field_simp
  have hcast (k : ℕ) : (k : ℚ) * (2 * d) = (2 * k * d : ℕ) := by
    push_cast
    ring
  have hsum : (2 * n + d : ℚ) = (2 * n + d : ℕ) := by push_cast; ring
  rw [hvalue, Nat.floor_eq_iff (by positivity), le_div_iff₀ hd', div_lt_iff₀ hd', hcast, hsum, ← Nat.cast_add_one, hcast,
    Nat.cast_le, Nat.cast_lt]

/-- The quotient of moderate numbers and what it is rounded to are nearest to the same length. -/
theorem nearestLength_of_unit (hm : 2 ^ 52 ≤ m) (hn : n < 2 ^ 52) (hd : 0 < d)
    (h : |(m : ℚ) * 2 ^ e - n / d| ≤ 2 ^ e / 2) : nearestLength (m * 2 ^ e) = nearestLength (n / d) := by
  have hd' : (0 : ℚ) < d := by exact_mod_cast hd
  have hquotient : (n / d : ℚ) ≤ n := div_le_self (Nat.cast_nonneg n) (by exact_mod_cast hd)
  have he := neg_of_unit hm h (hquotient.trans (cast_le_of_lt hn))
  obtain ⟨k, rfl⟩ : ∃ k : ℕ, e = -((k : ℤ) + 1) := ⟨(-e - 1).toNat, by omega⟩
  have hvalue : (m : ℚ) * 2 ^ (-((k : ℤ) + 1)) = m / (2 * 2 ^ k : ℕ) := by
    rw [zpow_neg, zpow_add_one₀ two_ne_zero, zpow_natCast]
    push_cast
    field_simp
  have hunit : (2 : ℚ) ^ (-((k : ℤ) + 1)) = 1 / (2 * 2 ^ k : ℕ) := by
    rw [zpow_neg, zpow_add_one₀ two_ne_zero, zpow_natCast]
    push_cast
    field_simp
  have ha : 0 < 2 ^ k := Nat.two_pow_pos k
  rw [hvalue, hunit] at h
  rw [hvalue]
  generalize 2 ^ k = a at h ha ⊢
  have hbounds : 4 * n * a ≤ 2 * m * d + d ∧ 2 * m * d ≤ 4 * n * a + d := by
    have hpos : (0 : ℚ) < 4 * a * d := by
      have ha' : (0 : ℚ) < a := by exact_mod_cast ha
      positivity
    have hdiff : (m / (2 * a : ℕ) : ℚ) - n / d = (2 * m * d - 4 * n * a) / (4 * a * d) := by
      push_cast
      field_simp
      ring
    have hhalf : (1 / (2 * a : ℕ) : ℚ) / 2 = d / (4 * a * d) := by
      push_cast
      field_simp
      norm_num
    rw [hdiff, hhalf, abs_div, abs_of_pos hpos, div_le_div_iff_of_pos_right hpos, abs_le] at h
    constructor
    · have hle : (4 * n * a : ℚ) ≤ 2 * m * d + d := by linarith [h.1]
      exact_mod_cast hle
    · have hle : (2 * m * d : ℚ) ≤ 4 * n * a + d := by linarith [h.2]
      exact_mod_cast hle
  have hfloor : ⌊(m / (2 * a : ℕ) : ℚ) + 1 / 2⌋₊ = ⌊(n / d : ℚ) + 1 / 2⌋₊ := by
    obtain ⟨hj, hj'⟩ := (floor_half_eq_iff n hd).1 rfl
    obtain ⟨hi, hi'⟩ := middles_of_unit hm hn hd hbounds.1 hbounds.2 hj hj'
    rw [floor_half_eq_iff m (Nat.mul_pos two_pos ha)]
    constructor
    · linarith
    · linarith
  rw [nearestLength, nearestLength, hfloor]

/-- A whole number below `2^52` is not rounded. -/
theorem eq_of_unit (hm : 2 ^ 52 ≤ m) (hn : n < 2 ^ 52) (h : |(m : ℚ) * 2 ^ e - n| ≤ 2 ^ e / 2) :
    (m : ℚ) * 2 ^ e = n := by
  have he := neg_of_unit hm h (cast_le_of_lt hn)
  obtain ⟨k, rfl⟩ : ∃ k : ℕ, e = -(k : ℤ) := ⟨(-e).toNat, by omega⟩
  have hpow : (0 : ℚ) < 2 ^ k := pow_pos two_pos k
  have hdiff : (m : ℚ) * 2 ^ (-(k : ℤ)) - n = (m - n * 2 ^ k) / 2 ^ k := by
    rw [zpow_neg, zpow_natCast]
    field_simp
  have hhalf : (2 : ℚ) ^ (-(k : ℤ)) / 2 = (1 / 2) / 2 ^ k := by
    rw [zpow_neg, zpow_natCast]
    field_simp
  rw [hdiff, hhalf, abs_div, abs_of_pos hpow, div_le_div_iff_of_pos_right hpow] at h
  have hzero : (m : ℤ) - n * 2 ^ k = 0 := by
    rw [← Int.abs_lt_one_iff]
    have hlt : |(m : ℚ) - n * 2 ^ k| < 1 := lt_of_le_of_lt h (by norm_num)
    exact_mod_cast hlt
  have hm' : (m : ℚ) - n * 2 ^ k = 0 := by exact_mod_cast hzero
  rw [← sub_eq_zero, hdiff, hm', zero_div]

end

/-- The length that has the proportion of the base to one is one iff the base is less than one and a half as long. -/
theorem KeepsAspect.eq_one_iff {n b d : ℕ} (h : KeepsAspect n 1 b d) (hb : b < 2 ^ 32) (hd : 0 < d) :
    n = 1 ↔ 2 * b < 3 * d := by
  have hd' : (0 : ℚ) < d := by exact_mod_cast hd
  rw [h.exact (by omega), nearestLength_eq_one_iff (by positivity), Nat.cast_one, one_mul,
    div_lt_div_iff₀ hd' two_pos, mul_comm]
  exact_mod_cast Iff.rfl

/-! ## Derived lengths -/

namespace ResolutionParams

theorem toNat_max_one (n : UInt32) : (max n 1).toNat = max n.toNat 1 := by
  show (if n ≤ 1 then (1 : UInt32) else n).toNat = max n.toNat 1
  split
  · next h =>
    rw [UInt32.le_iff_toNat_le] at h
    exact (max_eq_right h).symm
  · next h =>
    rw [UInt32.le_iff_toNat_le] at h
    exact (max_eq_left (Nat.le_of_not_le h)).symm

theorem nearestNat_finite (m : ℕ) (e : ℤ) :
    nearestNat 32 (.finite ⟨false, m, e⟩) = min (2 ^ 32 - 1) ⌊(m : ℚ) * 2 ^ e + 1 / 2⌋₊ := by
  have hnonneg : (0 : ℚ) ≤ m * 2 ^ e + 1 / 2 := by positivity
  have hround : (⟨false, m, e⟩ : Dyadic).round = (⌊(m : ℚ) * 2 ^ e + 1 / 2⌋₊ : ℤ) := by
    rw [Dyadic.round_eq_floor, Int.natCast_floor_eq_floor hnonneg]
  show (max 0 (min (2 ^ 32 - 1 : ℤ) (⟨false, m, e⟩ : Dyadic).round)).toNat = _
  rw [hround]
  omega

theorem toNat_length {x : Float} {m : ℕ} {e : ℤ} (h : Decoded.ofFloat64 x = .finite ⟨false, m, e⟩) :
    (length x).toNat = nearestLength (m * 2 ^ e) := by
  have hlt : nearestNat 32 (.ofFloat64 x) < 2 ^ 32 := by
    rw [h, nearestNat_finite]
    exact Nat.lt_of_le_of_lt (min_le_left _ _) (by norm_num)
  rw [length, toNat_max_one, UInt32.toNat_ofNat_of_lt' hlt, max_comm, h, nearestNat_finite]
  rfl

theorem toNat_max_one_pos (n : UInt32) : 0 < (max n 1).toNat := by
  rw [toNat_max_one]
  exact Nat.lt_of_lt_of_le one_pos (le_max_right _ _)

/-- The number that a derived length is nearest to is the quotient of a product, each of them rounded once. -/
theorem exists_derived {o : UInt32} (ho : 0 < o.toNat) (baseOther base : UInt32) :
    ∃ (k m : ℕ) (f e : ℤ), 2 ^ 52 ≤ k ∧ 2 ^ 52 ≤ m ∧
      |(k : ℚ) * 2 ^ f - (o.toNat * (max base 1).toNat : ℕ)| ≤ 2 ^ f / 2 ∧
      |(m : ℚ) * 2 ^ e - k * 2 ^ f / (max baseOther 1).toNat| ≤ 2 ^ e / 2 ∧
      (derived o baseOther base).toNat = nearestLength (m * 2 ^ e) := by
  obtain ⟨m₁, e₁, h₁, hlow₁, hhigh₁, hvalue₁⟩ := isNormal_toFloat ho
  obtain ⟨m₂, e₂, h₂, hlow₂, hhigh₂, hvalue₂⟩ := isNormal_toFloat (toNat_max_one_pos base)
  obtain ⟨m₃, e₃, h₃, hlow₃, hhigh₃, hvalue₃⟩ := isNormal_toFloat (toNat_max_one_pos baseOther)
  obtain ⟨k, f, hproduct, hf, hf', hk⟩ := h₁.mul h₂ (by omega) (by omega)
  obtain ⟨m, e, hquotient, -, -, hm⟩ := hproduct.div h₃ (by omega) (by omega)
  rw [hvalue₁, hvalue₂, ← Nat.cast_mul] at hk
  rw [hvalue₃] at hm
  exact ⟨k, m, f, e, hproduct.low, hquotient.low, hk, hm, toNat_length hquotient.decoded⟩

theorem derived_zero (baseOther base : UInt32) : derived 0 baseOther base = 1 := by
  obtain ⟨m₂, e₂, h₂, -⟩ := isNormal_toFloat (toNat_max_one_pos base)
  obtain ⟨m₃, e₃, h₃, -⟩ := isNormal_toFloat (toNat_max_one_pos baseOther)
  have hzero := (isZero_toFloat.mul h₂).div h₃
  rw [← UInt32.toNat_inj, derived, toNat_length hzero.decoded, Nat.cast_zero, zero_mul, nearestLength_zero]
  rfl

/-- A length derived from a positive override has the proportion of the base to it. -/
theorem keepsAspect_derived {o : UInt32} (ho : 0 < o.toNat) (baseOther base : UInt32) :
    KeepsAspect (derived o baseOther base).toNat o.toNat (max base 1).toNat (max baseOther 1).toNat := by
  obtain ⟨k, m, f, e, hk, hm, hproduct, hquotient, hlength⟩ := exists_derived ho baseOther base
  have hd := toNat_max_one_pos baseOther
  generalize (max base 1).toNat = b at hproduct ⊢
  generalize (max baseOther 1).toNat = d at hd hquotient ⊢
  have hd' : (0 : ℚ) < d := by exact_mod_cast hd
  refine ⟨⟨_, ?_, hlength⟩, fun hlt => ?_⟩
  · have hproduct' := abs_sub_le_of_unit hk hproduct
    have hquotient' := abs_sub_le_of_unit hm hquotient
    have hdivided : |k * 2 ^ f / d - (o.toNat * b / d : ℚ)| ≤ o.toNat * b / d * 3 / 2 ^ 54 := by
      have hdiff : k * 2 ^ f / d - (o.toNat * b / d : ℚ) = (k * 2 ^ f - (o.toNat * b : ℕ)) / d := by
        push_cast
        ring
      have hbound : (o.toNat * b / d * 3 / 2 ^ 54 : ℚ) = (o.toNat * b : ℕ) * 3 / 2 ^ 54 / d := by
        push_cast
        ring
      rw [hdiff, hbound, abs_div, abs_of_pos hd']
      exact div_le_div_of_nonneg_right hproduct' hd'.le
    have hnonneg : (0 : ℚ) ≤ o.toNat * b / d := by positivity
    have habove := (abs_le.1 hdivided).2
    have htriangle := abs_sub_le ((m : ℚ) * 2 ^ e) (k * 2 ^ f / d) (o.toNat * b / d)
    norm_num at hquotient' hdivided habove ⊢
    linarith
  · rw [hlength]
    rw [eq_of_unit hk hlt hproduct] at hquotient
    rw [nearestLength_of_unit hm hlt hd hquotient, Nat.cast_mul]

theorem derived_one_eq_one_iff (baseOther base : UInt32) :
    derived 1 baseOther base = 1 ↔ 2 * (max base 1).toNat < 3 * (max baseOther 1).toNat := by
  have hone := keepsAspect_derived (o := 1) (by decide) baseOther base
  rw [← UInt32.toNat_inj]
  exact hone.eq_one_iff (UInt32.toNat_lt _) (toNat_max_one_pos baseOther)

/-- The length of the other axis has the proportion of the base to the length of an overridden axis iff the override is
not zero or the proportion comes to one. -/
theorem keepsAspect_derived_iff (o baseOther base : UInt32) :
    KeepsAspect (derived o baseOther base).toNat (max o 1).toNat (max base 1).toNat (max baseOther 1).toNat ↔
      o ≠ 0 ∨ 2 * (max base 1).toNat < 3 * (max baseOther 1).toNat := by
  by_cases ho : o = 0
  · subst ho
    rw [derived_zero]
    refine ⟨fun h => .inr ((h.eq_one_iff (UInt32.toNat_lt _) (toNat_max_one_pos baseOther)).1 rfl), fun h => ?_⟩
    have hone := keepsAspect_derived (o := 1) (by decide) baseOther base
    rw [(derived_one_eq_one_iff baseOther base).2 (h.resolve_left fun hne => hne rfl)] at hone
    exact hone
  · have hpos : 0 < o.toNat := Nat.pos_of_ne_zero fun h => ho (UInt32.toNat_inj.1 h)
    have hmax : (max o 1).toNat = o.toNat := by
      rw [toNat_max_one]
      exact max_eq_left hpos
    rw [hmax]
    exact iff_of_true (keepsAspect_derived hpos baseOther base) (.inl ho)

/-- Overrides that come to the same length of their axis give the same length of the other axis iff they are the same or the
proportion of the base comes to one. -/
theorem derived_eq_derived_iff {o o' : UInt32} (h : max o' 1 = max o 1) (baseOther base : UInt32) :
    derived o' baseOther base = derived o baseOther base ↔
      o' = o ∨ 2 * (max base 1).toNat < 3 * (max baseOther 1).toNat := by
  have hlength := congrArg UInt32.toNat h
  rw [toNat_max_one, toNat_max_one] at hlength
  by_cases heq : o' = o
  · exact iff_of_true (by rw [heq]) (.inl heq)
  · have hne : o'.toNat ≠ o.toNat := mt UInt32.toNat_inj.1 heq
    have hcases : o' = 0 ∧ o = 1 ∨ o' = 1 ∧ o = 0 := by
      rw [← UInt32.toNat_inj, ← UInt32.toNat_inj, ← UInt32.toNat_inj, ← UInt32.toNat_inj]
      show o'.toNat = 0 ∧ o.toNat = 1 ∨ o'.toNat = 1 ∧ o.toNat = 0
      omega
    rw [or_iff_right heq]
    rcases hcases with ⟨rfl, rfl⟩ | ⟨rfl, rfl⟩
    · rw [derived_zero, eq_comm, derived_one_eq_one_iff]
    · rw [derived_zero, derived_one_eq_one_iff]

/-- The width alone is overridden. -/
def withWidth (p : ResolutionParams) (w : UInt32) : ResolutionParams :=
  { p with preferredWidth := some w, preferredHeight := none }

/-- The height alone is overridden. -/
def withHeight (p : ResolutionParams) (h : UInt32) : ResolutionParams :=
  { p with preferredWidth := none, preferredHeight := some h }

end ResolutionParams

/-- With an override of one axis, the length of the other one has the proportion of the base to the length of that axis,
unless the override is zero and the proportion is three to two or more: zero gives one by one.  Two overrides that come to
the same length of their axis give the same size, unless one of them is zero and the proportion is three to two or more. -/
theorem single_override_iff (p : ResolutionParams) (o : UInt32) :
    (KeepsAspect (p.withWidth o).effectiveSize.2.toNat (p.withWidth o).effectiveSize.1.toNat
        (max p.baseHeight 1).toNat (max p.baseWidth 1).toNat ↔
      o ≠ 0 ∨ 2 * (max p.baseHeight 1).toNat < 3 * (max p.baseWidth 1).toNat) ∧
    (KeepsAspect (p.withHeight o).effectiveSize.1.toNat (p.withHeight o).effectiveSize.2.toNat
        (max p.baseWidth 1).toNat (max p.baseHeight 1).toNat ↔
      o ≠ 0 ∨ 2 * (max p.baseWidth 1).toNat < 3 * (max p.baseHeight 1).toNat) ∧
    (p.withWidth 0).effectiveSize = (1, 1) ∧ (p.withHeight 0).effectiveSize = (1, 1) ∧
    ∀ o', max o' 1 = max o 1 →
      ((p.withWidth o').effectiveSize = (p.withWidth o).effectiveSize ↔
        o' = o ∨ 2 * (max p.baseHeight 1).toNat < 3 * (max p.baseWidth 1).toNat) ∧
      ((p.withHeight o').effectiveSize = (p.withHeight o).effectiveSize ↔
        o' = o ∨ 2 * (max p.baseWidth 1).toNat < 3 * (max p.baseHeight 1).toNat) := by
  refine ⟨ResolutionParams.keepsAspect_derived_iff o p.baseWidth p.baseHeight,
    ResolutionParams.keepsAspect_derived_iff o p.baseHeight p.baseWidth, ?_, ?_, fun o' h => ⟨?_, ?_⟩⟩
  · show ((max 0 1, ResolutionParams.derived 0 p.baseWidth p.baseHeight) : UInt32 × UInt32) = (1, 1)
    rw [ResolutionParams.derived_zero]
    rfl
  · show ((ResolutionParams.derived 0 p.baseHeight p.baseWidth, max 0 1) : UInt32 × UInt32) = (1, 1)
    rw [ResolutionParams.derived_zero]
    rfl
  · rw [← ResolutionParams.derived_eq_derived_iff h p.baseWidth p.baseHeight]
    show ((max o' 1, ResolutionParams.derived o' p.baseWidth p.baseHeight) : UInt32 × UInt32) =
      (max o 1, ResolutionParams.derived o p.baseWidth p.baseHeight) ↔ _
    rw [Prod.mk.injEq, and_iff_right h]
  · rw [← ResolutionParams.derived_eq_derived_iff h p.baseHeight p.baseWidth]
    show ((ResolutionParams.derived o' p.baseHeight p.baseWidth, max o' 1) : UInt32 × UInt32) =
      (ResolutionParams.derived o p.baseHeight p.baseWidth, max o 1) ↔ _
    rw [Prod.mk.injEq, and_iff_left h]

/-- A base of three by two. -/
def landscapeBase : ResolutionParams := { (default : ResolutionParams) with baseWidth := 3, baseHeight := 2 }

/-- The proportion of a base of three by two comes to one, so that zero and one give the same size. -/
theorem single_override_landscape :
    max (0 : UInt32) 1 = max 1 1 ∧ (landscapeBase.withWidth 0).effectiveSize = (landscapeBase.withWidth 1).effectiveSize :=
  ⟨by decide, ((single_override_iff landscapeBase 1).2.2.2.2 0 (by decide)).1.2 (.inr (by decide))⟩

/-- A base of one by five. -/
def slenderBase : ResolutionParams := { (default : ResolutionParams) with baseWidth := 1, baseHeight := 5 }

/-- On a base of one by five, the width zero is effectively one, as is the width one, but only the width one gives the
height of the base. -/
theorem slender_loses_aspect :
    (slenderBase.withWidth 0).effectiveSize = (1, 1) ∧ (slenderBase.withWidth 1).effectiveSize = (1, 5) ∧
      ¬KeepsAspect (slenderBase.withWidth 0).effectiveSize.2.toNat (slenderBase.withWidth 0).effectiveSize.1.toNat 5 1 := by
  refine ⟨by decide +kernel, by decide +kernel, fun h => ?_⟩
  exact absurd ((ResolutionParams.keepsAspect_derived_iff 0 1 5).1 h) (by decide)

end ScreenFusion
