import ScreenFusion.Blend.Library
import ScreenFusion.Proofs.Wgsl.Lanes

/-!
# ScreenFusion.Proofs.Blend.Shader — the shader functions compute the blend functions

The shader computes both sides of a selection, so its quotients are taken by denominators that are kept at a small bound
or above.  Where a denominator is smaller, the shader's colour can be another one.

* `BlendFunction.shaderChannel_eq_iff`: when the formula for a channel gives the same in both forms.
* `BlendFunction.runShader_shaderCombine`: the value of the shader, which it always has.
* `BlendFunction.runShader_eq_combine_iff`: when the shader's colour is the combined colour.
-/

namespace ScreenFusion

open Wgsl

namespace BlendFunction

/-! ## The formulas for a channel -/

/-- The least denominator of the shader's quotients. -/
def leastDenominator : ℚ := 1 / 10 ^ 6

/-- A denominator that is not too small. -/
def bounded (d : ℚ) : ℚ := max d leastDenominator

/-- What the shader makes of a colour channel at full opacity. -/
def shaderChannel (f : BlendFunction) (x y : ℚ) : ℚ :=
  match f with
  | colorBurn => if 1 ≤ x then 1 else if y ≤ 0 then 0 else max (1 - (1 - x) / bounded y) 0
  | colorDodge => if x ≤ 0 then 0 else if 1 ≤ y then 1 else min (x / bounded (1 - y)) 1
  | divide => if 0 < y then min (x / bounded y) 1 else 1
  | f => f.channel x y

/-- The formula divides by less than the shader's least denominator, and the result shows it. -/
def Underflows (f : BlendFunction) (x y : ℚ) : Prop :=
  match f with
  | colorBurn => (0 < y ∧ y < leastDenominator) ∧ 1 - leastDenominator < x ∧ x < 1
  | colorDodge => (1 - leastDenominator < y ∧ y < 1) ∧ 0 < x ∧ x < leastDenominator
  | divide => (0 < y ∧ y < leastDenominator) ∧ x ≠ 0 ∧ x < leastDenominator
  | _ => False

theorem leastDenominator_pos : 0 < leastDenominator := by norm_num [leastDenominator]

theorem bounded_pos (d : ℚ) : 0 < bounded d := lt_max_of_lt_right leastDenominator_pos

@[simp] theorem bounded_ne_zero (d : ℚ) : bounded d ≠ 0 := (bounded_pos d).ne'

theorem bounded_eq_self {d : ℚ} (h : leastDenominator ≤ d) : bounded d = d := max_eq_left h

theorem bounded_of_lt {d : ℚ} (h : d < leastDenominator) : bounded d = leastDenominator := max_eq_right h.le

/-- A quotient that is cut off at one is the same by the bounded denominator, unless the denominator is below the bound
and so is the numerator. -/
theorem min_div_bounded_iff {n d : ℚ} (hd : 0 < d) :
    min (n / bounded d) 1 = min (n / d) 1 ↔ ¬ (d < leastDenominator ∧ n ≠ 0 ∧ n < leastDenominator) := by
  obtain hle | hlt := le_or_gt leastDenominator d
  · rw [bounded_eq_self hle]
    exact iff_of_true rfl fun h => hle.not_gt h.1
  · rw [bounded_of_lt hlt]
    have hb := leastDenominator_pos
    obtain rfl | hn := eq_or_ne n 0
    · simp
    · obtain hge | hn' := le_or_gt leastDenominator n
      · have h₁ : 1 ≤ n / leastDenominator := (one_le_div hb).2 hge
        have h₂ : 1 ≤ n / d := (one_le_div hd).2 (hlt.le.trans hge)
        rw [min_eq_right h₁, min_eq_right h₂]
        exact iff_of_true rfl fun h => hge.not_gt h.2.2
      · refine iff_of_false (fun h => ?_) (not_not_intro ⟨hlt, hn, hn'⟩)
        have hlt₁ : n / leastDenominator < 1 := (div_lt_one hb).2 hn'
        rw [min_eq_left hlt₁.le] at h
        obtain hmin | hmin := min_choice (n / d) 1
        · rw [hmin, div_eq_mul_inv, div_eq_mul_inv, mul_right_inj' hn, inv_inj] at h
          exact hlt.ne' h
        · exact hlt₁.ne (h.trans hmin)

theorem max_one_sub_zero (t : ℚ) : max (1 - t) 0 = 1 - min t 1 := by grind

/-- The shader's formula gives what the function's formula gives, unless it underflows. -/
theorem shaderChannel_eq_iff (f : BlendFunction) (x y : ℚ) :
    f.shaderChannel x y = f.channel x y ↔ ¬ f.Underflows x y := by
  cases f
  case colorBurn =>
    simp only [shaderChannel, channel, Underflows, Scalar.atMost_rat, Scalar.greatest_rat, Scalar.one_rat,
      Scalar.zero_rat, decide_eq_true_eq]
    split_ifs with hx hy
    · exact iff_of_true rfl fun h => hx.not_gt h.2.2
    · exact iff_of_true rfl fun h => hy.not_gt h.1.1
    · rw [not_le] at hx hy
      have hn : 1 - x ≠ 0 := (sub_pos.2 hx).ne'
      have hsmall : 1 - x < leastDenominator ↔ 1 - leastDenominator < x := sub_lt_comm
      rw [max_one_sub_zero, max_one_sub_zero, sub_right_inj, min_div_bounded_iff hy, hsmall]
      tauto
  case colorDodge =>
    simp only [shaderChannel, channel, Underflows, Scalar.atMost_rat, Scalar.least_rat, Scalar.one_rat,
      Scalar.zero_rat, decide_eq_true_eq]
    split_ifs with hx hy
    · exact iff_of_true rfl fun h => hx.not_gt h.2.1
    · exact iff_of_true rfl fun h => hy.not_gt h.1.2
    · rw [not_le] at hx hy
      have hn : x ≠ 0 := hx.ne'
      have hsmall : 1 - y < leastDenominator ↔ 1 - leastDenominator < y := sub_lt_comm
      rw [min_div_bounded_iff (sub_pos.2 hy), hsmall]
      tauto
  case divide =>
    simp only [shaderChannel, channel, Underflows, Scalar.below_rat, Scalar.least_rat, Scalar.one_rat,
      Scalar.zero_rat, decide_eq_true_eq]
    split_ifs with hy
    · rw [min_div_bounded_iff hy]
      tauto
    · exact iff_of_true rfl fun h => hy h.1.1
  all_goals exact iff_of_true rfl not_false

/-! ## Running the shader -/

/-- The named values of the shader's formulas for the channels. -/
def channelEnvironment (n : ℕ) (u v : Fin 3 → ℚ) : Environment :=
  [("zero", .lanes fun _ => 0), ("one", .lanes fun _ => 1), ("f", .word n), ("x", .lanes u), ("y", .lanes v)]

@[simp] theorem value_zero : (Literal.tenths 0).value = 0 := by norm_num [Literal.value]

@[simp] theorem value_half : (Literal.tenths 5).value = 1 / 2 := by norm_num [Literal.value]

@[simp] theorem value_one : (Literal.tenths 10).value = 1 := by norm_num [Literal.value]

@[simp] theorem value_two : (Literal.tenths 20).value = 2 := by norm_num [Literal.value]

@[simp] theorem value_leastDenominator : (Literal.scientific 1 6).value = leastDenominator := by
  norm_num [Literal.value, leastDenominator]

theorem eval_channelFunction (n : ℕ) (u v : Fin 3 → ℚ) :
    channelFunction.eval builtin? [.word n, .lanes u, .lanes v] = (channelFunction.select? n).bind fun c =>
      (bindAll builtin? c.bindings (channelEnvironment n u v)).bind fun env => c.result.eval builtin? env := by
  refine eval_function rfl ?_ rfl
  unfold channelEnvironment
  rw [← value_zero, ← value_one]
  rfl

/-- The shader's function for the colour channels always has a value, its formula in each channel. -/
theorem run_channelFunction (f : BlendFunction) (u v : Fin 3 → ℚ) :
    runFunction [channelFunction] channelFunction.name [.word f.id, .lanes u, .lanes v] =
      some (.lanes fun i => f.shaderChannel (u i) (v i)) := by
  rw [runFunction_self, runFunction_nil, eval_channelFunction]
  have hbounded (d : ℚ) : max d leastDenominator = bounded d := rfl
  cases f
  all_goals
    show Option.bind (some _) _ = _
    simp [eval_binary, channelEnvironment, List.lookup_cons, selectBy, leastOf, greatestOf, splat, shaderChannel, channel,
      hbounded]

/-- What the shader makes of two colours. -/
def shaderCombine (f : BlendFunction) (base new : Rgba ℚ) (opacity : ℚ) : Rgba ℚ :=
  if f.Interpolates then
    base.mix ⟨f.shaderChannel base.r new.r, f.shaderChannel base.g new.g, f.shaderChannel base.b new.b, new.a⟩ opacity
  else f.combine base new opacity

/-- The shader's value for a packed blend mode and two colours. -/
def runShader (f : BlendFunction) (base new : Rgba ℚ) (opacity : ℚ) : Option ShaderValue :=
  runFunction blendFunctions.reverse blendFunction.name
    [.floats [opacity, f.id, 0, 0], .floats base.toList, .floats new.toList]

/-- The named values of the shader's function for whole colours. -/
def blendEnvironment (n : ℕ) (base new : Rgba ℚ) (opacity : ℚ) (id : ℚ) : Environment :=
  [("f", .word n), ("opacity", .floats [opacity]), ("packed", .floats [opacity, id, 0, 0]), ("x", .floats base.toList),
    ("y", .floats new.toList)]

theorem runFunction_builtin {name : String} (h : channelFunction.name ≠ name) (arguments : List ShaderValue) :
    runFunction [channelFunction] name arguments = builtin? name arguments := runFunction_earlier h [] arguments

theorem runShader_eq (f : BlendFunction) (base new : Rgba ℚ) (opacity : ℚ) :
    f.runShader base new opacity = (blendFunction.select? f.id).bind fun c =>
      (bindAll (runFunction [channelFunction]) c.bindings (blendEnvironment f.id base new opacity f.id)).bind fun env =>
        c.result.eval (runFunction [channelFunction]) env := by
  unfold runShader blendFunctions
  rw [List.reverse_cons, List.reverse_singleton, List.singleton_append, runFunction_self]
  refine eval_function rfl ?_ rfl
  have hu32 : runFunction [channelFunction] "u32" [.floats [(f.id : ℚ)]] = some (.word f.id) := by
    rw [runFunction_builtin (by decide), u32_natCast]
  show Option.bind (runFunction [channelFunction] "u32" [.floats [(f.id : ℚ)]]) _ = _
  rw [hu32]
  rfl

/-- The formula of the shader for the functions that interpolate. -/
theorem select_of_interpolates {f : BlendFunction} (hf : f.Interpolates) :
    blendFunction.select? f.id = some (blendFunction.cases.getLast (by decide)) := by
  obtain ⟨hskip, hadd, halpha⟩ := hf
  cases f <;> first | rfl | contradiction

/-- The shader always has a value. -/
theorem runShader_shaderCombine (f : BlendFunction) (base new : Rgba ℚ) (opacity : ℚ) :
    f.runShader base new opacity = some (.floats (f.shaderCombine base new opacity).toList) := by
  rw [runShader_eq]
  have hmix (arguments : List ShaderValue) :
      runFunction [channelFunction] "mix" arguments = builtin? "mix" arguments :=
    runFunction_builtin (by decide) arguments
  have hvec4f (arguments : List ShaderValue) :
      runFunction [channelFunction] "vec4f" arguments = builtin? "vec4f" arguments :=
    runFunction_builtin (by decide) arguments
  obtain rfl | rfl | rfl | hf := f.interpolates_cases
  · rfl
  · rfl
  · show Option.bind (some _) _ = _
    have hmul : Operator.mul.apply? (.floats [new.a]) (.floats [opacity]) = some (.floats [new.a * opacity]) := rfl
    simp [blendEnvironment, List.lookup_cons, hmix, hmul]
    rfl
  · rw [select_of_interpolates hf]
    have hrgb := run_channelFunction f ![base.r, base.g, base.b] ![new.r, new.g, new.b]
    rw [runFunction_self, runFunction_nil] at hrgb
    simp [blendEnvironment, List.lookup_cons, blendFunction, hmix, hvec4f, hrgb, shaderCombine, hf]
    rfl

theorem not_underflows_of_not_interpolates {f : BlendFunction} (hf : ¬ f.Interpolates) (x y : ℚ) :
    ¬ f.Underflows x y := by
  cases f <;> first | exact not_false | exact absurd (by decide) hf

theorem shaderCombine_eq_iff (f : BlendFunction) (base new : Rgba ℚ) (opacity : ℚ) :
    f.shaderCombine base new opacity = f.combine base new opacity ↔
      opacity = 0 ∨ ¬ f.Underflows base.r new.r ∧ ¬ f.Underflows base.g new.g ∧ ¬ f.Underflows base.b new.b := by
  unfold shaderCombine
  by_cases hf : f.Interpolates
  · rw [if_pos hf, combine_of_interpolates hf, Rgba.mix_eq_mix_iff, Rgba.mk.injEq]
    simp only [shaderChannel_eq_iff, and_true]
  · rw [if_neg hf]
    have hnone := not_underflows_of_not_interpolates hf
    exact iff_of_true rfl (.inr ⟨hnone _ _, hnone _ _, hnone _ _⟩)

/-- The shader's colour is the combined colour iff the opacity is zero or no colour channel underflows. -/
theorem runShader_eq_combine_iff (f : BlendFunction) (base new : Rgba ℚ) (opacity : ℚ) :
    (∃ color : Rgba ℚ, f.runShader base new opacity = some (.floats color.toList)) ∧
      (f.runShader base new opacity = some (.floats (f.combine base new opacity).toList) ↔
        opacity = 0 ∨
          ¬ f.Underflows base.r new.r ∧ ¬ f.Underflows base.g new.g ∧ ¬ f.Underflows base.b new.b) := by
  refine ⟨⟨_, f.runShader_shaderCombine base new opacity⟩, ?_⟩
  rw [runShader_shaderCombine, Option.some_inj, ShaderValue.floats.injEq, Rgba.toList_inj]
  exact f.shaderCombine_eq_iff base new opacity

/-- Where a channel underflows, the shader divides by more than the function does. -/
theorem runShader_ne_combine :
    divide.runShader ⟨1 / 2 ^ 22, 0, 0, 1⟩ ⟨1 / 2 ^ 21, 1, 1, 1⟩ 1 ≠
      some (.floats (divide.combine ⟨1 / 2 ^ 22, 0, 0, 1⟩ ⟨1 / 2 ^ 21, 1, 1, 1⟩ (1 : ℚ)).toList) := by
  rw [runShader_shaderCombine, Ne, Option.some_inj, ShaderValue.floats.injEq, Rgba.toList_inj, shaderCombine_eq_iff]
  norm_num [Underflows, leastDenominator]

end BlendFunction

end ScreenFusion
