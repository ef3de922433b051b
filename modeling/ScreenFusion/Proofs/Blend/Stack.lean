import Mathlib.Order.Interval.Set.Basic
import Mathlib.Tactic.Positivity
import ScreenFusion.Device.Draw
import ScreenFusion.Proofs.Blend.Exact

/-!
# ScreenFusion.Proofs.Blend.Stack — stages that blend one after another

A stack of stages combines colours with a running colour.  A second arithmetic, where a division by zero leaves a fault
that no later operation takes away, shows that a stack divides by zero nowhere.

* `DrawContext.exists_blendStack`: what the stages of a program make of a colour is such a stack.
* `Checked`: numbers with faults, and `blendStack_checked`: a stack computes the same with them.
* `BlendFunction.channel_mem`, `BlendStage.inUnit_onto`: one stage keeps to `0 … 1`.
* `blendStack_ranged`: whole stacks.
-/

namespace ScreenFusion

open BlendFunction

/-! ## Stacks -/

/-- A source colour that joins the running colour by a function at an opacity. -/
structure BlendStage (α : Type) where
  function : BlendFunction
  source : Rgba α
  opacity : α

/-- The running colour after a stage. -/
def BlendStage.onto {α : Type} [Scalar α] (s : BlendStage α) (color : Rgba α) : Rgba α :=
  s.function.combine color s.source s.opacity

/-- The running colour after all stages. -/
def blendStack {α : Type} [Scalar α] (stages : List (BlendStage α)) (start : Rgba α) : Rgba α :=
  stages.foldl (fun color s => s.onto color) start

section Stack

variable {α : Type} [Scalar α] (s : BlendStage α) (stages : List (BlendStage α)) (start : Rgba α)

@[simp] theorem blendStack_nil : blendStack [] start = start := rfl

@[simp] theorem blendStack_cons : blendStack (s :: stages) start = blendStack stages (s.onto start) := rfl

theorem blendStack_append_singleton : blendStack (stages ++ [s]) start = s.onto (blendStack stages start) := by
  simp [blendStack]

end Stack

/-- The stages of a program whose kernels all have a blend slot work as a stack on the running colour. -/
theorem DrawContext.exists_blendStack (c : DrawContext) {stages : List ProgramStage}
    (h : ∀ stage ∈ stages, stage.kernel.isSome = true → stage.slots.blend.isSome = true) (color : Rgba Float32) :
    ∃ layers : List (BlendStage Float32), layers.length = stages.length ∧
      stages.foldl c.runStage color = blendStack layers color := by
  induction stages generalizing color with
  | nil => exact ⟨[], rfl, rfl⟩
  | cons stage stages ih =>
    obtain ⟨hstage, hstages⟩ := List.forall_mem_cons.1 h
    have hone : ∃ layer : BlendStage Float32, c.runStage color stage = layer.onto color := by
      unfold DrawContext.runStage
      cases hk : stage.kernel with
      | none => exact ⟨⟨skip, color, 0⟩, rfl⟩
      | some kernel =>
        obtain ⟨slot, hslot⟩ := Option.isSome_iff_exists.1 (hstage (by rw [hk]; rfl))
        rw [hslot]
        exact ⟨⟨_, _, _⟩, rfl⟩
    obtain ⟨layer, hlayer⟩ := hone
    obtain ⟨layers, hlength, hlayers⟩ := ih hstages (layer.onto color)
    refine ⟨layer :: layers, by simp [hlength], ?_⟩
    rw [List.foldl_cons, hlayer, hlayers]
    rfl

/-! ## Numbers with faults -/

/-- A rational number, or the fault that a division by zero leaves.  A comparison with a fault gives `reply`. -/
structure Checked (reply : Bool) where
  value? : Option ℚ

namespace Checked

variable {reply : Bool}

/-- A number without a fault. -/
def of (x : ℚ) : Checked reply := ⟨some x⟩

/-- A comparison of two numbers. -/
def compare (p : ℚ → ℚ → Bool) (x y : Checked reply) : Bool := (Option.map₂ p x.value? y.value?).getD reply

instance : Scalar (Checked reply) where
  add x y := ⟨Option.map₂ (· + ·) x.value? y.value?⟩
  sub x y := ⟨Option.map₂ (· - ·) x.value? y.value?⟩
  mul x y := ⟨Option.map₂ (· * ·) x.value? y.value?⟩
  div x y := ⟨x.value?.bind fun a => y.value?.bind fun b => if b = 0 then none else some (a / b)⟩
  zero := of Scalar.zero
  one := of Scalar.one
  two := of Scalar.two
  half := of Scalar.half
  magnitude x := ⟨x.value?.map Scalar.magnitude⟩
  least x y := ⟨Option.map₂ Scalar.least x.value? y.value?⟩
  greatest x y := ⟨Option.map₂ Scalar.greatest x.value? y.value?⟩
  below := compare Scalar.below
  atMost := compare Scalar.atMost

variable (x y : ℚ)

@[simp] theorem of_add : (of x + of y : Checked reply) = of (x + y) := rfl

@[simp] theorem of_sub : (of x - of y : Checked reply) = of (x - y) := rfl

@[simp] theorem of_mul : (of x * of y : Checked reply) = of (x * y) := rfl

/-- A division leaves a fault iff the denominator is zero. -/
theorem of_div_iff : (of x / of y : Checked reply) = of (x / y) ↔ y ≠ 0 := by
  show (⟨if y = 0 then none else some (x / y)⟩ : Checked reply) = ⟨some (x / y)⟩ ↔ _
  by_cases hy : y = 0
  all_goals simp [hy]

@[simp] theorem zero_eq : (Scalar.zero : Checked reply) = of 0 := rfl

@[simp] theorem one_eq : (Scalar.one : Checked reply) = of 1 := rfl

@[simp] theorem two_eq : (Scalar.two : Checked reply) = of 2 := rfl

@[simp] theorem half_eq : (Scalar.half : Checked reply) = of (1 / 2) := rfl

@[simp] theorem magnitude_of : (Scalar.magnitude (of x) : Checked reply) = of |x| := by
  rw [← Scalar.magnitude_rat]
  rfl

@[simp] theorem least_of : (Scalar.least (of x) (of y) : Checked reply) = of (min x y) := by
  rw [← Scalar.least_rat]
  rfl

@[simp] theorem greatest_of : (Scalar.greatest (of x) (of y) : Checked reply) = of (max x y) := by
  rw [← Scalar.greatest_rat]
  rfl

@[simp] theorem below_of : Scalar.below (of x : Checked reply) (of y) = decide (x < y) := rfl

@[simp] theorem atMost_of : Scalar.atMost (of x : Checked reply) (of y) = decide (x ≤ y) := rfl

/-- No formula divides by zero, whatever the channels: its branches see to it. -/
theorem channel_of (f : BlendFunction) : f.channel (of x : Checked reply) (of y) = of (f.channel x y) := by
  cases f
  case overlay => simp [channel, apply_ite (of : ℚ → Checked reply)]
  case colorBurn =>
    by_cases hx : 1 ≤ x
    · simp [channel, hx]
    · by_cases hy : y ≤ 0
      · simp [channel, hx, hy]
      · have hdiv : (of (1 - x) / of y : Checked reply) = of ((1 - x) / y) := (of_div_iff _ _).2 (not_le.1 hy).ne'
        simp [channel, hx, hy, hdiv]
  case colorDodge =>
    by_cases hx : x ≤ 0
    · simp [channel, hx]
    · by_cases hy : 1 ≤ y
      · simp [channel, hx, hy]
      · have hne : 1 - y ≠ 0 := (sub_pos.2 (not_le.1 hy)).ne'
        have hdiv : (of x / of (1 - y) : Checked reply) = of (x / (1 - y)) := (of_div_iff _ _).2 hne
        simp [channel, hx, hy, hdiv]
  case divide =>
    by_cases hy : 0 < y
    · have hdiv : (of x / of y : Checked reply) = of (x / y) := (of_div_iff x y).2 hy.ne'
      simp [channel, hy, hdiv]
    · simp [channel, hy]
  all_goals simp [channel]

end Checked

/-- A colour in numbers without a fault. -/
def Rgba.checked (reply : Bool) (c : Rgba ℚ) : Rgba (Checked reply) := c.map Checked.of

/-- A stage in numbers without a fault. -/
def BlendStage.checked (reply : Bool) (s : BlendStage ℚ) : BlendStage (Checked reply) :=
  ⟨s.function, s.source.checked reply, .of s.opacity⟩

section Checked

variable {reply : Bool}

theorem BlendStage.onto_checked (s : BlendStage ℚ) (color : Rgba ℚ) :
    (s.checked reply).onto (color.checked reply) = (s.onto color).checked reply := by
  obtain ⟨f, new, opacity⟩ := s
  show f.combine (color.checked reply) (new.checked reply) (.of opacity) = (f.combine color new opacity).checked reply
  obtain rfl | rfl | rfl | hf := f.interpolates_cases
  · rfl
  · rfl
  · rfl
  · rw [combine_of_interpolates hf, combine_of_interpolates hf]
    simp only [Rgba.checked, Rgba.map, Checked.channel_of]
    rfl

/-- A stack computes in numbers with faults what it computes in rational numbers: it divides by zero nowhere. -/
theorem blendStack_checked (stages : List (BlendStage ℚ)) (start : Rgba ℚ) :
    blendStack (stages.map (BlendStage.checked reply)) (start.checked reply) =
      (blendStack stages start).checked reply := by
  induction stages generalizing start with
  | nil => rfl
  | cons s stages ih => rw [List.map_cons, blendStack_cons, blendStack_cons, BlendStage.onto_checked, ih]

end Checked

/-! ## The range of channels -/

section Range

open Set

variable {x y t : ℚ}

theorem zero_mem_unit : (0 : ℚ) ∈ Icc (0 : ℚ) 1 := ⟨le_rfl, zero_le_one⟩

theorem one_mem_unit : (1 : ℚ) ∈ Icc (0 : ℚ) 1 := ⟨zero_le_one, le_rfl⟩

theorem one_sub_mem_unit (hx : x ∈ Icc (0 : ℚ) 1) : 1 - x ∈ Icc (0 : ℚ) 1 :=
  ⟨sub_nonneg.2 hx.2, sub_le_self 1 hx.1⟩

theorem mul_mem_unit (hx : x ∈ Icc (0 : ℚ) 1) (hy : y ∈ Icc (0 : ℚ) 1) : x * y ∈ Icc (0 : ℚ) 1 :=
  ⟨mul_nonneg hx.1 hy.1, mul_le_one₀ hx.2 hy.1 hy.2⟩

theorem lerp_mem_unit (hx : x ∈ Icc (0 : ℚ) 1) (hy : y ∈ Icc (0 : ℚ) 1) (ht : t ∈ Icc (0 : ℚ) 1) :
    Scalar.lerp x y t ∈ Icc (0 : ℚ) 1 := by
  have ht' := one_sub_mem_unit ht
  rw [Scalar.lerp_eq_weighted]
  constructor
  · exact add_nonneg (mul_nonneg hx.1 ht'.1) (mul_nonneg hy.1 ht.1)
  · calc x * (1 - t) + y * t ≤ 1 * (1 - t) + 1 * t :=
          add_le_add (mul_le_mul_of_nonneg_right hx.2 ht'.1) (mul_le_mul_of_nonneg_right hy.2 ht.1)
      _ = 1 := by ring

theorem min_one_mem_unit (hx : 0 ≤ x) : min x 1 ∈ Icc (0 : ℚ) 1 := ⟨le_min hx zero_le_one, min_le_right x 1⟩

theorem max_zero_mem_unit (hx : x ≤ 1) : max x 0 ∈ Icc (0 : ℚ) 1 := ⟨le_max_right x 0, max_le hx zero_le_one⟩

theorem abs_mem_unit (hx : x ∈ Icc (-1 : ℚ) 1) : |x| ∈ Icc (0 : ℚ) 1 := ⟨abs_nonneg x, abs_le.2 hx⟩

/-- The formula of every function keeps to `0 … 1`. -/
theorem BlendFunction.channel_mem (f : BlendFunction) (hx : x ∈ Icc (0 : ℚ) 1) (hy : y ∈ Icc (0 : ℚ) 1) :
    f.channel x y ∈ Icc (0 : ℚ) 1 := by
  have hx' := one_sub_mem_unit hx
  have hy' := one_sub_mem_unit hy
  cases f
  case multiply => exact mul_mem_unit hx hy
  case screen => exact one_sub_mem_unit (mul_mem_unit hx' hy')
  case average =>
    have h : average.channel x y = Scalar.lerp x y (1 / 2) := by
      simp [channel, Scalar.lerp_rat]
      ring
    rw [h]
    exact lerp_mem_unit hx hy ⟨by norm_num, by norm_num⟩
  case darken =>
    rw [channel, Scalar.least_rat]
    exact ⟨le_min hx.1 hy.1, min_le_of_left_le hx.2⟩
  case lighten =>
    rw [channel, Scalar.greatest_rat]
    exact ⟨le_max_of_le_left hx.1, max_le hx.2 hy.2⟩
  case difference =>
    rw [channel, Scalar.magnitude_rat]
    exact abs_mem_unit ⟨by linarith [hx.1, hy.2], by linarith [hx.2, hy.1]⟩
  case exclusion =>
    -- the base's own part and its complement, weighed by the new colour
    have h : exclusion.channel x y = Scalar.lerp x (1 - x) y := by
      simp [channel, Scalar.lerp_rat]
      ring
    rw [h]
    exact lerp_mem_unit hx hx' hy
  case overlay =>
    simp only [channel, Scalar.below_rat, Scalar.half_rat, Scalar.two_rat, Scalar.one_rat, decide_eq_true_eq]
    split_ifs with hhalf
    · exact mul_mem_unit ⟨by linarith [hx.1], by linarith⟩ hy
    · exact one_sub_mem_unit (mul_mem_unit ⟨by linarith [hx'.1], by linarith⟩ hy')
  case softLight =>
    -- between the square of the base and the screen of the base with itself
    have h : softLight.channel x y = Scalar.lerp (x * x) (1 - (1 - x) * (1 - x)) y := by
      simp [channel, Scalar.lerp_rat]
      ring
    rw [h]
    exact lerp_mem_unit (mul_mem_unit hx hx) (one_sub_mem_unit (mul_mem_unit hx' hx')) hy
  case colorBurn =>
    simp only [channel, Scalar.atMost_rat, Scalar.greatest_rat, Scalar.one_rat, Scalar.zero_rat, decide_eq_true_eq]
    split_ifs
    · exact one_mem_unit
    · exact zero_mem_unit
    · exact max_zero_mem_unit (sub_le_self 1 (div_nonneg hx'.1 hy.1))
  case colorDodge =>
    simp only [channel, Scalar.atMost_rat, Scalar.least_rat, Scalar.one_rat, Scalar.zero_rat, decide_eq_true_eq]
    split_ifs
    · exact zero_mem_unit
    · exact one_mem_unit
    · exact min_one_mem_unit (div_nonneg hx.1 hy'.1)
  case divide =>
    simp only [channel, Scalar.below_rat, Scalar.least_rat, Scalar.one_rat, Scalar.zero_rat, decide_eq_true_eq]
    split_ifs
    · exact min_one_mem_unit (div_nonneg hx.1 hy.1)
    · exact one_mem_unit
  case negation =>
    rw [channel, Scalar.magnitude_rat]
    have h : (1 : ℚ) - x - y ∈ Icc (-1 : ℚ) 1 := ⟨by linarith [hx.2, hy.2], by linarith [hx.1, hy.1]⟩
    exact one_sub_mem_unit (abs_mem_unit h)
  case subtract =>
    rw [channel, Scalar.greatest_rat]
    exact max_zero_mem_unit (by linarith [hx.2, hy.1])
  all_goals exact hy

end Range

/-- All channels of a colour are in `0 … 1`. -/
structure Rgba.InUnit (c : Rgba ℚ) : Prop where
  r : c.r ∈ Set.Icc 0 1
  g : c.g ∈ Set.Icc 0 1
  b : c.b ∈ Set.Icc 0 1
  a : c.a ∈ Set.Icc 0 1

theorem Rgba.InUnit.mix {c d : Rgba ℚ} {t : ℚ} (hc : c.InUnit) (hd : d.InUnit) (ht : t ∈ Set.Icc 0 1) :
    (c.mix d t).InUnit :=
  ⟨lerp_mem_unit hc.r hd.r ht, lerp_mem_unit hc.g hd.g ht, lerp_mem_unit hc.b hd.b ht, lerp_mem_unit hc.a hd.a ht⟩

/-- The source of a stage and its opacity are in `0 … 1`. -/
structure BlendStage.InUnit (s : BlendStage ℚ) : Prop where
  source : s.source.InUnit
  opacity : s.opacity ∈ Set.Icc 0 1

/-- A stage that does not add keeps to `0 … 1`. -/
theorem BlendStage.inUnit_onto {s : BlendStage ℚ} {color : Rgba ℚ} (hadd : s.function ≠ add) (hs : s.InUnit)
    (hc : color.InUnit) : (s.onto color).InUnit := by
  obtain ⟨f, new, opacity⟩ := s
  obtain ⟨hnew, hopacity⟩ := hs
  show (f.combine color new opacity).InUnit
  obtain rfl | rfl | rfl | hf := f.interpolates_cases
  · exact hc
  · contradiction
  · exact hc.mix hnew (mul_mem_unit hnew.a hopacity)
  · rw [combine_of_interpolates hf]
    exact hc.mix ⟨f.channel_mem hc.r hnew.r, f.channel_mem hc.g hnew.g, f.channel_mem hc.b hnew.b, hnew.a⟩ hopacity

/-- A stack without a stage that adds keeps to `0 … 1`. -/
theorem inUnit_blendStack {stages : List (BlendStage ℚ)} {start : Rgba ℚ} (hstart : start.InUnit)
    (hstages : ∀ s ∈ stages, s.function ≠ add ∧ s.InUnit) : (blendStack stages start).InUnit := by
  induction stages generalizing start with
  | nil => exact hstart
  | cons s stages ih =>
    obtain ⟨hs, hstages⟩ := List.forall_mem_cons.1 hstages
    exact ih (BlendStage.inUnit_onto hs.1 hs.2 hstart) hstages

/-- A stack divides by zero nowhere; without a stage that adds, every running colour is in `0 … 1`; and a stage at
opacity zero leaves the running colour as it is. -/
theorem blendStack_ranged (stages : List (BlendStage ℚ)) (start : Rgba ℚ) :
    (∀ reply, blendStack (stages.map (BlendStage.checked reply)) (start.checked reply) =
      (blendStack stages start).checked reply) ∧
    (start.InUnit → (∀ s ∈ stages, s.function ≠ add ∧ s.InUnit) →
      ∀ done, done <+: stages → (blendStack done start).InUnit) ∧
    ∀ done s, done ++ [s] <+: stages → s.opacity = 0 → blendStack (done ++ [s]) start = blendStack done start := by
  refine ⟨fun reply => blendStack_checked stages start, fun hstart hstages done hdone => ?_, fun done s _ hs => ?_⟩
  · exact inUnit_blendStack hstart fun s hs => hstages s (hdone.subset hs)
  · rw [blendStack_append_singleton]
    unfold BlendStage.onto
    rw [hs, combine_eq_self]

/-- Stages whose formulas divide, by zero if the branches did not see to it. -/
def burntStack : List (BlendStage ℚ) :=
  [⟨colorBurn, ⟨0, 1 / 2, 1, 1⟩, 1 / 2⟩, ⟨divide, ⟨0, 1 / 8, 1, 1 / 2⟩, 1⟩, ⟨colorDodge, ⟨1, 1 / 4, 0, 1⟩, 0⟩]

theorem blendStack_ranged_burnt :
    (∀ done, done <+: burntStack → (blendStack done ⟨1 / 4, 1 / 2, 1, 1⟩).InUnit) ∧
      blendStack burntStack ⟨1 / 4, 1 / 2, 1, 1⟩ = blendStack (burntStack.take 2) ⟨1 / 4, 1 / 2, 1, 1⟩ := by
  obtain ⟨-, hrange, hzero⟩ := blendStack_ranged burntStack ⟨1 / 4, 1 / 2, 1, 1⟩
  refine ⟨hrange (by constructor <;> norm_num) fun s hs => ?_, hzero (burntStack.take 2) _ (List.prefix_refl _) rfl⟩
  simp only [burntStack, List.mem_cons, List.not_mem_nil, or_false] at hs
  obtain rfl | rfl | rfl := hs
  all_goals
    refine ⟨by decide, ⟨?_, by norm_num⟩⟩
    constructor <;> norm_num

end ScreenFusion
