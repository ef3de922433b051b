import ScreenFusion.Proofs.Number.NotANumber
import ScreenFusion.Resolution

/-!
# ScreenFusion.Proofs.Resolution.Setter — the setters of a resolution

Every setter is one change of the parameters, which assigns some of them.  A change is told if the parameters after it are
not the same as before, and parameters with a scale that is NaN are not even the same as themselves.

* `ResolutionSetter`, `ResolutionSetter.run_eq_update`: the setters as data, and what they do.
* `ResolutionParams.same_self`: the parameters that are the same as themselves.
* `Resolution.update_of_same`, `Resolution.update_of_differ`: changes that are not told, and those that are.
-/

namespace ScreenFusion

namespace ResolutionParams

/-- Parameters are the same as themselves unless the scale is NaN. -/
theorem same_self (p : ResolutionParams) : p.same p = !p.scale.isNaN := by
  simp [same, Binary32.toFloat_beq_self]

end ResolutionParams

namespace Resolution

variable {r : Resolution} {f : ResolutionParams → ResolutionParams}

theorem update_fst (r : Resolution) (f : ResolutionParams → ResolutionParams) :
    (r.update f).1 = !(f r.params).same r.params := by
  unfold update
  split <;> simp_all

theorem update_of_same (h : (f r.params).same r.params = true) : (r.update f).2 = { r with params := f r.params } := by
  simp [update, h]

theorem update_of_differ (h : (f r.params).same r.params = false) :
    (r.update f).2 = { r with params := f r.params }.notify := by
  simp [update, h]

end Resolution

/-- A setter of a resolution with its argument. -/
inductive ResolutionSetter where
  | base (width height : UInt32)
  | scale (x : Binary32)
  | preferred (width height : Option UInt32)
  | preferredWidth (width : Option UInt32)
  | preferredHeight (height : Option UInt32)

namespace ResolutionSetter

/-- The parameters that a setter gives. -/
def assign : ResolutionSetter → ResolutionParams → ResolutionParams
  | base width height, p => { p with baseWidth := width, baseHeight := height }
  | scale x, p => { p with scale := x }
  | preferred width height, p => { p with preferredWidth := width, preferredHeight := height }
  | preferredWidth width, p => { p with preferredWidth := width }
  | preferredHeight height, p => { p with preferredHeight := height }

/-- Whether a setter changes the parameters of a resolution, and the resolution after it. -/
def run : ResolutionSetter → Resolution → Bool × Resolution
  | base width height, r => r.setBase width height
  | scale x, r => r.setScale x
  | preferred width height, r => r.setPreferred width height
  | preferredWidth width, r => r.setPreferredWidth width
  | preferredHeight height, r => r.setPreferredHeight height

theorem run_eq_update (c : ResolutionSetter) (r : Resolution) : c.run r = r.update c.assign := by
  cases c <;> rfl

theorem assign_assign (c : ResolutionSetter) (p : ResolutionParams) : c.assign (c.assign p) = c.assign p := by
  cases c <;> rfl

theorem params_run (c : ResolutionSetter) (r : Resolution) : (c.run r).2.params = c.assign r.params := by
  rw [run_eq_update]
  unfold Resolution.update
  split <;> rfl

end ResolutionSetter

end ScreenFusion
