import ScreenFusion.Wgsl.Syntax

/-!
# ScreenFusion.Blend.Library — the blend functions as shader functions

Every fused program contains these functions.  `fx_blend` takes a packed blend mode, opacity and function number, and
combines two colours as the mode says; `fx_blend_rgb` has a formula per function for the colour channels.  All branches of
a selection are computed, so denominators are kept away from zero by a small bound.
-/

namespace ScreenFusion

open Wgsl

/-- For each component, one of two values as a truth value says. -/
def selectBy (otherwise chosen condition : Expr) : Expr := .call3 "select" otherwise chosen condition

/-- The lesser of two values, component by component. -/
def leastOf (a b : Expr) : Expr := .call2 "min" a b

/-- The greater of two values, component by component. -/
def greatestOf (a b : Expr) : Expr := .call2 "max" a b

/-- A number in each component. -/
def splat (l : Literal) : Expr := .call1 "vec3f" (.float l)

/-- The formulas for the colour channels: `x` is the base, `y` the new colour. -/
def channelFunction : Wgsl.Function :=
  let x : Expr := .name "x"
  let y : Expr := .name "y"
  let one : Expr := .name "one"
  let zero : Expr := .name "zero"
  let two : Expr := .float (.tenths 20)
  let bounded (e : Expr) : Expr := greatestOf e (splat (.scientific 1 6))
  { name := "fx_blend_rgb"
    parameters := [("f", "u32"), ("x", "vec3f"), ("y", "vec3f")]
    resultType := "vec3f"
    bindings := [("one", splat (.tenths 10)), ("zero", splat (.tenths 0))]
    selector := "f"
    cases := [
      ⟨some 2, [], x * y⟩,
      ⟨some 3, [], one - (one - x) * (one - y)⟩,
      ⟨some 5, [], (x + y) * .float (.tenths 5)⟩,
      ⟨some 6, [], leastOf x y⟩,
      ⟨some 7, [], greatestOf x y⟩,
      ⟨some 8, [], .call1 "abs" (x - y)⟩,
      ⟨some 9, [], x + y - two * x * y⟩,
      ⟨some 10, [],
        selectBy (one - two * (one - x) * (one - y)) (two * x * y) (.binary .less x (splat (.tenths 5)))⟩,
      ⟨some 11, [], (one - two * y) * x * x + two * y * x⟩,
      ⟨some 12, [("burn", greatestOf (one - (one - x) / bounded y) zero)],
        selectBy (selectBy (.name "burn") zero (.binary .atMost y zero)) one (.binary .atLeast x one)⟩,
      ⟨some 13, [("dodge", leastOf (x / bounded (one - y)) one)],
        selectBy (selectBy (.name "dodge") one (.binary .atLeast y one)) zero (.binary .atMost x zero)⟩,
      ⟨some 14, [], selectBy one (leastOf (x / bounded y) one) (.binary .greater y zero)⟩,
      ⟨some 15, [], one - .call1 "abs" (one - x - y)⟩,
      ⟨some 16, [], greatestOf (x - y) zero⟩,
      ⟨none, [], y⟩] }

/-- The function that combines two colours as a packed blend mode says. -/
def blendFunction : Wgsl.Function :=
  let x : Expr := .name "x"
  let y : Expr := .name "y"
  let opacity : Expr := .name "opacity"
  let rgb (e : Expr) : Expr := .member e "rgb"
  let alpha (e : Expr) : Expr := .member e "a"
  { name := "fx_blend"
    parameters := [("packed", "vec4f"), ("x", "vec4f"), ("y", "vec4f")]
    resultType := "vec4f"
    bindings := [("opacity", .member (.name "packed") "x"), ("f", .call1 "u32" (.member (.name "packed") "y"))]
    selector := "f"
    cases := [
      ⟨some 1, [], x + y * opacity⟩,
      ⟨some 4, [], .call3 "mix" x y (alpha y * opacity)⟩,
      ⟨some 17, [], x⟩,
      ⟨none, [],
        .call2 "vec4f" (.call3 "mix" (rgb x) (.call3 channelFunction.name (.name "f") (rgb x) (rgb y)) opacity)
          (.call3 "mix" (alpha x) (alpha y) opacity)⟩] }

/-- The functions in order of declaration. -/
def blendFunctions : List Wgsl.Function := [channelFunction, blendFunction]

/-- The text of the functions. -/
def blendLibrary : String := String.join (blendFunctions.map fun f => "\n" ++ f.text)

end ScreenFusion
