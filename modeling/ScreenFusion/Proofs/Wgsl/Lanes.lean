import Mathlib.Data.Fin.VecNotation
import Mathlib.Data.Rat.Floor
import ScreenFusion.Proofs.Blend.Exact
import ScreenFusion.Wgsl.Eval

/-!
# ScreenFusion.Proofs.Wgsl.Lanes — vectors of three floats, component by component

Operators and functions of the shader language work on vectors of one length component by component, and a single float
goes with every component.  The lemmas for the evaluator rewrite an expression over vectors of three floats to one value
for all components.
-/

namespace ScreenFusion.Wgsl

/-! ## Expressions -/

section Eval

variable (call : Callable) (env : Environment) (a b c : Expr) (f letters : String)

@[simp] theorem eval_float (l : Literal) : (Expr.float l).eval call env = some (.floats [l.value]) := rfl

@[simp] theorem eval_add : (a + b).eval call env =
    (a.eval call env).bind fun x => (b.eval call env).bind fun y => Operator.add.apply? x y := rfl

@[simp] theorem eval_sub : (a - b).eval call env =
    (a.eval call env).bind fun x => (b.eval call env).bind fun y => Operator.sub.apply? x y := rfl

@[simp] theorem eval_mul : (a * b).eval call env =
    (a.eval call env).bind fun x => (b.eval call env).bind fun y => Operator.mul.apply? x y := rfl

@[simp] theorem eval_div : (a / b).eval call env =
    (a.eval call env).bind fun x => (b.eval call env).bind fun y => Operator.div.apply? x y := rfl

@[simp] theorem eval_member : (a.member letters).eval call env = (a.eval call env).bind (components? letters) := rfl

@[simp] theorem eval_call1 : (Expr.call1 f a).eval call env = (a.eval call env).bind fun x => call f [x] := rfl

@[simp] theorem eval_call2 : (Expr.call2 f a b).eval call env =
    (a.eval call env).bind fun x => (b.eval call env).bind fun y => call f [x, y] := rfl

@[simp] theorem eval_call3 : (Expr.call3 f a b c).eval call env =
    (a.eval call env).bind fun x => (b.eval call env).bind fun y => (c.eval call env).bind fun z =>
      call f [x, y, z] := rfl

@[simp] theorem bindAll_nil : bindAll call [] env = some env := rfl

@[simp] theorem bindAll_cons (n : String) (e : Expr) (rest : List (String × Expr)) :
    bindAll call ((n, e) :: rest) env = (e.eval call env).bind fun v => bindAll call rest ((n, v) :: env) := rfl

@[simp] theorem runFunction_nil : runFunction [] = builtin? := rfl

@[simp] theorem runFunction_self (g : Wgsl.Function) (earlier : List Wgsl.Function) (arguments : List ShaderValue) :
    runFunction (g :: earlier) g.name arguments = g.eval (runFunction earlier) arguments := if_pos rfl

theorem runFunction_earlier {g : Wgsl.Function} {name : String} (h : g.name ≠ name) (earlier : List Wgsl.Function)
    (arguments : List ShaderValue) : runFunction (g :: earlier) name arguments = runFunction earlier name arguments :=
  if_neg h

/-- A function whose values have been named in an environment is the formula that its selector's number selects. -/
theorem eval_function {call : Callable} {g : Wgsl.Function} {arguments : List ShaderValue} {env : Environment} {n : ℕ}
    (hparameters : g.parameters.length = arguments.length)
    (henv : bindAll call g.bindings ((g.parameters.map Prod.fst).zip arguments) = some env)
    (hn : env.lookup g.selector = some (.word n)) :
    g.eval call arguments =
      (g.select? n).bind fun c => (bindAll call c.bindings env).bind fun env => c.result.eval call env := by
  unfold Wgsl.Function.eval
  rw [if_neg (not_not_intro hparameters), henv, Option.bind_eq_bind, Option.bind_some, hn]
  rfl

end Eval

/-! ## Values -/

namespace ShaderValue

/-- A vector of three floats. -/
def lanes (v : Fin 3 → ℚ) : ShaderValue := .floats [v 0, v 1, v 2]

/-- A vector of three truth values. -/
def flags (b : Fin 3 → Bool) : ShaderValue := .truths [b 0, b 1, b 2]

end ShaderValue

section Lanes

variable (u v : Fin 3 → ℚ) (t : ℚ)

@[simp] theorem add_lanes : Operator.add.apply? (.lanes u) (.lanes v) = some (.lanes fun i => u i + v i) := rfl

@[simp] theorem sub_lanes : Operator.sub.apply? (.lanes u) (.lanes v) = some (.lanes fun i => u i - v i) := rfl

@[simp] theorem mul_lanes : Operator.mul.apply? (.lanes u) (.lanes v) = some (.lanes fun i => u i * v i) := rfl

@[simp] theorem float_mul_lanes : Operator.mul.apply? (.floats [t]) (.lanes v) = some (.lanes fun i => t * v i) := rfl

@[simp] theorem lanes_mul_float : Operator.mul.apply? (.lanes v) (.floats [t]) = some (.lanes fun i => v i * t) := rfl

/-- A quotient of vectors has a value if no component of the denominator is zero. -/
@[simp] theorem div_lanes (h : ∀ i, v i ≠ 0) :
    Operator.div.apply? (.lanes u) (.lanes v) = some (.lanes fun i => u i / v i) := by
  simp [ShaderValue.lanes, Operator.apply?, pairUp?, Operator.strength, Operator.number?, h]

@[simp] theorem less_lanes :
    Operator.less.apply? (.lanes u) (.lanes v) = some (.flags fun i => decide (u i < v i)) := rfl

@[simp] theorem atMost_lanes :
    Operator.atMost.apply? (.lanes u) (.lanes v) = some (.flags fun i => decide (u i ≤ v i)) := rfl

@[simp] theorem greater_lanes :
    Operator.greater.apply? (.lanes u) (.lanes v) = some (.flags fun i => decide (v i < u i)) := rfl

@[simp] theorem atLeast_lanes :
    Operator.atLeast.apply? (.lanes u) (.lanes v) = some (.flags fun i => decide (v i ≤ u i)) := rfl

@[simp] theorem vec3f_float : builtin? "vec3f" [.floats [t]] = some (.lanes fun _ => t) := rfl

@[simp] theorem abs_lanes : builtin? "abs" [.lanes u] = some (.lanes fun i => |u i|) := by
  simp_rw [← Scalar.magnitude_rat]
  rfl

@[simp] theorem min_lanes : builtin? "min" [.lanes u, .lanes v] = some (.lanes fun i => min (u i) (v i)) := by
  simp_rw [← Scalar.least_rat]
  rfl

@[simp] theorem max_lanes : builtin? "max" [.lanes u, .lanes v] = some (.lanes fun i => max (u i) (v i)) := by
  simp_rw [← Scalar.greatest_rat]
  rfl

@[simp] theorem select_lanes (b : Fin 3 → Bool) :
    builtin? "select" [.lanes u, .lanes v, .flags b] = some (.lanes fun i => if b i then v i else u i) := rfl

@[simp] theorem components_rgb (c : Rgba ℚ) :
    components? "rgb" (.floats c.toList) = some (.lanes ![c.r, c.g, c.b]) := rfl

@[simp] theorem components_a (c : Rgba ℚ) : components? "a" (.floats c.toList) = some (.floats [c.a]) := rfl

@[simp] theorem vec4f_lanes (v : Fin 3 → ℚ) (w : ℚ) :
    builtin? "vec4f" [.lanes v, .floats [w]] = some (.floats [v 0, v 1, v 2, w]) := rfl

@[simp] theorem u32_natCast (n : ℕ) : builtin? "u32" [.floats [(n : ℚ)]] = some (.word n) := by
  have h : (n : ℚ).floor = n := Rat.floor_intCast n
  simp [builtin?, h]

@[simp] theorem mix_float (x y : ℚ) :
    builtin? "mix" [.floats [x], .floats [y], .floats [t]] = some (.floats [Scalar.lerp x y t]) := by
  rw [Scalar.lerp_eq_weighted]
  rfl

@[simp] theorem mix_lanes :
    builtin? "mix" [.lanes u, .lanes v, .floats [t]] = some (.lanes fun i => Scalar.lerp (u i) (v i) t) := by
  simp_rw [Scalar.lerp_eq_weighted]
  rfl

@[simp] theorem mix_rgba (x y : Rgba ℚ) :
    builtin? "mix" [.floats x.toList, .floats y.toList, .floats [t]] = some (.floats (x.mix y t).toList) := by
  unfold Rgba.mix
  simp_rw [Scalar.lerp_eq_weighted]
  rfl

end Lanes

end ScreenFusion.Wgsl
