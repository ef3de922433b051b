import ScreenFusion.Wgsl.Syntax

/-!
# ScreenFusion.Wgsl.Eval — what shader functions compute, in exact numbers

Functions of `Wgsl.Syntax` are run on rational numbers.  A computation that the language gives no value, such as a division
by zero or an operation on vectors of different lengths, has none here either.

* `eval_name`, `eval_binary`: the values of expressions from those of their parts.
-/

namespace ScreenFusion.Wgsl

/-- The number that a literal stands for. -/
def Literal.value : Literal → Rat
  | tenths n => (n : Rat) / 10
  | scientific digit power => (digit : Rat) / (10 : Rat) ^ power

/-- A value of the language. -/
inductive ShaderValue where
  /-- A float, or a vector of floats. -/
  | floats (components : List Rat)
  /-- A truth value, or a vector of them. -/
  | truths (components : List Bool)
  | word (n : Nat)
  deriving DecidableEq, Inhabited

/-- Components in pairs; a single component goes with each of the other value's. -/
def pairUp? : List Rat → List Rat → Option (List (Rat × Rat))
  | [x], ys => some (ys.map fun y => (x, y))
  | xs, [y] => some (xs.map fun x => (x, y))
  | xs, ys => if xs.length = ys.length then some (xs.zip ys) else none

/-- The value of an operator on two floats, if it is arithmetical. -/
def Operator.number? (op : Operator) (x y : Rat) : Option Rat :=
  match op with
  | add => some (x + y)
  | sub => some (x - y)
  | mul => some (x * y)
  | div => if y = 0 then none else some (x / y)
  | _ => none

/-- The value of an operator on two floats, if it compares. -/
def Operator.truth? (op : Operator) (x y : Rat) : Option Bool :=
  match op with
  | less => some (decide (x < y))
  | atMost => some (decide (x ≤ y))
  | greater => some (decide (y < x))
  | atLeast => some (decide (y ≤ x))
  | _ => none

/-- The value of an operator on two values. -/
def Operator.apply? (op : Operator) : ShaderValue → ShaderValue → Option ShaderValue
  | .floats xs, .floats ys => do
    let pairs ← pairUp? xs ys
    if op.strength = 1 then return .truths (← pairs.mapM fun p => op.truth? p.1 p.2)
    else return .floats (← pairs.mapM fun p => op.number? p.1 p.2)
  | _, _ => none

/-- The place of a component's letter. -/
def componentIndex? : Char → Option Nat
  | 'x' | 'r' => some 0
  | 'y' | 'g' => some 1
  | 'z' | 'b' => some 2
  | 'w' | 'a' => some 3
  | _ => none

/-- The components with the given letters. -/
def components? (letters : String) : ShaderValue → Option ShaderValue
  | .floats xs => do
    let picked ← letters.toList.mapM fun c => do xs[← componentIndex? c]?
    return .floats picked
  | _ => none

/-- For each component, the second value where the truth value holds and otherwise the first. -/
def choose? : List Rat → List Rat → List Bool → Option (List Rat)
  | [], [], [] => some []
  | x :: xs, y :: ys, b :: bs => (choose? xs ys bs).map ((if b then y else x) :: ·)
  | _, _, _ => none

/-- The values a fraction of the way from `xs` to `ys`. -/
def mix? (xs ys ts : List Rat) : Option (List Rat) := do
  let kept ← pairUp? xs (ts.map (1 - ·))
  let added ← pairUp? ys ts
  if kept.length = added.length then
    return List.zipWith (fun p q => p.1 * p.2 + q.1 * q.2) kept added
  else none

/-- The functions that the language has. -/
def builtin? (name : String) (arguments : List ShaderValue) : Option ShaderValue :=
  match name, arguments with
  | "vec3f", [.floats [x]] => some (.floats [x, x, x])
  | "vec4f", [.floats [x, y, z], .floats [w]] => some (.floats [x, y, z, w])
  | "u32", [.floats [x]] => if 0 ≤ x then some (.word x.floor.toNat) else none
  | "abs", [.floats xs] => some (.floats (xs.map fun x => if x < 0 then -x else x))
  | "min", [.floats xs, .floats ys] => do
    return .floats ((← pairUp? xs ys).map fun p => if p.2 < p.1 then p.2 else p.1)
  | "max", [.floats xs, .floats ys] => do
    return .floats ((← pairUp? xs ys).map fun p => if p.1 < p.2 then p.2 else p.1)
  | "select", [.floats xs, .floats ys, .truths bs] => (choose? xs ys bs).map .floats
  | "mix", [.floats xs, .floats ys, .floats ts] => (mix? xs ys ts).map .floats
  | _, _ => none

/-- The functions that can be called, by name. -/
abbrev Callable := String → List ShaderValue → Option ShaderValue

/-- The named values at a place, the innermost first. -/
abbrev Environment := List (String × ShaderValue)

/-- The value of an expression. -/
def Expr.eval (call : Callable) (env : Environment) : Expr → Option ShaderValue
  | name n => env.lookup n
  | float l => some (.floats [l.value])
  | binary op left right => do op.apply? (← left.eval call env) (← right.eval call env)
  | member e letters => do components? letters (← e.eval call env)
  | call1 f a => do call f [← a.eval call env]
  | call2 f a b => do call f [← a.eval call env, ← b.eval call env]
  | call3 f a b c => do call f [← a.eval call env, ← b.eval call env, ← c.eval call env]

/-- The environment after some values have been named in order. -/
def bindAll (call : Callable) : List (String × Expr) → Environment → Option Environment
  | [], env => some env
  | (n, e) :: rest, env => do bindAll call rest ((n, ← e.eval call env) :: env)

/-- The formula that a number selects. -/
def Function.select? (f : Function) (n : Nat) : Option Case :=
  (f.cases.find? fun c => c.selector == some n) <|> f.cases.find? fun c => c.selector.isNone

/-- The value of a function on some arguments. -/
def Function.eval (call : Callable) (f : Function) (arguments : List ShaderValue) : Option ShaderValue := do
  if f.parameters.length ≠ arguments.length then none
  else
    let env ← bindAll call f.bindings ((f.parameters.map Prod.fst).zip arguments)
    match env.lookup f.selector with
    | some (.word n) => do
      let c ← f.select? n
      c.result.eval call (← bindAll call c.bindings env)
    | _ => none

/-- Calls a function by name.  Of the declared functions, the last first, one can call those before it. -/
def runFunction : List Function → Callable
  | [], name, arguments => builtin? name arguments
  | f :: earlier, name, arguments =>
    if f.name = name then f.eval (runFunction earlier) arguments else runFunction earlier name arguments

@[simp] theorem eval_name (call : Callable) (env : Environment) (n : String) :
    (Expr.name n).eval call env = env.lookup n := rfl

theorem eval_binary (call : Callable) (env : Environment) (op : Operator) (left right : Expr) :
    (Expr.binary op left right).eval call env =
      (left.eval call env).bind fun x => (right.eval call env).bind fun y => op.apply? x y := rfl

end ScreenFusion.Wgsl
