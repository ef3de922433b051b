/-!
# ScreenFusion.Wgsl.Syntax — shader functions that select a formula

A small part of the shader language: functions that name some values and then return the value of one of several
formulas, selected by a number.  An expression is written with the fewest parentheses that keep its structure.
-/

namespace ScreenFusion.Wgsl

/-- A float as it is written. -/
inductive Literal where
  /-- Tenths, written with one digit after the point. -/
  | tenths (n : Nat)
  /-- A digit and a negative power of ten. -/
  | scientific (digit power : Nat)
  deriving DecidableEq, Inhabited

/-- The text of a float. -/
def Literal.text : Literal → String
  | tenths n => s!"{n / 10}.{n % 10}"
  | scientific digit power => s!"{digit}e-{power}"

/-- An operator between two expressions. -/
inductive Operator where
  | add
  | sub
  | mul
  | div
  | less
  | atMost
  | greater
  | atLeast
  deriving DecidableEq, Inhabited

namespace Operator

/-- The mark of an operator. -/
def text : Operator → String
  | add => "+"
  | sub => "-"
  | mul => "*"
  | div => "/"
  | less => "<"
  | atMost => "<="
  | greater => ">"
  | atLeast => ">="

/-- How tightly an operator binds. -/
def strength : Operator → Nat
  | mul | div => 3
  | add | sub => 2
  | _ => 1

end Operator

/-- An expression. -/
inductive Expr where
  | name (n : String)
  | float (l : Literal)
  | binary (op : Operator) (left right : Expr)
  /-- Components of a vector, by their letters. -/
  | member (e : Expr) (letters : String)
  | call1 (function : String) (a : Expr)
  | call2 (function : String) (a b : Expr)
  | call3 (function : String) (a b c : Expr)
  deriving DecidableEq, Inhabited

namespace Expr

instance : Add Expr := ⟨binary .add⟩
instance : Sub Expr := ⟨binary .sub⟩
instance : Mul Expr := ⟨binary .mul⟩
instance : Div Expr := ⟨binary .div⟩

/-- The text of an expression where operators of at least the given strength need no parentheses.  Operators of one
strength group to the left. -/
def textAt (strength : Nat) : Expr → String
  | name n => n
  | float l => l.text
  | binary op left right =>
    let text := left.textAt op.strength ++ " " ++ op.text ++ " " ++ right.textAt (op.strength + 1)
    if op.strength < strength then "(" ++ text ++ ")" else text
  | member e letters => e.textAt 4 ++ "." ++ letters
  | call1 f a => f ++ "(" ++ a.textAt 0 ++ ")"
  | call2 f a b => f ++ "(" ++ a.textAt 0 ++ ", " ++ b.textAt 0 ++ ")"
  | call3 f a b c => f ++ "(" ++ a.textAt 0 ++ ", " ++ b.textAt 0 ++ ", " ++ c.textAt 0 ++ ")"

/-- The text of an expression. -/
def text (e : Expr) : String := e.textAt 0

end Expr

/-- The statement that names a value. -/
def bindingText (b : String × Expr) : String := "let " ++ b.1 ++ " = " ++ b.2.text ++ ";"

/-- One of the formulas of a function. -/
structure Case where
  /-- The number that selects it; without one it is selected by all other numbers. -/
  selector : Option Nat
  bindings : List (String × Expr)
  result : Expr
  deriving DecidableEq, Inhabited

namespace Case

/-- The columns that a formula on one line may take. -/
def width : Nat := 72

/-- The text of a formula: on one line if it is short and names no value. -/
def text (c : Case) : String :=
  let head := match c.selector with
    | some n => s!"        case {n}u: \x7b"
    | none => "        default: \x7b"
  let result := "return " ++ c.result.text ++ ";"
  let line := head ++ " " ++ result ++ " \x7d\n"
  if c.bindings.isEmpty && line.length ≤ width then line
  else
    head ++ "\n" ++ String.join ((c.bindings.map bindingText ++ [result]).map fun s => "            " ++ s ++ "\n") ++
      "        \x7d\n"

end Case

/-- A function that selects one of several formulas. -/
structure Function where
  name : String
  /-- The parameters and their types. -/
  parameters : List (String × String)
  resultType : String
  bindings : List (String × Expr)
  /-- The name of the number that selects the formula. -/
  selector : String
  cases : List Case
  deriving DecidableEq, Inhabited

namespace Function

/-- The text of a function. -/
def text (f : Function) : String :=
  "fn " ++ f.name ++ "(" ++ ", ".intercalate (f.parameters.map fun p => p.1 ++ ": " ++ p.2) ++ ") -> " ++
    f.resultType ++ " \x7b\n" ++ String.join (f.bindings.map fun b => "    " ++ bindingText b ++ "\n") ++
    "    switch " ++ f.selector ++ " \x7b\n" ++ String.join (f.cases.map Case.text) ++ "    \x7d\n\x7d\n"

end Function

end ScreenFusion.Wgsl
