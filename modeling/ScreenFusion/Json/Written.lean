import ScreenFusion.Number.Binary32

/-!
# ScreenFusion.Json.Written — what domain values are written as

A `Written` is a JSON value whose floats are stored patterns, so that the writer of the text chooses the digits.
Infinities and NaN have no JSON number and are written `null`.
-/

namespace ScreenFusion.Json

/-- A JSON value to be written. -/
inductive Written where
  | null
  | bool (b : Bool)
  | integer (n : Int)
  | real (x : Binary32)
  | string (s : String)
  | array (items : List Written)
  | object (members : List (String × Written))
  deriving Inhabited

namespace Written

/-- A float, or `null` if it is not finite. -/
def float (x : Binary32) : Written := if x.isFinite then .real x else .null

/-- A value, or `null` if there is none. -/
def option {α : Type} (write : α → Written) : Option α → Written
  | none => .null
  | some a => write a

/-- A list of values. -/
def list {α : Type} (write : α → Written) (items : List α) : Written := .array (items.map write)

end Written

end ScreenFusion.Json
