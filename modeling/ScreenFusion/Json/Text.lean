import ScreenFusion.Json.Decode
import ScreenFusion.Json.Reader

/-!
# ScreenFusion.Json.Text — reading domain values out of JSON text

A decoder looks only at what it needs, so a member that it does not know may go beyond the limits of `Value.isSound`.
If it finds a fault, though, a text that goes beyond them anywhere is not JSON, and that fault comes before any other.

* `decodeText_of_ok`: what a decoder reads does not depend on the parts that it does not look at.
-/

namespace ScreenFusion.Json

/-- Reads a domain value out of a text. -/
def decodeText {α : Type} (d : Decoder α) (text : String) : Except Fault α :=
  match read? text with
  | none => .error .notJson
  | some v =>
    match d v with
    | .ok a => .ok a
    | .error fault => .error (if v.isSound then fault else .notJson)

theorem decodeText_of_ok {α : Type} {d : Decoder α} {text : String} {v : Value} {a : α} (hv : read? text = some v)
    (ha : d v = .ok a) : decodeText d text = .ok a := by
  simp [decodeText, hv, ha]

end ScreenFusion.Json
