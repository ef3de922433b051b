import ScreenFusion.Json.Decode
import ScreenFusion.Text.Blank
import ScreenFusion.Text.Hexadecimal

/-!
# ScreenFusion.Flags — sets of flags as text

A set of flags is written as the names of its flags, in the order of their declaration and separated by bars, and then
the bits that no name covers in hexadecimal.  It is read from names and hexadecimal numbers in any order.
-/

namespace ScreenFusion

-- Powers are those of the core library.
attribute [local instance (high)] instPowNat

/-- The named flags of a set, in order of declaration, and the width of the set in bits. -/
structure FlagNames where
  width : Nat
  names : List (String × Nat)

namespace FlagNames

/-- The names written for `all`, of which the bits `left` are not covered yet, and the bits left at the end. -/
def cover (all : Nat) : List (String × Nat) → Nat → List String × Nat
  | [], left => ([], left)
  | (name, bits) :: rest, left =>
    if all &&& bits = bits ∧ left &&& bits ≠ 0 then
      let (names, left) := cover all rest (left ^^^ (left &&& bits))
      (name :: names, left)
    else cover all rest left

/-- The text of a set. -/
def render (f : FlagNames) (all : Nat) : String :=
  let (names, left) := cover all f.names all
  " | ".intercalate (if left = 0 then names else names ++ ["0x" ++ Text.hexadecimal left])

/-- The number that hexadecimal digits, after at most one plus sign, are. -/
def hexNumber? (width : Nat) (cs : List Char) : Option Nat :=
  let digits := match cs with
    | '+' :: r => r
    | r => r
  if digits.isEmpty then none
  else (Text.readHexadecimal? digits).filter (· < 2 ^ width)

/-- The bits of one part of a text. -/
def part (f : FlagNames) (cs : List Char) : Except Json.Fault Nat :=
  match cs with
  | [] => .error .emptyFlag
  | '0' :: 'x' :: digits => match hexNumber? f.width digits with
    | some n => .ok n
    | none => .error .badHexFlag
  | cs => match f.names.lookup (String.ofList cs) with
    | some n => .ok n
    | none => .error .unknownFlag

/-- The bits of the parts of a text. -/
def parts (f : FlagNames) : List (List Char) → Except Json.Fault Nat
  | [] => .ok 0
  | p :: ps => do
    let bits ← f.part (Text.trim p)
    return bits ||| (← f.parts ps)

/-- The set that a text names; a blank text names the empty set. -/
def read (f : FlagNames) (text : String) : Except Json.Fault Nat :=
  if (Text.trim text.toList).isEmpty then .ok 0
  else f.parts (text.toList.splitOn '|')

/-- Reads a set from a JSON text. -/
def decode (f : FlagNames) : Json.Decoder Nat
  | .string s => f.read s
  | v => Json.Decoder.mismatch "a string value of `|` separated flags" v

end FlagNames

end ScreenFusion
