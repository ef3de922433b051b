import ScreenFusion.Json.Basic
import ScreenFusion.Number.Shortest
import ScreenFusion.Text.Position
import ScreenFusion.Text.Quoted

/-!
# ScreenFusion.Json.Decode — reading domain values out of JSON values

A `Decoder α` reads an `α` or names the first fault in document order.  `Record` describes the fields of a structure:
an object gives them by name, in any order and with unknown members ignored; an array gives them by position.
-/

namespace ScreenFusion.Json

-- Powers are those of the core library.
attribute [local instance (high)] instPowNat

/-- Why a JSON text is no descriptor. -/
inductive Fault where
  /-- The text is not one JSON value. -/
  | notJson
  | wrongType (found expected : String)
  | wrongValue (found : Int) (expected : String)
  | missingField (name : String)
  | repeatedField (name : String)
  | unknownVariant (name : String) (known : List String)
  | tooShort (length : Nat) (title : String) (fields : Nat)
  /-- An array has more items than the structure has fields. -/
  | tooLong
  | noVariant (title : String)
  /-- A value is of no form that can begin what is expected. -/
  | noValue
  /-- The text is no blend function; the token is its normal form. -/
  | blendFunction (token : String)
  | unknownFlag
  | badHexFlag
  | emptyFlag
  deriving DecidableEq, Inhabited

namespace Fault

/-- Names between backquotes, separated by commas. -/
def nameList (names : List String) : String :=
  ", ".intercalate (names.map fun n => "`" ++ n ++ "`")

/-- The text of a fault.  A name that ends like a position loses that end. -/
def message : Fault → String
  | notJson => "invalid JSON"
  | wrongType found expected => s!"invalid type: {found}, expected {expected}"
  | wrongValue found expected => s!"invalid value: integer `{found}`, expected {expected}"
  | missingField name => s!"missing field `{name}`"
  | repeatedField name => s!"duplicate field `{name}`"
  | unknownVariant name known => s!"unknown variant `{name}`, expected one of {nameList known}"
  | tooShort length title fields =>
    s!"invalid length {length}, expected struct {title} with {fields} elements"
  | tooLong => "trailing characters"
  | noVariant title => s!"data did not match any variant of untagged enum {title}"
  | noValue => "expected value"
  | blendFunction token =>
    Text.withoutPosition s!"configuration error in blend function: unsupported blend function: {token}"
  | unknownFlag => "unrecognized named flag"
  | badHexFlag => "invalid hex flag"
  | emptyFlag => "encountered empty flag"

end Fault

/-- Reads a domain value, or names the first fault. -/
abbrev Decoder (α : Type) := Value → Except Fault α

/-- How a message names a value that is of the wrong type. -/
def Value.kind : Value → String
  | .null => "null"
  | .bool b => s!"boolean `{b}`"
  | .number n => match n.numeral? with
    | some (.natural n) => s!"integer `{n}`"
    | some (.negative n) => s!"integer `{n}`"
    | some (.real x) => s!"floating point `{decimalText x}`"
    | none => "number"
  | .string s => "string " ++ Text.quoted s
  | .unpaired => "text"
  | .array _ => "sequence"
  | .object _ => "map"

namespace Decoder

/-- The fault of a value of the wrong type. -/
def mismatch {α : Type} (expected : String) (v : Value) : Except Fault α :=
  .error (.wrongType v.kind expected)

/-- A text. -/
def string : Decoder String
  | .string s => .ok s
  | v => mismatch "a string" v

/-- A truth value. -/
def bool : Decoder Bool
  | .bool b => .ok b
  | v => mismatch "a boolean" v

/-- A natural number of the given number of bits. -/
def natural (bits : Nat) : Decoder Nat
  | .number n =>
    let expected := s!"u{bits}"
    match n.numeral? with
    | some (.natural k) => if k < 2 ^ bits then .ok k else .error (.wrongValue k expected)
    | some (.negative k) => .error (.wrongValue k expected)
    | _ => mismatch expected (.number n)
  | v => mismatch s!"u{bits}" v

/-- A numeral as a 32-bit float. -/
def Numeral.toBinary32 : Numeral → Binary32
  | .natural n => .ofFloat (UInt64.ofNat n).toFloat32
  | .negative n => .ofFloat (Int64.ofInt n).toFloat32
  | .real x => .ofFloat x.toFloat32

/-- The 32-bit float that a value is, if it is a number. -/
def binary32? : Value → Option Binary32
  | .number n => n.numeral?.map Numeral.toBinary32
  | _ => none

/-- A 32-bit float. -/
def binary32 : Decoder Binary32 := fun v =>
  match binary32? v with
  | some x => .ok x
  | none => mismatch "f32" v

/-- Nothing, written `null`, or a value. -/
def optional {α : Type} (d : Decoder α) : Decoder (Option α)
  | .null => .ok none
  | v => (d v).map some

/-- A list of values. -/
def list {α : Type} (d : Decoder α) : Decoder (List α)
  | .array items => items.mapM d
  | v => mismatch "a sequence" v

/-- One of the named values, as a text or as an object with the name as its only member and `null` as its value. -/
def variant {α : Type} (named : List (String × α)) : Decoder α := fun v =>
  let find (s : String) : Except Fault α :=
    match named.lookup s with
    | some a => .ok a
    | none => .error (.unknownVariant s (named.map Prod.fst))
  match v with
  | .string s => find s
  | .object ((s, content) :: rest) => do
    let a ← find s
    match content, rest with
    | .null, [] => .ok a
    | .null, _ => .error .noValue
    | v, _ => mismatch "unit" v
  | _ => .error .noValue

end Decoder

/-- A field of a structure: its name, whether it has to be given, and how a value is put into the structure. -/
structure Field (σ : Type) where
  name : String
  required : Bool
  put : Value → σ → Except Fault σ

/-- The fields of a structure in order, and the structure before any is given. -/
structure Record (σ : Type) where
  title : String
  fields : List (Field σ)
  blank : σ

namespace Field

/-- A field that has a default. -/
def defaulted {σ α : Type} (name : String) (d : Decoder α) (set : α → σ → σ) : Field σ :=
  ⟨name, false, fun v s => (d v).map (set · s)⟩

/-- A field that has to be given. -/
def mandatory {σ α : Type} (name : String) (d : Decoder α) (set : α → σ → σ) : Field σ :=
  ⟨name, true, fun v s => (d v).map (set · s)⟩

end Field

namespace Record

variable {σ : Type}

/-- The structure that the members of an object give, and the names seen. -/
def ofMembers (r : Record σ) : List (String × Value) → σ → List String → Except Fault (σ × List String)
  | [], s, seen => .ok (s, seen)
  | (name, v) :: rest, s, seen =>
    match r.fields.find? fun f => f.name == name with
    | none => ofMembers r rest s seen
    | some f =>
      if name ∈ seen then .error (.repeatedField name)
      else do ofMembers r rest (← f.put v s) (name :: seen)

/-- The structure that the items of an array give to the fields in order. -/
def ofItems (r : Record σ) : List (Field σ) → List Value → σ → Except Fault σ
  | [], [], s => .ok s
  | [], _ :: _, _ => .error .tooLong
  | f :: fs, [], s =>
    if f.required then .error (.tooShort (r.fields.length - (fs.length + 1)) r.title r.fields.length)
    else ofItems r fs [] s
  | f :: fs, v :: vs, s => do ofItems r fs vs (← f.put v s)

/-- Reads the structure. -/
def decode (r : Record σ) : Decoder σ
  | .object members => do
    let (s, seen) ← r.ofMembers members r.blank []
    match r.fields.find? fun f => f.required && !seen.contains f.name with
    | some f => .error (.missingField f.name)
    | none => .ok s
  | .array items => r.ofItems r.fields items r.blank
  | v => Decoder.mismatch s!"struct {r.title}" v

end Record

end ScreenFusion.Json
