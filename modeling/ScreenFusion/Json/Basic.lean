/-!
# ScreenFusion.Json.Basic — JSON values

A number keeps the digits it is written with, so that a reader of it can choose how exact to be: `Number.nearest` is
the nearest 64-bit float, `Number.numeral?` the quick reading that descriptors use.
-/

namespace ScreenFusion.Json

-- Powers are those of the core library.
attribute [local instance (high)] instPowNat

/-- A number as it is written: sign, digits before and after the point, and the power of ten. -/
structure Number where
  negative : Bool
  /-- The digits before the point. -/
  whole : List Nat
  /-- The digits after the point, if there is one. -/
  fraction : List Nat
  /-- The written exponent, if there is one. -/
  exponent : Option Int
  deriving DecidableEq, Inhabited

/-- A JSON value; the members of an object keep their order.  Escapes can write half of a surrogate pair, which is no
character: `unpaired` stands for a text with one, and for an object with such a name. -/
inductive Value where
  | null
  | bool (b : Bool)
  | number (n : Number)
  | string (s : String)
  | unpaired
  | array (items : List Value)
  | object (members : List (String × Value))
  deriving Inhabited

/-- What a descriptor reads a number as. -/
inductive Numeral where
  /-- A natural number below `2^64`. -/
  | natural (n : Nat)
  /-- A negative integer from `-2^63` on. -/
  | negative (n : Int)
  /-- Any other number. -/
  | real (x : Float)
  deriving Inhabited

namespace Number

/-- The natural number with the given digits. -/
def ofDigits (digits : List Nat) : Nat := digits.foldl (fun n d => 10 * n + d) 0

/-- The nearest 64-bit float. -/
def nearest (n : Number) : Float :=
  let mantissa := ofDigits (n.whole ++ n.fraction)
  let scale := n.exponent.getD 0 - n.fraction.length
  let size :=
    if mantissa = 0 then 0
    else if 400 < scale then Float.ofScientific 1 false 400
    else if scale < -(2000 + (n.whole ++ n.fraction).length : Int) then 0
    else Float.ofScientific mantissa (scale < 0) scale.natAbs
  if n.negative then -size else size

/-- The integer that the number is, if it is written as one. -/
def integer? (n : Number) : Option Int :=
  if n.fraction.isEmpty && n.exponent.isNone then
    some (if n.negative then -(ofDigits n.whole : Int) else ofDigits n.whole)
  else none

/-- Digits of a number read into a natural number below `2^64`. -/
structure Significand where
  value : Nat
  /-- Digits that did not fit and stand before the point. -/
  dropped : Nat
  /-- Digits that fit and stand after the point. -/
  taken : Nat

/-- The number with one more digit, if it still fits into 64 bits. -/
def extend? (value digit : Nat) : Option Nat :=
  if 10 * value + digit < 2 ^ (64 : Nat) then some (10 * value + digit) else none

/-- The digits before the point, up to the first one that does not fit. -/
def readWhole (value : Nat) : List Nat → Significand
  | [] => ⟨value, 0, 0⟩
  | d :: ds => match extend? value d with
    | some v => readWhole v ds
    | none => ⟨value, ds.length + 1, 0⟩

/-- The digits after the point, up to the first one that does not fit. -/
def readFraction (s : Significand) : List Nat → Significand
  | [] => s
  | d :: ds => match extend? s.value d with
    | some v => readFraction { s with value := v, taken := s.taken + 1 } ds
    | none => s

/-- A number of 64 bits times a power of ten, by one multiplication or division where the power is a float, after as
many divisions by `10^308` as it takes; nothing if the result is infinite. -/
def scaled? (value : Nat) (exponent : Int) : Option Float :=
  let f := (UInt64.ofNat value).toFloat
  let powerOfTen (n : Nat) : Float := Float.ofScientific 1 false n
  if 0 ≤ exponent then
    if 308 < exponent then if value = 0 then some f else none
    else
      let product := f * powerOfTen exponent.toNat
      if product.isInf then none else some product
  else
    let down := exponent.natAbs
    if down ≤ 308 then some (f / powerOfTen down)
    else if down ≤ 616 then some (f / powerOfTen 308 / powerOfTen (down - 308))
    else some (f / powerOfTen 308 / powerOfTen 308 / powerOfTen (min 308 (down - 616)))

/-- The quick reading of a number; nothing if it is out of range. -/
def numeral? (n : Number) : Option Numeral :=
  let signed (x : Float) : Numeral := .real (if n.negative then -x else x)
  let s := readFraction (readWhole 0 n.whole) n.fraction
  match n.exponent with
  | none =>
    if n.fraction.isEmpty && s.dropped == 0 then
      if n.negative then
        if 0 < s.value ∧ s.value ≤ 2 ^ (63 : Nat) then some (.negative (-(s.value : Int)))
        else some (signed (UInt64.ofNat s.value).toFloat)
      else some (.natural s.value)
    else (scaled? s.value (s.dropped - s.taken)).map signed
  | some e =>
    if 2 ^ (31 : Nat) ≤ e.natAbs then
      if s.value ≠ 0 ∧ 0 < e then none else some (signed 0)
    else (scaled? s.value (s.dropped - s.taken + e)).map signed

end Number

end ScreenFusion.Json
