import ScreenFusion.Number.Rounding

/-!
# ScreenFusion.Number.Shortest — the fewest digits that read back

`shortestDigits m e` are the fewest decimal digits whose value rounds to the 64-bit float `m · 2^e`; of several such
digit strings it takes the one nearest to the float.  `decimalText` lays them out: positionally for numbers from
`10^-5` up to `10^16`, and otherwise with an exponent that always has a sign.
-/

namespace ScreenFusion

-- Powers are those of the core library.
attribute [local instance (high)] instPowNat

/-- The number `digits · 10^exponent`. -/
structure Decimal where
  digits : Nat
  exponent : Int
  deriving DecidableEq, Inhabited

namespace Decimal

/-- Whether `a · 10^i` is below or at `b · 2^j`, strictly or not. -/
def below (strict : Bool) (a : Nat) (i : Int) (b : Nat) (j : Int) : Bool :=
  let left := a * 10 ^ i.toNat * 2 ^ (-j).toNat
  let right := b * 2 ^ j.toNat * 10 ^ (-i).toNat
  if strict then left < right else left ≤ right

/-- Whether `b · 2^j` is below or at `a · 10^i`, strictly or not. -/
def above (strict : Bool) (a : Nat) (i : Int) (b : Nat) (j : Int) : Bool :=
  let left := a * 10 ^ i.toNat * 2 ^ (-j).toNat
  let right := b * 2 ^ j.toNat * 10 ^ (-i).toNat
  if strict then right < left else right ≤ left

/-- Whether a decimal rounds to the float `m · 2^e`: it lies between the midpoints to the neighbours, which count if
`m` is even.  The lower neighbour of a power of two is half a step away. -/
def roundsTo (m : Nat) (e : Int) (d : Decimal) : Bool :=
  let strict := m % 2 = 1
  let lower := if m = 2 ^ (52 : Nat) ∧ -1074 < e then 4 * m - 1 else 4 * m - 2
  above strict d.digits d.exponent lower (e - 2) && below strict d.digits d.exponent (4 * m + 2) (e - 2)

/-- Twice the distance from a decimal to `m · 2^e`, in a unit that depends on the decimal's exponent only. -/
def distance (m : Nat) (e : Int) (d : Decimal) : Nat :=
  let left := d.digits * 10 ^ d.exponent.toNat * 2 ^ (-e).toNat
  let right := m * 2 ^ e.toNat * 10 ^ (-d.exponent).toNat
  (left - right) + (right - left)

/-- The multiples of `10^exponent` next to `m · 2^e`. -/
def neighbours (m : Nat) (e exponent : Int) : List Decimal :=
  let m' := m * 2 ^ e.toNat * 10 ^ (-exponent).toNat
  let unit := 2 ^ (-e).toNat * 10 ^ exponent.toNat
  [⟨m' / unit, exponent⟩, ⟨m' / unit + 1, exponent⟩]

/-- The neighbour nearest to `m · 2^e` among those that round to it. -/
def nearest? (m : Nat) (e exponent : Int) : Option Decimal :=
  match (neighbours m e exponent).filter fun d => d.digits != 0 && roundsTo m e d with
  | [] => none
  | [d] => some d
  | a :: b :: _ => some <|
    if distance m e b < distance m e a ∨ (distance m e b = distance m e a ∧ a.digits % 2 = 1) then b else a

/-- A power of ten above every 64-bit float with this exponent. -/
def topExponent (m : Nat) (e : Int) : Int :=
  (((m.log2 : Int) + e + 1) * 30103) / 100000 + 1

/-- The shortest decimal that rounds to `m · 2^e`: the coarsest grid of powers of ten that has one. -/
def shortest (m : Nat) (e : Int) : Decimal :=
  let top := topExponent m e
  ((List.range 20).findSome? fun (i : Nat) => nearest? m e (top - i)).getD ⟨m, e⟩

end Decimal

/-- The text of a power of ten, with its sign. -/
def exponentText (e : Int) : String :=
  "e" ++ (if e < 0 then "-" else "+") ++ toString e.natAbs

/-- The text of a 64-bit float: fewest digits, at least one digit on each side of the point, an exponent below
`10^-5` and from `10^16` on. -/
def decimalText (x : Float) : String :=
  match Decoded.ofFloat64 x with
  | .nan => "NaN"
  | .infinite negative => if negative then "-inf" else "inf"
  | .finite d =>
    let sign := if d.negative then "-" else ""
    if d.mantissa = 0 then sign ++ "0.0"
    else
      let s := Decimal.shortest d.mantissa d.exponent
      let digits := (toString s.digits).toList
      let point := (digits.length : Int) + s.exponent
      let body :=
        if 0 ≤ s.exponent ∧ point ≤ 16 then
          String.ofList (digits ++ List.replicate s.exponent.toNat '0') ++ ".0"
        else if 0 < point ∧ point ≤ 16 then
          String.ofList (digits.take point.toNat) ++ "." ++ String.ofList (digits.drop point.toNat)
        else if -5 < point ∧ point ≤ 0 then
          "0." ++ String.ofList (List.replicate (-point).toNat '0' ++ digits)
        else
          let fraction := String.ofList (digits.drop 1)
          String.ofList (digits.take 1) ++ (if fraction = "" then "" else "." ++ fraction) ++
            exponentText (point - 1)
      sign ++ body

end ScreenFusion
