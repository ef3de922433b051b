/-!
# ScreenFusion.Text.Hexadecimal — numbers and bytes in hexadecimal digits

Digits are written in lower case and read in either.

* `hexDigit?_digitChar`: a digit is read as it was written.
-/

namespace ScreenFusion.Text

/-- The value of a hexadecimal digit. -/
def hexDigit? (c : Char) : Option Nat :=
  if c.isDigit then some (c.toNat - 48)
  else if 'a' ≤ c && c ≤ 'f' then some (c.toNat - 87)
  else if 'A' ≤ c && c ≤ 'F' then some (c.toNat - 55)
  else none

/-- A natural number in hexadecimal, without leading zeros. -/
def hexadecimal (n : Nat) : String := String.ofList (Nat.toDigits 16 n)

/-- A natural number in at least the given number of hexadecimal digits. -/
def hexadecimalOf (width n : Nat) : String :=
  let digits := Nat.toDigits 16 n
  String.ofList (List.replicate (width - digits.length) '0' ++ digits)

/-- The number that digits of a value each are. -/
def ofHexDigits (digits : List Nat) : Nat := digits.foldl (fun n d => 16 * n + d) 0

/-- The number that hexadecimal digits are; none if a character is no digit. -/
def readHexadecimal? (cs : List Char) : Option Nat := (cs.mapM hexDigit?).map ofHexDigits

/-- Bytes as two digits each. -/
def bytesText (bytes : List UInt8) : String := String.join (bytes.map fun b => hexadecimalOf 2 b.toNat)

/-- The bytes of pairs of digits; none if a character is no digit or stands alone. -/
def readBytes? : List Char → Option (List UInt8)
  | [] => some []
  | [_] => none
  | a :: b :: rest => do
    let n ← readHexadecimal? [a, b]
    return UInt8.ofNat n :: (← readBytes? rest)

theorem hexDigit?_digitChar {d : Nat} (h : d < 16) : hexDigit? (Nat.digitChar d) = some d := by
  have all : ∀ d : Fin 16, hexDigit? (Nat.digitChar d.val) = some d.val := by decide
  exact all ⟨d, h⟩

end ScreenFusion.Text
