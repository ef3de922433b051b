/-!
# ScreenFusion.Text.Position — positions at the end of a message

A message may end in the place that it is about, ` at line L column C` with numbers below `2^64`.  `withoutPosition`
is the message itself.

* `dropWord?_append`: a word at the end is found there.
* `withoutPosition_of_none`: a message that does not end in a numeral is kept.
-/

namespace ScreenFusion.Text

-- Powers are those of the core library.
attribute [local instance (high)] instPowNat

/-- The characters before a word that a text ends in; the text is given last character first. -/
def dropWord? (word : String) (reversed : List Char) : Option (List Char) :=
  if word.toList.reverse.isPrefixOf reversed then some (reversed.drop word.toList.length) else none

/-- The number that decimal digits stand for. -/
def numeral (digits : List Char) : Nat := digits.foldl (fun n c => 10 * n + (c.toNat - 48)) 0

/-- The characters before the numeral that a text ends in; the text is given last character first. -/
def dropNumeral? (reversed : List Char) : Option (List Char) :=
  let digits := (reversed.takeWhile Char.isDigit).reverse
  if digits.isEmpty || 2 ^ (64 : Nat) ≤ numeral digits then none else some (reversed.dropWhile Char.isDigit)

/-- The characters before the position that a text ends in; the text is given last character first. -/
def dropPosition? (reversed : List Char) : Option (List Char) := do
  let beforeColumn ← dropWord? " column " (← dropNumeral? reversed)
  dropWord? " at line " (← dropNumeral? beforeColumn)

/-- A message without the position at its end. -/
def withoutPosition (message : String) : String :=
  match dropPosition? message.toList.reverse with
  | some reversed => String.ofList reversed.reverse
  | none => message

theorem dropWord?_append (word : String) (cs : List Char) :
    dropWord? word (word.toList.reverse ++ cs) = some cs := by
  have h : word.toList.reverse.isPrefixOf (word.toList.reverse ++ cs) = true :=
    List.isPrefixOf_iff_prefix.mpr (List.prefix_append _ _)
  rw [dropWord?, if_pos h, ← List.length_reverse, List.drop_left]

theorem withoutPosition_of_none {message : String} (h : dropNumeral? message.toList.reverse = none) :
    withoutPosition message = message := by
  simp [withoutPosition, dropPosition?, h]

end ScreenFusion.Text
