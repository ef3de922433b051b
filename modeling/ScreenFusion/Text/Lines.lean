/-!
# ScreenFusion.Text.Lines — lines and the numbered listing

A line ends at a line feed; a carriage return right before the line feed belongs to the line end.  A carriage
return anywhere else is part of its line.  Text after the last line feed is a line of its own if there is any.
-/

namespace ScreenFusion.Text

/-- The lines of a text without their line ends. -/
def lines : List Char → List (List Char)
  | [] => []
  | '\n' :: cs => [] :: lines cs
  | '\r' :: '\n' :: cs => [] :: lines cs
  | c :: cs => match lines cs with
    | [] => [[c]]
    | l :: ls => (c :: l) :: ls

/-- A number written to the right of a column of the given width. -/
def rightAligned (width n : Nat) : String :=
  let digits := toString n
  String.ofList (List.replicate (width - digits.length) ' ') ++ digits

/-- The lines of a text, numbered from one in a column of width four. -/
def listing (source : String) : String :=
  String.join <| (lines source.toList).zipIdx.map fun (line, i) =>
    rightAligned 4 (i + 1) ++ " | " ++ String.ofList line ++ "\n"

@[simp] theorem lines_nil : lines [] = [] := rfl

@[simp] theorem lines_lineFeed (cs : List Char) : lines ('\n' :: cs) = [] :: lines cs := by
  rw [lines]

@[simp] theorem lines_carriageReturn_lineFeed (cs : List Char) :
    lines ('\r' :: '\n' :: cs) = [] :: lines cs := by
  rw [lines]

end ScreenFusion.Text
