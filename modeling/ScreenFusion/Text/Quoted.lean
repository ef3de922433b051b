import ScreenFusion.Text.Hexadecimal
import ScreenFusion.Text.Printable

/-!
# ScreenFusion.Text.Quoted — text between quotation marks in a message

A message quotes a text with its quotation marks, backslashes and unprintable characters escaped: by a letter for the
common ones, and otherwise by the code point in hexadecimal between braces.
-/

namespace ScreenFusion.Text

/-- A character as it is written between quotation marks. -/
def escapedChar (c : Char) : String :=
  match c with
  | '"' => "\\\""
  | '\\' => "\\\\"
  | '\n' => "\\n"
  | '\r' => "\\r"
  | '\t' => "\\t"
  | '\x00' => "\\0"
  | c => if isPrintable c then c.toString else "\\u\x7b" ++ hexadecimal c.toNat ++ "\x7d"

/-- A text between quotation marks. -/
def quoted (s : String) : String :=
  "\"" ++ String.join (s.toList.map escapedChar) ++ "\""

end ScreenFusion.Text
