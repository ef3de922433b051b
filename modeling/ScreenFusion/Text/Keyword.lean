import ScreenFusion.Text.Blank

/-!
# ScreenFusion.Text.Keyword — keywords in options and descriptors

A keyword is read without regard to ASCII case, to blanks around it, and to whether its parts are joined by hyphens or
by underscores.
-/

namespace ScreenFusion.Text

/-- The normal form of a keyword: no blanks around it, lower case, hyphens. -/
def keyword (s : String) : String :=
  String.ofList <| (trim s.toList).map fun c => if c = '_' then '-' else c.toLower

end ScreenFusion.Text
