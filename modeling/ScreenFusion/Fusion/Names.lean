import ScreenFusion.Error
import ScreenFusion.Text.Blank
import ScreenFusion.Wgsl.Name

/-!
# ScreenFusion.Fusion.Names — names in a fused program

The scaffold of a fused program owns some names, and everything that begins with `fx_`.  A member's own name is kept if
it is free; otherwise the index of the unit is added, and then the least number from one on that makes it free.

* `freshName_of_not_mem`: a free name is kept.
-/

namespace ScreenFusion.Fusion

/-- Names at module scope that the scaffold owns, and those of the entry point's locals. -/
def reservedNames : List String :=
  ["fx", "fx_input", "fx_sampler", "fx_depth", "FxUniforms", "FxVertexOutput", "vs_main", "fs_main", "input_color",
    "uv", "depth", "color"]

/-- The members of the uniform block that every program begins with: time, sizes of the output, camera planes. -/
def frameMembers : List String := ["frame", "resolution", "camera"]

/-- The candidates for a name in order of preference, with numbers up to `count`. -/
def candidates (base : String) (index count : Nat) : List String :=
  base :: s!"{base}_{index}" :: (List.range count).map fun k => s!"{base}_{index}_{k + 1}"

/-- The first candidate that is not taken.  Of more candidates than there are taken names, one is free. -/
def freshName (base : String) (index : Nat) (taken : List String) : String :=
  ((candidates base index taken.length).find? fun c => !taken.contains c).getD base

/-- Whether a text begins with another. -/
def beginsWith (start s : String) : Bool := start.toList.isPrefixOf s.toList

/-- Checks the name of a uniform or a define. -/
def checkName (context : String) (role : NameRole) (name : String) : Except Error Unit :=
  if !Wgsl.isIdentifier name || Wgsl.isKeyword name then .error (.configuration context (.unusableName role name))
  else if beginsWith "fx_" name || reservedNames.contains name then
    .error (.configuration context (.reservedName role name))
  else .ok ()

/-- A name as it may stand in a line comment: control characters become spaces. -/
def commentText (name : String) : String :=
  String.ofList (name.toList.map fun c => if Text.isControl c then ' ' else c)

theorem freshName_of_not_mem {base : String} {taken : List String} (h : base ∉ taken) (index : Nat) :
    freshName base index taken = base := by
  simp [freshName, candidates, h]

end ScreenFusion.Fusion
