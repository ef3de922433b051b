import ScreenFusion.Fusion.Names
import ScreenFusion.Fusion.Program

/-!
# ScreenFusion.Fusion.Unit — what is fused, and its slots

A unit is what one effect or material brings to a program.  `planUnits` gives each unit its slots in the uniform block:
one for its blend mode if it has one, and one for each uniform, named as `freshName` says.  The plan depends on the names
and kinds of the uniforms only.
-/

namespace ScreenFusion.Fusion

/-- What one effect or material brings to a program. -/
structure FuseUnit where
  name : String
  shader : String
  uniforms : OrderedMap UniformValue
  defines : OrderedMap String
  attributes : Attributes
  kernel : Option Kernel
  /-- Whether the result is combined with the running colour instead of replacing it. -/
  blended : Bool

/-- How the units are fused. -/
structure FuseOptions where
  precision : Precision
  alpha : Bool
  deriving DecidableEq

instance : Inhabited FuseOptions := ⟨.half, true⟩

/-- The unit that an effect brings. -/
def FuseUnit.ofEffect (e : Effect) : FuseUnit where
  name := e.name
  shader := e.shader
  uniforms := e.uniforms
  defines := e.defines
  attributes := e.attributes
  kernel := e.kernel
  blended := true

/-- The slots of a program so far. -/
abbrev SlotTable := List (String × SlotKind)

/-- The slots that every program begins with. -/
def frameSlots : SlotTable := frameMembers.map fun m => (m, .float)

/-- A slot given to a unit. -/
structure Claim where
  /-- The name that the unit knows it by. -/
  name : String
  slot : Nat
  /-- The member of the uniform block. -/
  member : String
  deriving DecidableEq, Inhabited

/-- The next slot of a table, named after `base` if that is free. -/
def claim (index : Nat) (base : String) (kind : SlotKind) (table : SlotTable) : Claim × SlotTable :=
  let member := freshName base index (table.map Prod.fst)
  (⟨base, table.length, member⟩, table ++ [(member, kind)])

/-- Slots for named values in order. -/
def claimAll (index : Nat) : List (String × UniformValue) → SlotTable → List Claim × SlotTable
  | [], table => ([], table)
  | (name, value) :: rest, table =>
    let (c, table) := claim index name (.of value) table
    let (cs, table) := claimAll index rest table
    (c :: cs, table)

/-- The slots given to a unit. -/
structure UnitPlan where
  blend : Option Claim
  uniforms : List Claim
  deriving DecidableEq, Inhabited

/-- The slots without the members' names. -/
def UnitPlan.slots (p : UnitPlan) : UnitSlots where
  blend := p.blend.map Claim.slot
  uniforms := p.uniforms.map fun c => (c.name, c.slot)

/-- Slots for a unit. -/
def planUnit (index : Nat) (u : FuseUnit) (table : SlotTable) : UnitPlan × SlotTable :=
  if u.blended then
    let (blend, table) := claim index s!"e{index}_blend" .float table
    let (uniforms, table) := claimAll index u.uniforms.entries table
    (⟨some blend, uniforms⟩, table)
  else
    let (uniforms, table) := claimAll index u.uniforms.entries table
    (⟨none, uniforms⟩, table)

/-- Slots for units numbered from `index`, and the whole table. -/
def planUnits (index : Nat) : List FuseUnit → SlotTable → List UnitPlan × SlotTable
  | [], table => ([], table)
  | u :: us, table =>
    let (p, table) := planUnit index u table
    let (ps, table) := planUnits (index + 1) us table
    (p :: ps, table)

end ScreenFusion.Fusion
