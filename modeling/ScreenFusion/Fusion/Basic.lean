import ScreenFusion.Event
import ScreenFusion.Fusion.Module
import ScreenFusion.Fusion.Unit
import ScreenFusion.Wgsl.Scope

/-!
# ScreenFusion.Fusion.Basic — many units, one program

Fusion keeps the units apart.  Functions and structures get the number of their unit in front, uniforms and valued defines
keep their names unless an earlier unit has them, and what a unit says about them is renamed to match.
-/

namespace ScreenFusion.Fusion

/-- What the names of a unit become: its own name and the text that stands for it. -/
abbrev Substitutes := List (String × String)

/-- The names at module scope that are taken. -/
abbrev Taken := List String

/-- What a unit's uniforms become. -/
def uniformSubstitutes : List (String × UniformValue) → List Claim → Substitutes
  | (name, value) :: us, c :: cs => (name, value.access ("fx." ++ c.member)) :: uniformSubstitutes us cs
  | _, _ => []

/-- Checks the names of a unit's uniforms in order. -/
def checkUniforms (context : String) : List String → Except Error Unit
  | [] => .ok ()
  | n :: ns => do
    checkName context .uniform n
    checkUniforms context ns

/-- The defines of a unit in a program. -/
structure DefineText where
  /-- The declarations of the defines that have a value. -/
  constants : String
  substitutes : Substitutes
  taken : Taken

/-- Takes in the defines of a unit in order.  One with a value becomes a constant; all others are flags. -/
def fuseDefines (context : String) (index : Nat) :
    List (String × String) → DefineText → Except Error DefineText
  | [], d => .ok d
  | (name, value) :: rest, d => do
    checkName context .define name
    if (d.substitutes.lookup name).isSome then
      .error (.configuration context (.uniformAndDefine name))
    else
      let value := Text.trim value.toList
      if value.isEmpty then fuseDefines context index rest d
      else
        let fused := freshName name index d.taken
        let line := "const " ++ fused ++ " = " ++ String.ofList value ++ ";\n"
        fuseDefines context index rest
          ⟨d.constants ++ line, d.substitutes ++ [(name, fused)], d.taken ++ [fused]⟩

/-- Takes in the functions and structures of a unit in order. -/
def fuseItems (context : String) (index : Nat) :
    List String → Substitutes → Taken → Except Error (Substitutes × Taken)
  | [], substitutes, taken => .ok (substitutes, taken)
  | item :: rest, substitutes, taken =>
    if beginsWith "fx_" item || (substitutes.lookup item).isSome then
      .error (.configuration context (.clashingItem item))
    else
      let fused := freshName s!"e{index}_{item}" index taken
      fuseItems context index rest (substitutes ++ [(item, fused)]) (taken ++ [fused])

/-- A unit's part of a program. -/
structure UnitText where
  /-- The unit's constants and code. -/
  block : String
  /-- The line of the entry point that runs the unit. -/
  call : String
  stage : ProgramStage

/-- The line of the entry point that runs a unit. -/
def callText (blend : Option Claim) (main : String) (readsDepth : Bool) : String :=
  let run := main ++ (if readsDepth then "(color, uv, depth)" else "(color, uv)")
  match blend with
  | some c => "    color = fx_blend(fx." ++ c.member ++ ", color, " ++ run ++ ");"
  | none => "    color = " ++ run ++ ";"

/-- The name in messages of a unit of a program. -/
def unitContext (label : String) (index : Nat) (u : FuseUnit) : String :=
  s!"effect {u.name} (#{index}) in {label}"

/-- A unit's part of a program, and the names taken after it. -/
def fuseUnit (label : String) (options : FuseOptions) (index : Nat) (u : FuseUnit) (plan : UnitPlan)
    (taken : Taken) : Except Error (UnitText × Taken) := do
  let context := unitContext label index u
  checkUniforms context u.uniforms.names
  let defines ← fuseDefines context index u.defines.entries
    ⟨"", uniformSubstitutes u.uniforms.entries plan.uniforms, taken⟩
  let code ←
    match Wgsl.selectText (options.precision.define :: u.defines.names) u.shader.toList with
    | .ok code => .ok code
    | .error fault => .error (.configuration context (.conditionals fault))
  let items := Wgsl.declaredItems code
  if !items.contains "main_image" then .error (.configuration context .noEntryPoint)
  else
    let (substitutes, taken) ← fuseItems context index items defines.substitutes defines.taken
    let code := Wgsl.rename (fun n => substitutes.lookup n) code
    let block := "// ---- " ++ commentText u.name ++ " ----\n" ++ defines.constants ++
      String.ofList (Text.trimEnd code)
    let main := (substitutes.lookup "main_image").getD "main_image"
    let readsDepth := u.attributes.readsDepth
    return (⟨block, callText plan.blend main readsDepth, ⟨u.name, u.kernel, plan.slots, readsDepth⟩⟩, taken)

/-- The reports of uniforms of a unit that are renamed; names from the first unusable one on are not reached. -/
def renameEvents (label : String) (index : Nat) (u : FuseUnit) (plan : UnitPlan) : List Event :=
  let context := unitContext label index u
  (plan.uniforms.takeWhile fun c => (checkName context .uniform c.name).isOk).filterMap fun c =>
    if c.member = c.name then none else some (.uniformRenamed label c.name u.name c.member)

/-- The parts of units numbered from `index`, up to the first error, with what is reported on the way. -/
def fuseUnits (label : String) (options : FuseOptions) (index : Nat) :
    List (FuseUnit × UnitPlan) → Taken → List Event × Except Error (List UnitText)
  | [], _ => ([], .ok [])
  | (u, plan) :: rest, taken =>
    let events := renameEvents label index u plan
    match fuseUnit label options index u plan taken with
    | .error e => (events, .error e)
    | .ok (part, taken) =>
      let (more, parts) := fuseUnits label options (index + 1) rest taken
      (events ++ more, parts.map (part :: ·))

/-- The program of units' parts. -/
def assemble (label : String) (options : FuseOptions) (slots : SlotTable) (parts : List UnitText) : ProgramSource :=
  let stages := parts.map UnitText.stage
  let readsDepth := stages.any ProgramStage.readsDepth
  { label
    text := moduleText label slots (parts.map UnitText.block) (parts.map UnitText.call) readsDepth options.alpha
    slots
    stages
    readsDepth
    forcesAlpha := !options.alpha }

/-- The program of units in order, and what is reported while it is made. -/
def fuse (label : String) (units : List FuseUnit) (options : FuseOptions) : List Event × Except Error ProgramSource :=
  let (plans, slots) := planUnits 0 units frameSlots
  let (events, parts) := fuseUnits label options 0 (units.zip plans) reservedNames
  (events, parts.map (assemble label options slots))

end ScreenFusion.Fusion
