import ScreenFusion.Act
import ScreenFusion.Proofs.Fusion.Layout
import ScreenFusion.Proofs.Fusion.Naming

/-!
# ScreenFusion.Proofs.Fusion.Source — what a fused program consists of

If units can be fused, the program has one stage for each unit, in order, with the unit's kernel and its run of slots.
Nothing but renamed uniforms is reported on the way.

* `fuse_source`: the program of units.
* `Fused.fits`: the stages' slots have the kinds of the units' values.
* `mem_fuse_events`: what is reported.
-/

namespace ScreenFusion.Fusion

/-- The stage of a unit with the given slots. -/
def stageOf (u : FuseUnit) (slots : UnitSlots) : ProgramStage := ⟨u.name, u.kernel, slots, u.attributes.readsDepth⟩

/-- What a program of units consists of, apart from its text and the names of its slots. -/
structure Fused (label : String) (units : List FuseUnit) (options : FuseOptions) (source : ProgramSource) : Prop where
  label_eq : source.label = label
  stages_eq : source.stages = (units.zip (layoutFrom 3 units)).map fun u => stageOf u.1 u.2
  kinds_eq : source.kinds = [.float, .float, .float] ++ units.flatMap unitKinds
  forcesAlpha_eq : source.forcesAlpha = !options.alpha

/-! ## The parts of a program -/

theorem fuseUnit_stage {label : String} {options : FuseOptions} {index : Nat} {u : FuseUnit} {plan : UnitPlan}
    {taken taken' : Taken} {part : UnitText} (h : fuseUnit label options index u plan taken = .ok (part, taken')) :
    part.stage = stageOf u plan.slots := by
  unfold fuseUnit at h
  obtain ⟨-, -, h⟩ := ok_of_bind h
  obtain ⟨defines, -, h⟩ := ok_of_bind h
  dsimp only at h
  split at h
  · obtain ⟨code, -, h⟩ := ok_of_bind h
    split at h
    · cases h
    · obtain ⟨⟨substitutes, taken⟩, -, h⟩ := ok_of_bind h
      cases h
      rfl
  · obtain ⟨code, hcode, -⟩ := ok_of_bind h
    cases hcode

theorem fuseUnits_stages {label : String} {options : FuseOptions} {index : Nat} {units : List (FuseUnit × UnitPlan)}
    {taken : Taken} {parts : List UnitText} (h : (fuseUnits label options index units taken).2 = .ok parts) :
    parts.map UnitText.stage = units.map fun u => stageOf u.1 u.2.slots := by
  induction units generalizing index taken parts with
  | nil =>
    cases h
    rfl
  | cons u rest ih =>
    obtain ⟨part, taken', more, hu, hr, rfl⟩ := fuseUnits_cons_ok h
    rw [List.map_cons, List.map_cons, fuseUnit_stage hu, ih hr]

/-- The program of units that can be fused. -/
theorem fuse_source {label : String} {units : List FuseUnit} {options : FuseOptions} {source : ProgramSource}
    (h : (fuse label units options).2 = .ok source) : Fused label units options source := by
  obtain ⟨parts, hparts, rfl⟩ := fuse_ok h
  refine ⟨rfl, ?_, planUnits_kinds 0 units frameSlots, rfl⟩
  show parts.map UnitText.stage = _
  have hlayout : layoutFrom 3 units = (planUnits 0 units frameSlots).1.map UnitPlan.slots :=
    (planUnits_slots 0 units frameSlots).symm
  rw [fuseUnits_stages hparts, hlayout, List.zip_map_right, List.map_map]
  rfl

theorem mem_fuseUnits_events {label : String} {options : FuseOptions} {index : Nat}
    {units : List (FuseUnit × UnitPlan)} {taken : Taken} {event : Event}
    (h : event ∈ (fuseUnits label options index units taken).1) :
    ∃ uniform unit member, event = .uniformRenamed label uniform unit member := by
  have hrename {index : Nat} {u : FuseUnit} {plan : UnitPlan} (h : event ∈ renameEvents label index u plan) :
      ∃ uniform unit member, event = .uniformRenamed label uniform unit member := by
    unfold renameEvents at h
    obtain ⟨c, -, hc⟩ := List.mem_filterMap.1 h
    split at hc
    · cases hc
    · cases hc
      exact ⟨_, _, _, rfl⟩
  induction units generalizing index taken with
  | nil => cases h
  | cons u rest ih =>
    obtain ⟨u, plan⟩ := u
    rw [fuseUnits] at h
    cases hu : fuseUnit label options index u plan taken with
    | error e =>
      rw [hu] at h
      exact hrename h
    | ok r =>
      rw [hu] at h
      rcases List.mem_append.1 h with h | h
      · exact hrename h
      · exact ih h

/-- Fusing reports nothing but renamed uniforms. -/
theorem mem_fuse_events {label : String} {units : List FuseUnit} {options : FuseOptions} {event : Event}
    (h : event ∈ (fuse label units options).1) :
    ∃ uniform unit member, event = .uniformRenamed label uniform unit member := by
  have hunits : event ∈ (fuseUnits label options 0 (units.zip (planUnits 0 units frameSlots).1) reservedNames).1 := h
  exact mem_fuseUnits_events hunits

/-- A program reads depth if one of its units does. -/
theorem readsDepth_of_fuse {label : String} {units : List FuseUnit} {options : FuseOptions} {source : ProgramSource}
    (h : (fuse label units options).2 = .ok source) :
    source.readsDepth = units.any (·.attributes.readsDepth) := by
  have hstages : source.readsDepth = source.stages.any ProgramStage.readsDepth := by
    obtain ⟨parts, -, rfl⟩ := fuse_ok h
    rfl
  have hunits := List.map_fst_zip (Nat.le_of_eq (length_layoutFrom 3 units).symm)
  calc source.readsDepth
      = ((units.zip (layoutFrom 3 units)).map Prod.fst).any (·.attributes.readsDepth) := by
        rw [hstages, (fuse_source h).stages_eq, List.any_map, List.any_map]
        rfl
    _ = units.any (·.attributes.readsDepth) := by rw [hunits]

/-! ## The slots of a program -/

namespace Fused

variable {label : String} {units : List FuseUnit} {options : FuseOptions} {source : ProgramSource}

theorem layout_eq (f : Fused label units options source) : source.layout = layoutFrom 3 units := by
  unfold ProgramSource.layout
  rw [f.stages_eq, List.map_map]
  exact List.map_snd_zip (Nat.le_of_eq (length_layoutFrom 3 units))

theorem length_slots (f : Fused label units options source) :
    source.slots.length = 3 + (units.flatMap unitKinds).length := by
  have h := congrArg List.length f.kinds_eq
  rw [ProgramSource.kinds, List.length_map, List.length_append] at h
  exact h

theorem fits (f : Fused label units options source) : List.Forall₂ (Fits source.kinds) units source.layout := by
  have h := fits_layoutFrom [.float, .float, .float] [] units
  rw [List.append_nil] at h
  rw [f.kinds_eq, f.layout_eq]
  exact h

end Fused

end ScreenFusion.Fusion
