import ScreenFusion.Proofs.Fusion.Separation
import ScreenFusion.Proofs.Fusion.Slots

/-!
# ScreenFusion.Proofs.Fusion.Extension — units added at the end

What a unit becomes in a program depends on the units before it only: on how many there are, and on the names that they
took.  So units that are added at the end leave the parts of the others as they are.

* `planUnits_append`, `members_append`, `fuseUnits_append`: the units before and those after.
* `fuse_append`: the program of the units before is what the whole program begins with.
-/

namespace ScreenFusion.Fusion

/-! ## Slots -/

theorem tableFrom_append (index : Nat) (units more : List FuseUnit) (taken : List String) :
    tableFrom index (units ++ more) taken = tableFrom index units taken ++
      tableFrom (index + units.length) more (taken ++ (tableFrom index units taken).map Prod.fst) := by
  induction units generalizing index taken with
  | nil => simp [tableFrom]
  | cons u us ih =>
    simp only [List.cons_append, tableFrom, ih, List.map_append, List.append_assoc, List.length_cons, Nat.add_assoc,
      Nat.add_comm 1]

/-- The plans of units do not depend on those after them. -/
theorem planUnits_append (index : Nat) (units more : List FuseUnit) (table : SlotTable) :
    (planUnits index (units ++ more) table).1 = (planUnits index units table).1 ++
      (planUnits (index + units.length) more (planUnits index units table).2).1 := by
  induction units generalizing index table with
  | nil => rfl
  | cons u us ih =>
    have hindex : index + 1 + us.length = index + (u :: us).length := by
      rw [List.length_cons]
      omega
    rw [List.cons_append]
    simp only [planUnits, ih, hindex, List.cons_append]

/-- Units with their plans. -/
theorem zip_planUnits_append (index : Nat) (units more : List FuseUnit) (table : SlotTable) :
    ∃ rest, (units ++ more).zip (planUnits index (units ++ more) table).1 =
      units.zip (planUnits index units table).1 ++ rest := by
  rw [planUnits_append, List.zip_append (length_planUnits index units table).symm]
  exact ⟨_, rfl⟩

/-! ## Members -/

theorem membersFrom_append (options : FuseOptions) (index : Nat) (units more : List (FuseUnit × UnitPlan))
    (taken : Taken) : membersFrom options index units taken <+: membersFrom options index (units ++ more) taken := by
  induction units generalizing index taken with
  | nil => exact List.nil_prefix
  | cons u us ih => exact List.cons_prefix_cons.2 ⟨rfl, ih _ _⟩

theorem members_append (options : FuseOptions) (units more : List FuseUnit) :
    members options units <+: members options (units ++ more) := by
  obtain ⟨rest, hzip⟩ := zip_planUnits_append 0 units more frameSlots
  unfold members
  rw [hzip]
  exact membersFrom_append options 0 _ rest reservedNames

/-! ## Programs -/

section Programs

variable {label : String} {options : FuseOptions}

theorem fuseUnits_cons_of_ok {index : Nat} {u : FuseUnit × UnitPlan} {rest : List (FuseUnit × UnitPlan)}
    {taken taken' : Taken} {part : UnitText} {parts : List UnitText}
    (hu : fuseUnit label options index u.1 u.2 taken = .ok (part, taken'))
    (hrest : (fuseUnits label options (index + 1) rest taken').2 = .ok parts) :
    (fuseUnits label options index (u :: rest) taken).2 = .ok (part :: parts) := by
  obtain ⟨u, plan⟩ := u
  rw [fuseUnits, hu]
  show (fuseUnits label options (index + 1) rest taken').2.map (part :: ·) = _
  rw [hrest]
  rfl

/-- If all units can be fused, the first ones can, and their parts are the first. -/
theorem fuseUnits_append {index : Nat} {units more : List (FuseUnit × UnitPlan)} {taken : Taken}
    {parts : List UnitText} (h : (fuseUnits label options index (units ++ more) taken).2 = .ok parts) :
    ∃ earlier, (fuseUnits label options index units taken).2 = .ok earlier ∧ earlier <+: parts := by
  induction units generalizing index taken parts with
  | nil => exact ⟨[], rfl, List.nil_prefix⟩
  | cons u us ih =>
    obtain ⟨part, taken', rest, hpart, hrest, rfl⟩ := fuseUnits_cons_ok h
    obtain ⟨earlier, hearlier, hprefix⟩ := ih hrest
    exact ⟨part :: earlier, fuseUnits_cons_of_ok hpart hearlier, List.cons_prefix_cons.2 ⟨rfl, hprefix⟩⟩

/-- A program whose stages are the first of those of another one, with the first of its slots. -/
structure Begins (earlier source : ProgramSource) : Prop where
  slots : earlier.slots <+: source.slots
  stages : earlier.stages <+: source.stages

theorem Begins.kinds {earlier source : ProgramSource} (h : Begins earlier source) : earlier.kinds <+: source.kinds :=
  h.slots.map Prod.snd

theorem Begins.layout {earlier source : ProgramSource} (h : Begins earlier source) :
    earlier.layout <+: source.layout := h.stages.map ProgramStage.slots

/-- If all units can be fused, the first ones can, and the program of all begins with theirs. -/
theorem exists_begins {units more : List FuseUnit} {source : ProgramSource}
    (h : (fuse label (units ++ more) options).2 = .ok source) :
    ∃ earlier, (fuse label units options).2 = .ok earlier ∧ Begins earlier source := by
  obtain ⟨parts, hparts, rfl⟩ := fuse_ok h
  obtain ⟨rest, hzip⟩ := zip_planUnits_append 0 units more frameSlots
  rw [hzip] at hparts
  obtain ⟨earlierParts, hearlierParts, hprefix⟩ := fuseUnits_append hparts
  let table := (planUnits 0 units frameSlots).2
  have hearlier : (fuse label units options).2 = .ok (assemble label options table earlierParts) := by
    show (fuseUnits label options 0 (units.zip (planUnits 0 units frameSlots).1) reservedNames).2.map _ = _
    rw [hearlierParts]
    rfl
  refine ⟨_, hearlier, ?_, hprefix.map UnitText.stage⟩
  rw [slots_of_fuse hearlier, slots_of_fuse h, tableFrom_append, ← List.append_assoc]
  exact List.prefix_append _ _

/-- Units that are added at the end leave what the others become as it is: without them there is a program too, and its
slots, stages, code and calls are those with which the whole program begins. -/
theorem fuse_append {units more : List FuseUnit} {source : ProgramSource}
    (h : (fuse label (units ++ more) options).2 = .ok source) :
    let ms := members options units
    let all := members options (units ++ more)
    ∃ earlier, (fuse label units options).2 = .ok earlier ∧
      earlier.slots <+: source.slots ∧ earlier.kinds <+: source.kinds ∧
      earlier.stages <+: source.stages ∧ earlier.layout <+: source.layout ∧
      ms.map Member.block <+: all.map Member.block ∧ ms.map Member.call <+: all.map Member.call ∧
      earlier.text = moduleText label earlier.slots (ms.map Member.block) (ms.map Member.call) earlier.readsDepth
        options.alpha ∧
      source.text = moduleText label source.slots (all.map Member.block) (all.map Member.call) source.readsDepth
        options.alpha := by
  intro ms all
  obtain ⟨earlier, hearlier, hbegins⟩ := exists_begins h
  have hmembers : ms <+: all := members_append options units more
  exact ⟨earlier, hearlier, hbegins.slots, hbegins.kinds, hbegins.stages, hbegins.layout,
    hmembers.map Member.block, hmembers.map Member.call, (fuse_members hearlier).1, (fuse_members h).1⟩

end Programs

/-- The second of two units with the same names gets others; the first one keeps its slots and its call. -/
theorem fuse_append_twins : ∃ source earlier, (fuse "fx" (twins.take 1 ++ twins.drop 1) default).2 = .ok source ∧
    (fuse "fx" (twins.take 1) default).2 = .ok earlier ∧ earlier.slots <+: source.slots ∧
    earlier.layout <+: source.layout ∧ ((members default (twins.take 1)).map Member.call).length = 1 ∧
    (members default (twins.take 1)).map Member.call <+: (members default twins).map Member.call := by
  obtain ⟨source, hsource⟩ :=
    exists_of_isOk (show (fuse "fx" (twins.take 1 ++ twins.drop 1) default).2.isOk = true by decide +kernel)
  obtain ⟨earlier, hearlier, hslots, -, -, hlayout, -, hcalls, -⟩ := fuse_append hsource
  exact ⟨source, earlier, hsource, hearlier, hslots, hlayout, by decide +kernel, hcalls⟩

end ScreenFusion.Fusion
