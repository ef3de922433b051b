import Mathlib.Data.List.Forall2
import ScreenFusion.Fusion.Basic
import ScreenFusion.Proofs.Uniform.Block

/-!
# ScreenFusion.Proofs.Fusion.Layout — the slots of fused units

After the frame's slots each unit has a run of consecutive slots, the first for its blend mode if it has one, the others
for its uniforms in order.  Where the run of a unit begins depends only on how many slots the units before it have.

* `planUnits_slots`, `planUnits_kinds`: the plan of units in closed form.
* `flatMap_all_layoutFrom`: no slot belongs to two units.
* `Fits`, `fits_layoutFrom`: the slots of a unit have the kinds of its values.
-/

namespace ScreenFusion

/-! ## Names in an ordered map -/

theorem OrderedMap.find?_of_mem {V : Type} {entries : List (String × V)} (hn : (entries.map Prod.fst).Nodup)
    {name : String} {v : V} (h : (name, v) ∈ entries) :
    (entries.find? fun e => e.1 == name).map Prod.snd = some v := by
  induction entries with
  | nil => cases h
  | cons e es ih =>
    rw [List.map_cons, List.nodup_cons] at hn
    rw [List.find?_cons]
    rcases List.mem_cons.1 h with rfl | h
    · simp
    · have hne : e.1 ≠ name := by
        intro he
        exact hn.1 (List.mem_map.2 ⟨(name, v), h, he.symm⟩)
      rw [beq_false_of_ne hne]
      exact ih hn.2 h

/-- The value that stands with a name is the one found under it. -/
theorem OrderedMap.get?_of_mem {V : Type} {m : OrderedMap V} {name : String} {v : V} (h : (name, v) ∈ m.entries) :
    m.get? name = some v := find?_of_mem m.nodup h

theorem OrderedMap.names_getElem? {V : Type} (m : OrderedMap V) (i : Nat) :
    m.names[i]? = (m.entries[i]?).map Prod.fst := List.getElem?_map

/-- The slots of a unit in order. -/
def UnitSlots.all (u : UnitSlots) : List Nat := u.blend.toList ++ u.uniforms.map Prod.snd

namespace Fusion

/-! ## Layouts in closed form -/

/-- The kinds of the slots of a unit. -/
def unitKinds (u : FuseUnit) : List SlotKind :=
  (if u.blended then [.float] else []) ++ u.uniforms.entries.map fun e => .of e.2

/-- The slots of a unit whose run begins at `base`. -/
def unitSlots (base : Nat) (u : FuseUnit) : UnitSlots :=
  if u.blended then ⟨some base, u.uniforms.names.zipIdx (base + 1)⟩ else ⟨none, u.uniforms.names.zipIdx base⟩

/-- The slots of units whose runs begin at `base`. -/
def layoutFrom (base : Nat) : List FuseUnit → List UnitSlots
  | [] => []
  | u :: us => unitSlots base u :: layoutFrom (base + (unitKinds u).length) us

theorem length_layoutFrom (base : Nat) (units : List FuseUnit) : (layoutFrom base units).length = units.length := by
  induction units generalizing base with
  | nil => rfl
  | cons u us ih => rw [layoutFrom, List.length_cons, List.length_cons, ih]

theorem claimAll_slots (index : Nat) (entries : List (String × UniformValue)) (table : SlotTable) :
    (claimAll index entries table).1.map (fun c => (c.name, c.slot)) =
      (entries.map Prod.fst).zipIdx table.length := by
  induction entries generalizing table with
  | nil => rfl
  | cons e rest ih =>
    obtain ⟨name, value⟩ := e
    simp only [claimAll, claim, List.map_cons, List.zipIdx_cons, ih, List.length_append, List.length_cons,
      List.length_nil, Nat.zero_add]

theorem claimAll_kinds (index : Nat) (entries : List (String × UniformValue)) (table : SlotTable) :
    (claimAll index entries table).2.map Prod.snd = table.map Prod.snd ++ entries.map fun e => .of e.2 := by
  induction entries generalizing table with
  | nil => simp [claimAll]
  | cons e rest ih =>
    obtain ⟨name, value⟩ := e
    simp only [claimAll, claim, ih, List.map_append, List.map_cons, List.map_nil, List.append_assoc,
      List.cons_append, List.nil_append]

theorem planUnit_slots (index : Nat) (u : FuseUnit) (table : SlotTable) :
    (planUnit index u table).1.slots = unitSlots table.length u := by
  unfold planUnit unitSlots
  cases u.blended with
  | true =>
    simp only [if_true, claim, UnitPlan.slots, claimAll_slots, Option.map_some, List.length_append, List.length_cons,
      List.length_nil, Nat.zero_add]
    rfl
  | false =>
    simp only [Bool.false_eq_true, if_false, UnitPlan.slots, claimAll_slots, Option.map_none]
    rfl

theorem planUnit_kinds (index : Nat) (u : FuseUnit) (table : SlotTable) :
    (planUnit index u table).2.map Prod.snd = table.map Prod.snd ++ unitKinds u := by
  unfold planUnit unitKinds
  cases u.blended with
  | true =>
    simp only [if_true, claim, claimAll_kinds, List.map_append, List.map_cons, List.map_nil, List.append_assoc]
  | false =>
    simp only [Bool.false_eq_true, if_false, claimAll_kinds, List.nil_append]

theorem planUnits_slots (index : Nat) (units : List FuseUnit) (table : SlotTable) :
    (planUnits index units table).1.map UnitPlan.slots = layoutFrom table.length units := by
  induction units generalizing index table with
  | nil => rfl
  | cons u us ih =>
    have hl := congrArg List.length (planUnit_kinds index u table)
    simp only [List.length_map, List.length_append] at hl
    simp only [planUnits, List.map_cons, planUnit_slots, ih, layoutFrom, hl]

theorem length_planUnits (index : Nat) (units : List FuseUnit) (table : SlotTable) :
    (planUnits index units table).1.length = units.length := by
  have hlength := congrArg List.length (planUnits_slots index units table)
  rwa [List.length_map, length_layoutFrom] at hlength

theorem planUnits_kinds (index : Nat) (units : List FuseUnit) (table : SlotTable) :
    (planUnits index units table).2.map Prod.snd = table.map Prod.snd ++ units.flatMap unitKinds := by
  induction units generalizing index table with
  | nil => simp [planUnits]
  | cons u us ih =>
    simp only [planUnits, ih, planUnit_kinds, List.flatMap_cons, List.append_assoc]

/-! ## Slots apart -/

theorem length_unitKinds (u : FuseUnit) :
    (unitKinds u).length = (if u.blended then 1 else 0) + u.uniforms.names.length := by
  unfold unitKinds OrderedMap.names
  cases u.blended <;> simp [Nat.add_comm]

theorem all_unitSlots (base : Nat) (u : FuseUnit) :
    (unitSlots base u).all = List.range' base (unitKinds u).length := by
  rw [length_unitKinds]
  unfold unitSlots UnitSlots.all
  cases u.blended with
  | true =>
    simp only [if_true, Option.toList_some, List.zipIdx_map_snd, List.cons_append, List.nil_append]
    rw [Nat.add_comm 1, List.range'_succ]
  | false =>
    simp only [Bool.false_eq_true, if_false, Option.toList_none, List.zipIdx_map_snd, List.nil_append, Nat.zero_add]

theorem flatMap_all_layoutFrom (base : Nat) (units : List FuseUnit) :
    (layoutFrom base units).flatMap UnitSlots.all = List.range' base (units.flatMap unitKinds).length := by
  induction units generalizing base with
  | nil => rfl
  | cons u us ih =>
    rw [layoutFrom, List.flatMap_cons, ih, all_unitSlots, List.flatMap_cons, List.length_append, List.range'_append_1]

/-! ## Kinds of slots -/

/-- The slots have the kinds of a unit's blend mode and uniforms. -/
structure Fits (kinds : List SlotKind) (u : FuseUnit) (slots : UnitSlots) : Prop where
  blended : slots.blend.isSome = u.blended
  names : slots.uniforms.map Prod.fst = u.uniforms.names
  blend : ∀ s, slots.blend = some s → kinds[s]? = some .float
  uniforms : ∀ name s v, (name, s) ∈ slots.uniforms → u.uniforms.get? name = some v → kinds[s]? = some (.of v)

/-- A kind in the middle of the table. -/
theorem getElem?_run {run : List SlotKind} (pre post : List SlotKind) {i : Nat} {k : SlotKind} (h : run[i]? = some k) :
    (pre ++ run ++ post)[pre.length + i]? = some k := by
  have hi : i < run.length := (List.getElem?_eq_some_iff.1 h).1
  rw [List.append_assoc, List.getElem?_append_right (by omega), Nat.add_sub_cancel_left,
    List.getElem?_append_left hi, h]

/-- A uniform in a run of slots. -/
theorem getElem?_of_mem_zipIdx {m : OrderedMap UniformValue} {base s : Nat} {name : String} {v : UniformValue}
    (hm : (name, s) ∈ m.names.zipIdx base) (hv : m.get? name = some v) :
    ∃ i, s = base + i ∧ (m.entries.map fun e => SlotKind.of e.2)[i]? = some (.of v) := by
  obtain ⟨hle, hi⟩ := List.mk_mem_zipIdx_iff_le_and_getElem?_sub.1 hm
  refine ⟨s - base, by omega, ?_⟩
  rw [OrderedMap.names_getElem?, Option.map_eq_some_iff] at hi
  obtain ⟨⟨n, w⟩, he, rfl⟩ := hi
  have hw := OrderedMap.get?_of_mem (List.mem_of_getElem? he)
  rw [hv] at hw
  cases hw
  rw [List.getElem?_map, he]
  rfl

theorem fits_unitSlots (pre post : List SlotKind) (u : FuseUnit) :
    Fits (pre ++ unitKinds u ++ post) u (unitSlots pre.length u) := by
  unfold unitSlots unitKinds
  cases hb : u.blended with
  | true =>
    refine ⟨hb.symm, List.zipIdx_map_fst _ _, ?_, ?_⟩
    · intro s hs
      cases hs
      exact getElem?_run (i := 0) pre post rfl
    · intro name s v hm hv
      obtain ⟨i, rfl, hi⟩ := getElem?_of_mem_zipIdx hm hv
      have hrun := getElem?_run (pre ++ [.float]) post hi
      rw [List.length_append] at hrun
      simp only [if_true, ← List.append_assoc]
      exact hrun
  | false =>
    refine ⟨hb.symm, List.zipIdx_map_fst _ _, ?_, ?_⟩
    · intro s hs
      cases hs
    · intro name s v hm hv
      obtain ⟨i, rfl, hi⟩ := getElem?_of_mem_zipIdx hm hv
      exact getElem?_run pre post hi

theorem fits_layoutFrom (pre post : List SlotKind) (units : List FuseUnit) :
    List.Forall₂ (Fits (pre ++ units.flatMap unitKinds ++ post)) units (layoutFrom pre.length units) := by
  induction units generalizing pre with
  | nil => exact .nil
  | cons u us ih =>
    rw [List.flatMap_cons, layoutFrom, ← List.append_assoc]
    have hu := fits_unitSlots pre (us.flatMap unitKinds ++ post) u
    have hus := ih (pre ++ unitKinds u)
    rw [List.length_append] at hus
    rw [← List.append_assoc] at hu
    exact .cons hu hus

end Fusion

end ScreenFusion
