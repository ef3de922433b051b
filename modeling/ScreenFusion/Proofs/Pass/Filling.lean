import Mathlib.Data.List.Flatten
import ScreenFusion.Pass.Effect
import ScreenFusion.Proofs.Fusion.Source

/-!
# ScreenFusion.Proofs.Pass.Filling — what stands in the slots of a draw

A draw of an effect pass starts from the frame's values and zeros, and each member in turn writes into the slots of the
unit at its position.  Since no slot belongs to two units, what a unit's slots hold in the end is what the member at the
unit's position wrote.

* `feeds_values`: the slots of a unit with a member at its position.
* `values_of_no_member`: the slots of a unit without one hold zeros.
* `values_frame`: the first slot holds the time.
-/

namespace ScreenFusion

/-- No slot belongs to two units or to the frame, and every slot is one of the first `count`. -/
structure Separate (layout : List UnitSlots) (count : Nat) : Prop where
  nodup : (layout.flatMap UnitSlots.all).Nodup
  least : ∀ s ∈ layout.flatMap UnitSlots.all, 3 ≤ s
  bound : ∀ s ∈ layout.flatMap UnitSlots.all, s < count
  frame : 3 ≤ count

theorem Fusion.Fused.separate {label : String} {units : List FuseUnit} {options : FuseOptions} {source : ProgramSource}
    (f : Fused label units options source) : Separate source.layout source.slots.length := by
  rw [f.layout_eq, f.length_slots]
  have hall := flatMap_all_layoutFrom 3 units
  refine ⟨?_, ?_, ?_, by omega⟩
  · rw [hall]
    exact List.nodup_range'
  · intro s hs
    rw [hall, List.mem_range'_1] at hs
    exact hs.1
  · intro s hs
    rw [hall, List.mem_range'_1] at hs
    exact hs.2

/-- The values at a unit's slots are an effect's blend mode and uniforms. -/
structure Feeds (values : List UniformValue) (slots : UnitSlots) (e : Effect) : Prop where
  blend : ∀ s, slots.blend = some s → values[s]? = some e.blend.packed
  uniforms : ∀ name s v, (name, s) ∈ slots.uniforms → e.uniforms.get? name = some v → values[s]? = some v

/-! ## Writing values in order -/

section Writing

variable {values : List UniformValue} {writes : List (Nat × UniformValue)} {s : Nat} {v : UniformValue}

/-- The values with one of them replaced. -/
def writeSlot (values : List UniformValue) (w : Nat × UniformValue) : List UniformValue := values.set w.1 w.2

theorem length_foldl_writeSlot (writes : List (Nat × UniformValue)) (values : List UniformValue) :
    (writes.foldl writeSlot values).length = values.length := by
  induction writes generalizing values with
  | nil => rfl
  | cons w ws ih => rw [List.foldl_cons, ih, writeSlot, List.length_set]

theorem foldl_writeSlot_of_not_mem (h : s ∉ writes.map Prod.fst) :
    (writes.foldl writeSlot values)[s]? = values[s]? := by
  induction writes generalizing values with
  | nil => rfl
  | cons w ws ih =>
    rw [List.map_cons, List.mem_cons, not_or] at h
    rw [List.foldl_cons, ih h.2, writeSlot, List.getElem?_set_ne (Ne.symm h.1)]

theorem foldl_writeSlot_of_mem (hn : (writes.map Prod.fst).Nodup) (hm : (s, v) ∈ writes) (hs : s < values.length) :
    (writes.foldl writeSlot values)[s]? = some v := by
  induction writes generalizing values with
  | nil => cases hm
  | cons w ws ih =>
    rw [List.map_cons, List.nodup_cons] at hn
    rw [List.foldl_cons]
    rcases List.mem_cons.1 hm with rfl | hm
    · rw [foldl_writeSlot_of_not_mem hn.1, writeSlot, List.getElem?_set_self hs]
    · exact ih hn.2 hm (by rwa [writeSlot, List.length_set])

end Writing

namespace EffectPass

/-! ## What members write -/

/-- What a member writes into the slots of a unit. -/
def unitWrites (unit : Effect × UnitSlots) : List (Nat × UniformValue) :=
  (unit.2.blend.map fun slot => (slot, unit.1.blend.packed)).toList ++
    unit.2.uniforms.filterMap fun s => (unit.1.uniforms.get? s.1).map fun v => (s.2, v)

theorem fillUniforms_eq (uniforms : OrderedMap UniformValue) (slots : List (String × Nat))
    (values : List UniformValue) :
    fillUniforms uniforms slots values =
      (slots.filterMap fun s => (uniforms.get? s.1).map fun v => (s.2, v)).foldl writeSlot values := by
  unfold fillUniforms
  induction slots generalizing values with
  | nil => rfl
  | cons s rest ih =>
    rw [List.foldl_cons, List.filterMap_cons, ih]
    cases uniforms.get? s.1 with
    | none => rfl
    | some v => rfl

theorem fillUnit_eq (values : List UniformValue) (unit : Effect × UnitSlots) :
    fillUnit values unit = (unitWrites unit).foldl writeSlot values := by
  obtain ⟨e, blend, uniforms⟩ := unit
  unfold fillUnit unitWrites
  rw [List.foldl_append, ← fillUniforms_eq]
  cases blend with
  | none => rfl
  | some slot => rfl

theorem foldl_fillUnit (units : List (Effect × UnitSlots)) (values : List UniformValue) :
    units.foldl fillUnit values = (units.flatMap unitWrites).foldl writeSlot values := by
  induction units generalizing values with
  | nil => rfl
  | cons unit rest ih => rw [List.foldl_cons, ih, fillUnit_eq, List.flatMap_cons, List.foldl_append]

theorem unitWrites_sublist (e : Effect) (slots : UnitSlots) :
    ((unitWrites (e, slots)).map Prod.fst).Sublist slots.all := by
  obtain ⟨blend, uniforms⟩ := slots
  unfold unitWrites UnitSlots.all
  rw [List.map_append]
  refine List.Sublist.append ?_ ?_
  · cases blend with
    | none => exact .slnil
    | some slot => exact .refl _
  · show ((uniforms.filterMap _).map Prod.fst).Sublist (uniforms.map Prod.snd)
    induction uniforms with
    | nil => exact .slnil
    | cons s rest ih =>
      rw [List.filterMap_cons]
      cases e.uniforms.get? s.1 with
      | none => exact .cons _ ih
      | some v => exact .cons_cons _ ih

theorem writes_sublist (effects : List Effect) (layout : List UnitSlots) :
    (((effects.zip layout).flatMap unitWrites).map Prod.fst).Sublist
      ((layout.take effects.length).flatMap UnitSlots.all) := by
  induction effects generalizing layout with
  | nil => simp
  | cons e es ih =>
    cases layout with
    | nil => simp
    | cons slots rest =>
      rw [List.zip_cons_cons, List.flatMap_cons, List.map_append, List.length_cons, List.take_succ_cons,
        List.flatMap_cons]
      exact (unitWrites_sublist e slots).append (ih rest)

/-! ## The values of a draw -/

variable {p : EffectPass} {c : CompiledEffects}

theorem values_eq (p : EffectPass) (c : CompiledEffects) (deltaTime : Binary32) (size : Nat × Nat) :
    p.values c deltaTime size =
      ((p.effects.zip c.layout).flatMap unitWrites).foldl writeSlot
        (frameValues c.slotCount p.elapsed deltaTime size p.camera) := foldl_fillUnit _ _

theorem length_values (sep : Separate c.layout c.slotCount) (deltaTime : Binary32) (size : Nat × Nat) :
    (p.values c deltaTime size).length = c.slotCount := by
  rw [values_eq, length_foldl_writeSlot, length_frameValues]
  exact Nat.max_eq_left sep.frame

/-- What the slots of a unit hold is what the member at its position wrote. -/
theorem feeds_values (sep : Separate c.layout c.slotCount) {j : Nat} {slots : UnitSlots} {e : Effect}
    (hj : c.layout[j]? = some slots) (he : p.effects[j]? = some e) (deltaTime : Binary32) (size : Nat × Nat) :
    Feeds (p.values c deltaTime size) slots e := by
  have hunit : (e, slots) ∈ p.effects.zip c.layout :=
    List.mem_of_getElem? (List.getElem?_zip_eq_some.2 ⟨he, hj⟩)
  have hn : (((p.effects.zip c.layout).flatMap unitWrites).map Prod.fst).Nodup := by
    refine sep.nodup.sublist ((writes_sublist _ _).trans ?_)
    exact (List.take_sublist _ _).flatMap UnitSlots.all
  have hwritten (s : Nat) (v : UniformValue) (hw : (s, v) ∈ unitWrites (e, slots)) :
      (p.values c deltaTime size)[s]? = some v := by
    have hs : s ∈ slots.all := (unitWrites_sublist e slots).subset (List.mem_map.2 ⟨(s, v), hw, rfl⟩)
    have hb := sep.bound s (List.mem_flatMap.2 ⟨slots, List.mem_of_getElem? hj, hs⟩)
    rw [values_eq]
    refine foldl_writeSlot_of_mem hn (List.mem_flatMap.2 ⟨_, hunit, hw⟩) ?_
    rw [length_frameValues]
    omega
  refine ⟨?_, ?_⟩
  · intro s hs
    refine hwritten s _ (List.mem_append_left _ ?_)
    rw [hs]
    exact List.mem_singleton.2 rfl
  · intro name s v hs hv
    refine hwritten s v (List.mem_append_right _ (List.mem_filterMap.2 ⟨(name, s), hs, ?_⟩))
    show (e.uniforms.get? name).map _ = _
    rw [hv]
    rfl

/-- The slots of a unit without a member at its position hold zeros. -/
theorem values_of_no_member (sep : Separate c.layout c.slotCount) {j s : Nat} {slots : UnitSlots}
    (hj : c.layout[j]? = some slots) (he : p.effects[j]? = none) (hs : s ∈ slots.all) (deltaTime : Binary32)
    (size : Nat × Nat) : (p.values c deltaTime size)[s]? = some (.vec4 .zero .zero .zero .zero) := by
  have hlength : p.effects.length ≤ j := List.getElem?_eq_none_iff.1 he
  have hlater : s ∈ (c.layout.drop p.effects.length).flatMap UnitSlots.all := by
    refine List.mem_flatMap.2 ⟨slots, List.mem_of_getElem? (i := j - p.effects.length) ?_, hs⟩
    rw [List.getElem?_drop, Nat.add_sub_cancel' hlength]
    exact hj
  have hall := sep.nodup
  rw [← List.take_append_drop p.effects.length c.layout, List.flatMap_append, List.nodup_append] at hall
  have hnot : s ∉ ((p.effects.zip c.layout).flatMap unitWrites).map Prod.fst := by
    intro hw
    exact hall.2.2 s ((writes_sublist _ _).subset hw) s hlater rfl
  have hmem : s ∈ c.layout.flatMap UnitSlots.all := List.mem_flatMap.2 ⟨slots, List.mem_of_getElem? hj, hs⟩
  have hleast := sep.least s hmem
  have hbound := sep.bound s hmem
  rw [values_eq, foldl_writeSlot_of_not_mem hnot, frameValues, List.getElem?_append_right hleast,
    List.getElem?_replicate]
  exact if_pos (by show s - 3 < c.slotCount - 3; omega)

/-- The first slot holds the time and the time since the last frame. -/
theorem values_frame (sep : Separate c.layout c.slotCount) (deltaTime : Binary32) (size : Nat × Nat) :
    (p.values c deltaTime size)[0]? = some (.vec4 p.elapsed deltaTime .zero .zero) := by
  have hnot : 0 ∉ ((p.effects.zip c.layout).flatMap unitWrites).map Prod.fst := by
    intro hw
    have hsub := (writes_sublist p.effects c.layout).trans ((List.take_sublist _ _).flatMap UnitSlots.all)
    have hleast := sep.least 0 (hsub.subset hw)
    omega
  rw [values_eq, foldl_writeSlot_of_not_mem hnot]
  rfl

end EffectPass

end ScreenFusion
