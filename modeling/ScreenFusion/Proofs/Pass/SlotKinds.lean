import ScreenFusion.Proofs.Pass.Binding

/-!
# ScreenFusion.Proofs.Pass.SlotKinds — the kinds of what is written

A slot has the kind that it was given when the program was made.  A value is written into a slot by the name that the
unit of the program knows the slot by; it comes from the unit that the pass brings now.  So a value is written into a slot
of its kind, and read back as it is, as long as the two units have given the name the same kind.

* `UniformValue.sameReading_widened`: a value in a slot of its kind is read back as it is.
* `Suited`, `KindsAgree`, `suited_slotWrites_iff`: values in slots of their kinds, and when they are.
* `slots_suited_iff`: every draw of every pass.
-/

namespace ScreenFusion

open Fusion

/-! ## Reading back -/

/-- The second value gives the same as a float, as four floats and as a truth value. -/
structure UniformValue.SameReading (v w : UniformValue) : Prop where
  float : w.asFloat = v.asFloat
  vec4 : w.asVec4 = v.asVec4
  bool : w.asBool = v.asBool

/-- A value in a slot of its kind is read back as it is. -/
theorem UniformValue.sameReading_widened (v : UniformValue) : v.SameReading (v.widened (.of v)) := by
  cases v with
  | bool b => cases b <;> exact ⟨by decide +kernel, by decide +kernel, by decide +kernel⟩
  | int n =>
    have hback : (UniformValue.int n).widened (.of (.int n)) = .int n :=
      congrArg UniformValue.int (Int32.toInt32_toUInt32 n)
    rw [hback]
    exact ⟨rfl, rfl, rfl⟩
  | _ => exact ⟨rfl, rfl, rfl⟩

/-! ## Values in slots of their kinds -/

/-- Every value is written into a slot of its kind. -/
def Suited (kinds : List SlotKind) (writes : List (Nat × UniformValue)) : Prop :=
  ∀ w ∈ writes, kinds[w.1]? = some (.of w.2)

/-- Where units at the same position have a uniform of the same name, the values stand in slots of the same kind. -/
def KindsAgree (made present : List FuseUnit) : Prop :=
  ∀ (j : Nat) (u u' : FuseUnit), made[j]? = some u → present[j]? = some u' → ∀ name v v',
    u.uniforms.get? name = some v → u'.uniforms.get? name = some v' → SlotKind.of v' = .of v

theorem exists_of_forall₂ {α β : Type} {R : α → β → Prop} {xs : List α} {ys : List β} (h : List.Forall₂ R xs ys)
    {j : Nat} {y : β} (hy : ys[j]? = some y) : ∃ x, xs[j]? = some x ∧ R x y := by
  obtain ⟨hj, -⟩ := List.getElem?_eq_some_iff.1 hy
  have hx := List.getElem?_eq_getElem (h.length_eq ▸ hj)
  exact ⟨_, hx, List.forall₂_zip h (List.mem_of_getElem? (List.getElem?_zip_eq_some.2 ⟨hx, hy⟩))⟩

theorem kindsAgree_of_sameShape {made present : List FuseUnit} (h : List.Forall₂ FuseUnit.SameShape made present) :
    KindsAgree made present := by
  intro j u u' hu hu' name v v' hv hv'
  obtain ⟨x, hx, same⟩ := exists_of_forall₂ h hu'
  cases hu.symm.trans hx
  obtain ⟨w, hw, hkind⟩ := OrderedMap.kindName_of_kinds_eq same.kinds_eq.symm hv
  cases hw.symm.trans hv'
  exact SlotKind.of_congr hkind

namespace Pass

variable {p : Pass} {layout : List UnitSlots} {s : Nat} {v : UniformValue}

/-- A value is written into a unit's slot for a blend mode, or comes from the unit that the pass brings at its position. -/
theorem mem_slotWrites (h : (s, v) ∈ p.slotWrites layout) : ∃ (j : Nat) (slots : UnitSlots) (u : FuseUnit),
    layout[j]? = some slots ∧ p.units[j]? = some u ∧ (slots.blend = some s ∧ SlotKind.of v = .float ∨
      ∃ name, (name, s) ∈ slots.uniforms ∧ u.uniforms.get? name = some v) := by
  cases p with
  | material p =>
    obtain ⟨⟨m, slots⟩, hunit, hw⟩ := List.mem_flatMap.1 h
    obtain ⟨j, hj⟩ := List.mem_iff_getElem?.1 hunit
    obtain ⟨hm, hslots⟩ := List.getElem?_zip_eq_some.1 hj
    refine ⟨j, slots, m.toUnit, hslots, ?_, .inr (mem_uniformWrites.1 hw)⟩
    show ([p.material].map Material.toUnit)[j]? = some m.toUnit
    rw [List.getElem?_map, show [p.material][j]? = some m from hm]
    rfl
  | effect p =>
    obtain ⟨⟨e, slots⟩, hunit, hw⟩ := List.mem_flatMap.1 h
    obtain ⟨j, hj⟩ := List.mem_iff_getElem?.1 hunit
    obtain ⟨he, hslots⟩ := List.getElem?_zip_eq_some.1 hj
    refine ⟨j, slots, .ofEffect e, hslots, ?_, ?_⟩
    · show (p.effects.map FuseUnit.ofEffect)[j]? = _
      rw [List.getElem?_map, show p.effects[j]? = some e from he]
      rfl
    · rcases List.mem_append.1 hw with hb | hu
      · obtain ⟨slot, hslot, heq⟩ := Option.map_eq_some_iff.1 (Option.mem_toList.1 hb)
        cases heq
        exact .inl ⟨hslot, rfl⟩
      · exact .inr (mem_uniformWrites.1 hu)
  | _ => cases h

theorem mem_slotWrites_of_uniform {j : Nat} {slots : UnitSlots} {u : FuseUnit} {name : String}
    (hj : layout[j]? = some slots) (hu : p.units[j]? = some u) (hs : (name, s) ∈ slots.uniforms)
    (hv : u.uniforms.get? name = some v) : (s, v) ∈ p.slotWrites layout := by
  cases p with
  | material p =>
    have hu : ([p.material].map Material.toUnit)[j]? = some u := hu
    rw [List.getElem?_map] at hu
    obtain ⟨m, hm, rfl⟩ := Option.map_eq_some_iff.1 hu
    exact List.mem_flatMap.2 ⟨(m, slots), List.mem_of_getElem? (List.getElem?_zip_eq_some.2 ⟨hm, hj⟩),
      mem_uniformWrites.2 ⟨name, hs, hv⟩⟩
  | effect p =>
    have hu : (p.effects.map FuseUnit.ofEffect)[j]? = some u := hu
    rw [List.getElem?_map] at hu
    obtain ⟨e, he, rfl⟩ := Option.map_eq_some_iff.1 hu
    exact List.mem_flatMap.2 ⟨(e, slots), List.mem_of_getElem? (List.getElem?_zip_eq_some.2 ⟨he, hj⟩),
      List.mem_append_right _ (mem_uniformWrites.2 ⟨name, hs, hv⟩)⟩
  | _ => cases hu

theorem slotWrites_sublist (p : Pass) (layout : List UnitSlots) :
    ((p.slotWrites layout).map Prod.fst).Sublist (layout.flatMap UnitSlots.all) := by
  cases p with
  | material p =>
    cases layout with
    | nil => exact .slnil
    | cons slots rest =>
      show ((uniformWrites p.material.uniforms slots.uniforms ++ []).map Prod.fst).Sublist _
      rw [List.append_nil, List.flatMap_cons]
      refine (uniformWrites_sublist _ _).trans ?_
      exact (List.sublist_append_right slots.blend.toList _).trans (List.sublist_append_left _ _)
  | effect p =>
    exact (EffectPass.writes_sublist p.effects layout).trans ((List.take_sublist _ _).flatMap UnitSlots.all)
  | _ => exact List.nil_sublist _

/-- The values of a pass stand in slots of their kinds exactly if the units that it brings now have the kinds of those
that the program was made from. -/
theorem suited_slotWrites_iff {kinds : List SlotKind} {units : List FuseUnit}
    (fits : List.Forall₂ (Fits kinds) units layout) : Suited kinds (p.slotWrites layout) ↔ KindsAgree units p.units := by
  constructor
  · -- the program has a slot for every name of its units, so a present value of that name is written
    intro suited j u u' hu hu' name v v' hv hv'
    obtain ⟨hj, -⟩ := List.getElem?_eq_some_iff.1 hu
    obtain ⟨slots, hslots⟩ : ∃ slots, layout[j]? = some slots :=
      ⟨_, List.getElem?_eq_getElem (fits.length_eq ▸ hj)⟩
    have fit := List.forall₂_zip fits (List.mem_of_getElem? (List.getElem?_zip_eq_some.2 ⟨hu, hslots⟩))
    have hname : name ∈ slots.uniforms.map Prod.fst := by
      rw [fit.names, ← OrderedMap.contains_iff, OrderedMap.contains, hv]
      rfl
    obtain ⟨⟨_, s⟩, hs, rfl⟩ := List.mem_map.1 hname
    have hwritten := suited _ (mem_slotWrites_of_uniform hslots hu' hs hv')
    rw [fit.uniforms _ s v hs hv] at hwritten
    exact (Option.some.inj hwritten).symm
  · -- what is written has a name that the unit of the program at the position knows
    rintro agree ⟨s, v'⟩ hw
    obtain ⟨j, slots, u', hslots, hu', hsource⟩ := mem_slotWrites hw
    obtain ⟨u, hu, fit⟩ := exists_of_forall₂ fits hslots
    rcases hsource with ⟨hblend, hkind⟩ | ⟨name, hs, hv'⟩
    · rw [hkind]
      exact fit.blend s hblend
    · have hname : name ∈ u.uniforms.names := by
        rw [← fit.names]
        exact List.mem_map.2 ⟨(name, s), hs, rfl⟩
      obtain ⟨v, hv⟩ := Option.isSome_iff_exists.1 (OrderedMap.contains_iff.2 hname)
      rw [agree j u u' hu hu' name v v' hv hv']
      exact fit.uniforms name s v hs hv

end Pass

/-! ## Every draw -/

/-- What is written once into slots of its kind is read back as it is. -/
theorem exists_read_of_suited {kinds : List SlotKind} {writes : List (Nat × UniformValue)}
    (suited : Suited kinds writes) (hn : (writes.map Prod.fst).Nodup) :
    ∃ read, unpackBlock? kinds (packBlock (writes.foldl writeSlot (List.replicate kinds.length .zeros))) = some read ∧
      ∀ w ∈ writes, ∃ v, read[w.1]? = some v ∧ w.2.SameReading v := by
  have hlength : (writes.foldl writeSlot (List.replicate kinds.length UniformValue.zeros)).length = kinds.length := by
    rw [length_foldl_writeSlot, List.length_replicate]
  refine ⟨_, unpackBlock?_packBlock hlength, fun w hw => ?_⟩
  have hkind := suited w hw
  obtain ⟨hbound, -⟩ := List.getElem?_eq_some_iff.1 hkind
  have hvalue : (writes.foldl writeSlot (List.replicate kinds.length UniformValue.zeros))[w.1]? = some w.2 :=
    foldl_writeSlot_of_mem hn hw (by rwa [List.length_replicate])
  exact ⟨_, getElem?_widened hvalue hkind, w.2.sameReading_widened⟩

theorem suited_append {kinds : List SlotKind} {writes writes' : List (Nat × UniformValue)} :
    Suited kinds (writes ++ writes') ↔ Suited kinds writes ∧ Suited kinds writes' := List.forall_mem_append

section Frame

variable {label : String} {units : List FuseUnit} {source : ProgramSource} {d : Device} {i : Installation}

/-- The first slots have the kind of what the frame writes. -/
theorem Installation.MadeFrom.suited_frameWrites (made : i.MadeFrom label units source d) (time deltaTime : Binary32)
    (size : Nat × Nat) (camera : CameraPlanes) : Suited source.kinds (frameWrites time deltaTime size camera) := by
  obtain ⟨options, f⟩ := made.consists
  rw [f.kinds_eq]
  intro w hw
  have hw : w ∈ [(0, _), (1, _), (2, _)] := hw
  rcases List.mem_cons.1 hw with rfl | hw
  · rfl
  · rcases List.mem_cons.1 hw with rfl | hw
    · rfl
    · rw [List.mem_singleton.1 hw]
      rfl

/-- No slot is written twice. -/
theorem Installation.MadeFrom.nodup_writes (made : i.MadeFrom label units source d) (p : Pass)
    (time deltaTime : Binary32) (size : Nat × Nat) (camera : CameraPlanes) :
    ((frameWrites time deltaTime size camera ++ p.slotWrites i.layout).map Prod.fst).Nodup := by
  have sublist := p.slotWrites_sublist i.layout
  rw [List.map_append, List.nodup_append]
  refine ⟨?_, made.separate.nodup.sublist sublist, ?_⟩
  · show [0, 1, 2].Nodup
    decide
  · rintro s hs s' hs' rfl
    have hleast := made.separate.least s (sublist.subset hs')
    have hs : s ∈ [0, 1, 2] := hs
    simp only [List.mem_cons, List.not_mem_nil, or_false] at hs
    omega

end Frame

/-- In every draw that a pass gives, the values that are written into the slots of its program have the kinds that the
program was made for exactly if the units that the pass brings now give their uniforms the kinds that the units had which
the program was made from.  They do if the last build succeeded.  Where the kinds are right, the program reads every value
as it was written. -/
theorem slots_suited_iff {s : Staged Pass} (used : Pass.Used s) (use : PassUse) (ha : use.Suits s.stage)
    {draw : FullscreenDraw} (hd : draw ∈ s.host.drawsSince (use.run s).2.host) :
    let t := (use.run s).2
    ∃ i writes units source, t.stage.Binds i draw writes ∧ i.MadeFrom t.stage.name units source t.host.device ∧
      (Suited source.kinds writes ↔ KindsAgree units t.stage.units) ∧
      (t.stage.builder.lastError = none → Suited source.kinds writes) ∧
      (Suited source.kinds writes → ∃ read, unpackBlock? source.kinds draw.block = some read ∧
        ∀ w ∈ writes, ∃ v, read[w.1]? = some v ∧ w.2.SameReading v) := by
  intro t
  have inst : t.stage.Installed t.host.device := (Pass.Used.used use used ha).installed
  rcases use.draws_run ha with none | ⟨i, draw', writes, ready, binds, one⟩
  · rw [none.drawsSince_eq] at hd
    cases hd
  · rw [one.drawsSince_eq] at hd
    cases List.mem_singleton.1 hd
    obtain ⟨units, source, made, same⟩ := inst.exists_units binds.installed
    obtain ⟨time, deltaTime, size, camera, hwrites⟩ := binds.writes_eq
    have frame := made.suited_frameWrites time deltaTime size camera
    have agree : Suited source.kinds writes ↔ KindsAgree units t.stage.units := by
      rw [hwrites, suited_append, and_iff_right frame]
      exact Pass.suited_slotWrites_iff made.fits
    have hcount : max i.slotCount 3 = source.kinds.length := by
      rw [Nat.max_eq_left made.separate.frame, made.slotCount_eq]
      exact (List.length_map _).symm
    refine ⟨i, writes, units, source, binds, made, agree, fun he => ?_, fun suited => ?_⟩
    · exact agree.2 (kindsAgree_of_sameShape (same ready.clean he))
    · rw [binds.block, hcount]
      exact exists_read_of_suited suited (hwrites ▸ made.nodup_writes t.stage time deltaTime size camera)

/-! ## A number in the slot of a float -/

/-- An effect with a uniform that is a float. -/
def counter : Effect :=
  ((Effect.create 1 "a" "fn main_image").setKernel default).setUniform "x" (.float (.ofFloat 1))

/-- A new pass with the effect. -/
def counted : Staged Pass :=
  ⟨.effect ((EffectPass.create "fx" [counter]).toOption.getD default), .ofDevice (.create 1 1 [] false)⟩

theorem used_counted : Pass.Used counted := by
  have made : counter.Made := .changed (.uniform "x" _) (.changed (.kernel default) (.created 1 "a" "fn main_image"))
  exact .made _ (.effect (fun _ he => List.mem_singleton.1 he ▸ made) (List.nodup_singleton _) rfl)

/-- The first draw of the pass finds the values in slots of their kinds. -/
theorem slots_suited_counted :
    let t := ((PassUse.render ⟨0, none, none⟩ .zero).run counted).2
    ∃ draw ∈ counted.host.drawsSince t.host, ∃ i writes units source, t.stage.Binds i draw writes ∧
      i.MadeFrom t.stage.name units source t.host.device ∧ Suited source.kinds writes := by
  intro t
  obtain ⟨draw, hd⟩ := List.exists_mem_of_ne_nil (counted.host.drawsSince t.host) (by decide +kernel)
  obtain ⟨i, writes, units, source, binds, made, -, suited, -⟩ :=
    slots_suited_iff used_counted (.render ⟨0, none, none⟩ .zero) trivial hd
  exact ⟨draw, hd, i, writes, units, source, binds, made, suited (by decide +kernel)⟩

/-- The pass with its program, after the uniform has become an integer and an effect without a kernel has been added. -/
def recounted : Staged Pass :=
  let uses : List PassUse := [.prepare, .change (.effects (.change 1 (.uniform "x" (.int 1)))),
    .change (.effects (.add (Effect.create 2 "b" "fn main_image"))), .prepare]
  uses.foldl (fun s use => (use.run s).2) counted

/-- The program is kept, and gets the integer in the slot of the float. -/
theorem count_in_float_slot :
    let t := ((PassUse.render ⟨0, none, none⟩ .zero).run recounted).2
    ∃ draw program i writes, recounted.host.drawsSince t.host = [draw] ∧
      t.host.device.programs.get? draw.program = some program ∧ t.stage.Binds i draw writes ∧
      (4, .int 1) ∈ writes ∧ program.kinds[4]? = some .float ∧ ¬Suited program.kinds writes ∧
      (unpackBlock? program.kinds draw.block).bind (·[4]?) = some (.vec4 ⟨1⟩ .zero .zero .zero) := by
  intro t
  have hstage : t.stage.installation? = some ⟨1, [⟨some 3, [("x", 4)]⟩], 5⟩ := by decide +kernel
  have hkinds : (t.host.device.programs.get? 1).map Program.kinds = some (List.replicate 5 .float) := by decide +kernel
  have hread : (recounted.host.drawsSince t.host).map (fun draw =>
      (unpackBlock? (List.replicate 5 .float) draw.block).bind (·[4]?)) = [some (.vec4 ⟨1⟩ .zero .zero .zero)] := by
    decide +kernel
  rcases PassUse.draws_run (s := recounted) (.render ⟨0, none, none⟩ .zero) trivial with
    none | ⟨i, draw, writes, -, binds, one⟩
  · rw [none.drawsSince_eq] at hread
    cases hread
  · rw [one.drawsSince_eq, List.map_singleton] at hread
    cases hstage.symm.trans binds.installed
    obtain ⟨program, hp, hprogram⟩ := Option.map_eq_some_iff.1 hkinds
    obtain ⟨time, deltaTime, size, camera, hwrites⟩ := binds.writes_eq
    have hwritten : (4, .int 1) ∈ writes := by
      rw [hwrites]
      exact List.mem_append_right _ (by decide +kernel)
    have hkind : program.kinds[4]? = some .float := by
      rw [hprogram]
      rfl
    refine ⟨draw, program, _, writes, one.drawsSince_eq, binds.program ▸ hp, binds, hwritten, hkind, ?_, ?_⟩
    · intro suited
      cases (suited _ hwritten).symm.trans hkind
    · rw [hprogram]
      exact List.singleton_inj.1 hread

end ScreenFusion
