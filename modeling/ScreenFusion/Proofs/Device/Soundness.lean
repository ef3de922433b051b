import ScreenFusion.Proofs.Device.Mirror

/-!
# ScreenFusion.Proofs.Device.Soundness — devices after any operations

From a new device on, whatever operations come, those on memory have no fault and do what those on the device do.  So in
memory buffers fit their sizes, numbers are below the next one, and the counts are those of what is there.

* `Device.WellFormed`, `DeviceOp.wellFormed_run`: what every operation keeps.
* `DeviceOp.runStored_eq`: every operation on memory.
* `DeviceOp.made_new`: new numbers.
* `StoredDevice.Sound`, `sound_of_operations`: devices after any operations.
-/

namespace ScreenFusion

/-! ## Numbers -/

namespace Device

variable {α β : Type} {d : Device}

/-- The numbers of targets, programs and scenes are in order, and sides are 32-bit numbers. -/
structure WellFormed (d : Device) : Prop where
  modest : d.Modest
  numbered : d.Numbered
  scenes : ∀ id ∈ d.scenes.keys, id < d.nextId

theorem wellFormed_create {width height : Nat} (hw : width < 2 ^ 32) (hh : height < 2 ^ 32)
    (unsupported : List Precision) (checksText : Bool) : (create width height unsupported checksText).WellFormed := by
  refine ⟨fun target p hp => ?_, numbered_create width height unsupported checksText, nofun⟩
  cases target with
  | none => exact Except.ok.inj hp ▸ Plane.modest_create hw hh _ _
  | some t => cases hp

theorem Carries.wellFormed {d' : Device} (c : Carries d d') (w : d.WellFormed) (n : d'.Numbered) : d'.WellFormed := by
  refine ⟨c.modest w.modest, n, fun id hid => ?_⟩
  rw [c.scenes] at hid
  exact Nat.lt_of_lt_of_le (w.scenes id hid) c.nextId

theorem Steady.numbered {x : Act Device α} (h : Steady x) (n : d.Numbered) : (x d).2.Numbered := (h d n).numbered n

theorem Makes.numbered {one : Nat → Holdings} {x : Act Device Nat} (h : Makes one x) (n : d.Numbered) :
    (x d).2.Numbered := by
  have hd := h d n
  rcases hx : x d with ⟨e | id, t⟩ <;> rw [hx] at hd
  · rw [show t = d from hd]
    exact n
  · exact hd.1

theorem numbered_releaseTarget (n : d.Numbered) (target : Nat) : (d.releaseTarget target).2.Numbered := by
  unfold releaseTarget
  split
  · next h => exact ⟨n.targets.erase ((d.targets.contains_iff_mem_keys target).1 h), n.programs⟩
  · exact n

theorem numbered_releaseProgram (n : d.Numbered) (program : Nat) : (d.releaseProgram program).2.Numbered := by
  unfold releaseProgram
  split
  · next h => exact ⟨n.targets, n.programs.erase ((d.programs.contains_iff_mem_keys program).1 h)⟩
  · exact n

theorem plane_some_iff {t : Nat} {p : Plane} : d.plane (some t) = .ok p ↔ d.targets.get? t = some p := by
  unfold plane
  dsimp only
  cases d.targets.get? t <;> simp

theorem carries_releaseTarget (d : Device) (target : Nat) : Carries d (d.releaseTarget target).2 := by
  unfold releaseTarget
  split
  · refine ⟨rfl, Nat.le_refl _, fun m b p hp => ?_⟩
    cases b with
    | none => exact m none p hp
    | some t =>
      have hget : (d.targets.erase target).get? t = some p := plane_some_iff.1 hp
      -- what is left under a number was there before
      rw [Table.get?_erase] at hget
      split at hget
      · cases hget
      · exact m (some t) p (plane_some_iff.2 hget)
  · exact .refl d

theorem carries_releaseProgram (d : Device) (program : Nat) : Carries d (d.releaseProgram program).2 := by
  unfold releaseProgram
  split
  · exact ⟨rfl, Nat.le_refl _, fun m b p hp => m b p (by cases b <;> exact hp)⟩
  · exact .refl d

theorem wellFormed_addScene (w : d.WellFormed) (scene : Scene) : (d.addScene scene).2.WellFormed := by
  refine ⟨fun b p hp => w.modest b p (by cases b <;> exact hp), (sameHandles_addScene scene d).numbered w.numbered, ?_⟩
  intro id hid
  have hid : id ∈ (d.scenes.insert d.nextId scene).keys := hid
  rw [Table.keys_insert_of_lt w.scenes, List.mem_append, List.mem_singleton] at hid
  rcases hid with hid | rfl
  · exact Nat.lt_succ_of_lt (w.scenes id hid)
  · exact Nat.lt_succ_self _

theorem wellFormed_removeScene (w : d.WellFormed) (scene : Nat) : (d.removeScene scene).2.WellFormed := by
  refine ⟨fun b p hp => w.modest b p (by cases b <;> exact hp),
    (sameHandles_removeScene scene d).numbered w.numbered, fun id hid => ?_⟩
  have hid : id ∈ (d.scenes.erase scene).keys := hid
  rw [Table.keys_erase] at hid
  exact w.scenes id (List.mem_of_mem_filter hid)

end Device

/-! ## All operations -/

section Operations

variable {d : Device}

/-- An operation whose result is renamed keeps the device in order if the operation does. -/
theorem Mirrors.wellFormed {α : Type} {x : Act Device α} {y : Risky StoredDevice α} (h : Mirrors x y id d)
    (w : d.WellFormed) (n : (x d).2.Numbered) (f : α → DeviceAnswer) :
    ((do return f (← x) : Act Device DeviceAnswer) d).2.WellFormed := by
  have hstate : ((do return f (← x) : Act Device DeviceAnswer) d).2 = (x d).2 := by
    rw [Act.bind_apply]
    rcases x d with ⟨_ | _, _⟩ <;> rfl
  rw [hstate]
  exact h.carries.wellFormed w n

/-- Every operation keeps the numbers in order. -/
theorem DeviceOp.wellFormed_run (w : d.WellFormed) (op : DeviceOp) : (op.run d).2.WellFormed := by
  have n := w.numbered
  cases op with
  | setOutputSize width height =>
    exact (Device.mirrors_setOutputSize width.toNat_lt height.toNat_lt).wellFormed w
      ((Device.steady_setOutputSize _ _).numbered n) _
  | createTarget label width height precision alpha depth =>
    exact (Device.mirrors_createTarget ⟨label, _, _, precision, alpha, depth⟩ width.toNat_lt
      height.toNat_lt).wellFormed w ((Device.makes_createTarget _).numbered n) _
  | resizeTarget target width height =>
    exact (Device.mirrors_resizeTarget width.toNat_lt height.toNat_lt).wellFormed w
      ((Device.steady_resizeTarget _ _ _).numbered n) _
  | compileProgram source =>
    exact (Device.mirrors_compileProgram source).wellFormed w ((Device.makes_compileProgram source).numbered n) _
  | clear target color depth =>
    exact (Device.mirrors_clear w.modest target color depth).wellFormed w ((Device.steady_clear _ _ _).numbered n) _
  | upload target pixels =>
    exact (Device.mirrors_upload w.modest target pixels).wellFormed w ((Device.steady_upload _ _).numbered n) _
  | renderScene draw =>
    exact (Device.mirrors_renderScene w.modest draw).wellFormed w ((Device.steady_renderScene _).numbered n) _
  | drawFullscreen draw =>
    exact (Device.mirrors_drawFullscreen w.modest draw).wellFormed w ((Device.steady_drawFullscreen _).numbered n) _
  | releaseTarget target =>
    exact (Device.carries_releaseTarget d target).wellFormed w (Device.numbered_releaseTarget n target)
  | releaseProgram program =>
    exact (Device.carries_releaseProgram d program).wellFormed w (Device.numbered_releaseProgram n program)
  | addScene scene => exact Device.wellFormed_addScene w scene
  | removeScene scene => exact Device.wellFormed_removeScene w scene
  | exclude precision =>
    exact ⟨fun b p hp => w.modest b p (by cases b <;> exact hp), ⟨n.targets, n.programs⟩, w.scenes⟩

theorem Mirrors.run_eq {α : Type} {x : Act Device α} {y : Risky StoredDevice α} (h : Mirrors x y id d) :
    y d.stored = some ((x d).1, (x d).2.stored) := by
  rw [h.run]
  rcases x d with ⟨_ | _, _⟩ <;> rfl

/-- Every operation on memory has no fault, and does what it does on the device. -/
theorem DeviceOp.runStored_eq (m : d.Modest) (op : DeviceOp) :
    op.runStored d.stored = some ((op.run d).1, (op.run d).2.stored) := by
  cases op with
  | setOutputSize width height =>
    exact ((Device.mirrors_setOutputSize width.toNat_lt height.toNat_lt).map _).run_eq
  | createTarget label width height precision alpha depth =>
    exact ((Device.mirrors_createTarget ⟨label, _, _, precision, alpha, depth⟩ width.toNat_lt
      height.toNat_lt).map _).run_eq
  | resizeTarget target width height =>
    exact ((Device.mirrors_resizeTarget width.toNat_lt height.toNat_lt).map _).run_eq
  | compileProgram source => exact ((Device.mirrors_compileProgram source).map _).run_eq
  | clear target color depth => exact ((Device.mirrors_clear m target color depth).map _).run_eq
  | upload target pixels => exact ((Device.mirrors_upload m target pixels).map _).run_eq
  | renderScene draw => exact ((Device.mirrors_renderScene m draw).map _).run_eq
  | drawFullscreen draw => exact ((Device.mirrors_drawFullscreen m draw).map _).run_eq
  | releaseTarget target =>
    exact congrArg (fun r : Bool × StoredDevice => some (Except.ok (DeviceAnswer.removed r.1), r.2))
      (Device.stored_releaseTarget d target)
  | releaseProgram program =>
    exact congrArg (fun r : Bool × StoredDevice => some (Except.ok (DeviceAnswer.removed r.1), r.2))
      (Device.stored_releaseProgram d program)
  | removeScene scene => exact rfl
  | addScene scene => exact rfl
  | exclude precision => exact rfl

/-! ### New numbers -/

/-- Under other numbers, the second device has what the first has. -/
structure Device.SameBut (id : Nat) (d d' : Device) : Prop where
  targets : ∀ n, n ≠ id → d'.targets.get? n = d.targets.get? n
  programs : ∀ n, n ≠ id → d'.programs.get? n = d.programs.get? n
  scenes : ∀ n, n ≠ id → d'.scenes.get? n = d.scenes.get? n

theorem Table.get?_insert_of_ne {α : Type} (t : Table α) {key other : Nat} (h : other ≠ key) (value : α) :
    (t.insert key value).get? other = t.get? other := by rw [get?_insert, if_neg h]

theorem Device.createTarget_new {spec : TargetSpec} {id : Nat} {d' : Device} (h : createTarget spec d = (.ok id, d')) :
    id = d.nextId ∧ SameBut id d d' := by
  obtain ⟨rfl, -, hprograms, hscenes, htargets⟩ := createTarget_ok h
  refine ⟨rfl, fun n hn => ?_, fun n _ => ?_, fun n _ => ?_⟩
  · rw [htargets, Table.get?_insert_of_ne _ hn]
  · rw [hprograms]
  · rw [hscenes]

theorem Device.compileProgram_new {source : ProgramSource} {id : Nat} {d' : Device}
    (h : compileProgram source d = (.ok id, d')) : id = d.nextId ∧ SameBut id d d' := by
  unfold compileProgram at h
  rw [Act.bind_of_ok (Act.get_apply d)] at h
  cases hf : d.programFault? source <;> rw [hf] at h <;> cases h
  exact ⟨rfl, fun _ _ => rfl, fun n hn => d.programs.get?_insert_of_ne hn _, fun _ _ => rfl⟩

theorem Act.ok_of_return {σ α β : Type} {x : Act σ α} {f : α → β} {s t : σ} {b : β}
    (h : (do return f (← x) : Act σ β) s = (.ok b, t)) : ∃ a, x s = (.ok a, t) ∧ f a = b := by
  rw [bind_apply] at h
  rcases hx : x s with ⟨e | a, t'⟩ <;> rw [hx] at h <;> cases h
  exact ⟨a, rfl, rfl⟩

/-- The number of what an operation makes is the next one, and nothing else is changed. -/
theorem DeviceOp.made_new {op : DeviceOp} {id : Nat} {d' : Device} (h : op.run d = (.ok (.made id), d')) :
    id = d.nextId ∧ d.SameBut id d' := by
  cases op with
  | createTarget =>
    obtain ⟨_, hmade, heq⟩ := Act.ok_of_return h
    cases heq
    exact Device.createTarget_new hmade
  | compileProgram =>
    obtain ⟨_, hmade, heq⟩ := Act.ok_of_return h
    cases heq
    exact Device.compileProgram_new hmade
  | addScene scene =>
    cases h
    exact ⟨rfl, fun _ _ => rfl, fun _ _ => rfl, fun n hn => d.scenes.get?_insert_of_ne hn _⟩
  | setOutputSize | resizeTarget | clear | upload | renderScene | drawFullscreen =>
    obtain ⟨_, -, heq⟩ := Act.ok_of_return h
    cases heq
  | releaseTarget | releaseProgram | removeScene | exclude => cases h

/-! ### Any operations -/

/-- The operations one after the other: what each answers, and the device after them. -/
def Device.runAll : List DeviceOp → Device → List (Except Error DeviceAnswer) × Device
  | [], d => ([], d)
  | op :: ops, d =>
    let (answers, d') := runAll ops (op.run d).2
    ((op.run d).1 :: answers, d')

/-- The operations one after the other on a device in memory. -/
noncomputable def StoredDevice.runAll :
    List DeviceOp → StoredDevice → Option (List (Except Error DeviceAnswer) × StoredDevice)
  | [], d => some ([], d)
  | op :: ops, d => do
    let (answer, d) ← op.runStored d
    let (answers, d) ← runAll ops d
    return (answer :: answers, d)

theorem Device.runAll_stored (w : d.WellFormed) (ops : List DeviceOp) :
    StoredDevice.runAll ops d.stored = some ((runAll ops d).1, (runAll ops d).2.stored) ∧
      (runAll ops d).2.WellFormed := by
  induction ops generalizing d with
  | nil => exact ⟨rfl, w⟩
  | cons op ops ih =>
    obtain ⟨hrun, hafter⟩ := ih (op.wellFormed_run w)
    refine ⟨?_, hafter⟩
    rw [StoredDevice.runAll, DeviceOp.runStored_eq w.modest]
    show (StoredDevice.runAll ops (op.run d).2.stored).bind _ = _
    rw [hrun]
    rfl

/-- The screen and the targets. -/
def StoredDevice.buffers (d : StoredDevice) : List StoredPlane := d.screen :: d.targets.entries.map Prod.snd

/-- Buffers fit their sizes, the numbers of what is there have been given out, and the counts are right. -/
structure StoredDevice.Sound (d : StoredDevice) : Prop where
  buffers : ∀ p ∈ d.buffers, p.Sound
  targets : ∀ id ∈ d.targets.keys, id < d.nextId
  programs : ∀ id ∈ d.programs.keys, id < d.nextId
  scenes : ∀ id ∈ d.scenes.keys, id < d.nextId
  targetsReleased : d.stats.targetsReleased ≤ d.stats.targetsCreated
  liveTargets : d.stats.liveTargets = d.targets.size
  programsReleased : d.stats.programsReleased ≤ d.stats.programsCompiled
  livePrograms : d.stats.livePrograms = d.programs.size

theorem Device.WellFormed.sound (w : d.WellFormed) : d.stored.Sound := by
  have hkeys : d.stored.targets.keys = d.targets.keys := Table.keys_mapValues _ _
  have htargets : d.stats.targetsCreated = d.stats.targetsReleased + d.stored.targets.size := by
    rw [w.numbered.targets.counted, ← hkeys]
    exact congrArg _ (List.length_map _)
  have hprograms : d.stats.programsCompiled = d.stats.programsReleased + d.programs.size := by
    rw [w.numbered.programs.counted]
    exact congrArg _ (List.length_map _)
  refine ⟨fun p hp => ?_, hkeys ▸ w.numbered.targets.below, w.numbered.programs.below, w.scenes, ?_, ?_, ?_, ?_⟩
  · rcases List.mem_cons.1 hp with rfl | hp
    · exact Plane.sound_stored _
    · obtain ⟨e, he, rfl⟩ := List.mem_map.1 hp
      obtain ⟨e, -, rfl⟩ := List.mem_map.1 he
      exact Plane.sound_stored _
  · show d.stats.targetsReleased ≤ d.stats.targetsCreated
    omega
  · show d.stats.targetsCreated - d.stats.targetsReleased = _
    omega
  · show d.stats.programsReleased ≤ d.stats.programsCompiled
    omega
  · show d.stats.programsCompiled - d.stats.programsReleased = d.programs.size
    omega

theorem Table.not_mem_keys_of_forall_lt {α : Type} {t : Table α} {next : Nat} (h : ∀ id ∈ t.keys, id < next) :
    next ∉ t.keys := fun hmem => Nat.lt_irrefl _ (h next hmem)

/-- Whatever operations are done with a new device, on memory none of them is stopped by a fault, and they do what the
operations on the device do.  After them the device is sound, so that a kernel finds a texel at every place that it asks
for, and no further operation is stopped by a fault either; what that makes gets a number under which there is nothing,
and nothing under another number is changed. -/
theorem sound_of_operations (width height : UInt32) (unsupported : List Precision) (checksText : Bool)
    (ops : List DeviceOp) :
    ∃ answers d, StoredDevice.runAll ops (.create width.toNat height.toNat unsupported checksText) = some (answers, d) ∧
      (answers, d) = ((Device.create width.toNat height.toNat unsupported checksText).runAll ops).map id Device.stored ∧
      d.Sound ∧
      (∀ p ∈ d.buffers, ∀ uv, ∃ i, p.texelIndex? uv = some i ∧ i < p.color.length) ∧
      ∀ op : DeviceOp, ∃ answer d', op.runStored d = some (answer, d') ∧
        ∀ id, answer = .ok (.made id) →
          id ∉ d.targets.keys ∧ id ∉ d.programs.keys ∧ id ∉ d.scenes.keys ∧
            ∀ n, n ≠ id → d'.targets.get? n = d.targets.get? n ∧ d'.programs.get? n = d.programs.get? n ∧
              d'.scenes.get? n = d.scenes.get? n := by
  have w := Device.wellFormed_create width.toNat_lt height.toNat_lt unsupported checksText
  obtain ⟨hrun, w⟩ := Device.runAll_stored w ops
  rw [Device.stored_create] at hrun
  generalize (Device.runAll ops (.create width.toNat height.toNat unsupported checksText)) = outcome at *
  have s := w.sound
  refine ⟨outcome.1, outcome.2.stored, hrun, rfl, s, fun p hp => (s.buffers p hp).texelIndex?, fun op => ?_⟩
  refine ⟨_, _, DeviceOp.runStored_eq w.modest op, fun id hid => ?_⟩
  obtain ⟨rfl, same⟩ := DeviceOp.made_new (Prod.ext hid rfl)
  refine ⟨Table.not_mem_keys_of_forall_lt s.targets, Table.not_mem_keys_of_forall_lt s.programs,
    Table.not_mem_keys_of_forall_lt s.scenes, fun n hn => ⟨?_, same.programs n hn, same.scenes n hn⟩⟩
  exact (Table.get?_mapValues ..).trans ((congrArg _ (same.targets n hn)).trans (Table.get?_mapValues ..).symm)

end Operations

end ScreenFusion
