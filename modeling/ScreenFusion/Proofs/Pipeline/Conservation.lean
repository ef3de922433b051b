import ScreenFusion.Proofs.Pipeline.Holdings

/-!
# ScreenFusion.Proofs.Pipeline.Conservation — runs of operations leak nothing and release nothing twice

A pipeline is made on a new device and then used in any way: passes are added, changed, enabled and removed, frames are
run, sizes change, and it may be disposed of, all with failures in between.

* `HostUse`: what else may be done with the device; it makes and releases nothing.
* `PipelineOp`: the uses of a pipeline, and that each keeps what it holds in order.
* `create_holds`: a new pipeline, and one that cannot be made.
* `handles_conserved`: what there is on the device after any run.
-/

namespace ScreenFusion

open Holder Staged

/-- A use of a device beside the pipeline that makes and releases nothing. -/
inductive HostUse where
  | arm (name : String) (after : Nat)
  | addScene (scene : Scene)
  | removeScene (scene : Nat)
  | upload (target : Option Nat) (pixels : List (Rgba Float32))
  | setOutputSize (width height : Nat)
  | resizeTarget (target width height : Nat)
  | clear (target : Option Nat) (color : Option (Rgba Float32)) (depth : Option Float32)
  | renderScene (draw : SceneDraw)
  | drawFullscreen (draw : FullscreenDraw)

namespace HostUse

/-- The host after a use of its device. -/
def run (u : HostUse) (h : Host) : Host :=
  match u with
  | arm name after => h.arm name after
  | addScene scene => { h with device := (Device.addScene scene h.device).2 }
  | removeScene scene => { h with device := (Device.removeScene scene h.device).2 }
  | upload target pixels => { h with device := (Device.upload target pixels h.device).2 }
  | setOutputSize width height => (Host.setOutputSize width height h).2
  | resizeTarget target width height => (Host.resizeTarget target width height h).2
  | clear target color depth => (Host.clear target color depth h).2
  | renderScene draw => (Host.renderScene draw h).2
  | drawFullscreen draw => (Host.drawFullscreen draw h).2

theorem holds_run {h : Host} {m : Holdings} (hm : h.Holds m) (u : HostUse) : (u.run h).Holds m := by
  have hdevice {d : Device} (hd : Device.SameHandles h.device d) : ({ h with device := d } : Host).Holds m :=
    ⟨hd.numbered hm.numbered, hd.live_eq.trans hm.live, hm.found⟩
  cases u with
  | arm name after => exact ⟨hm.numbered, hm.live, hm.found⟩
  | addScene scene => exact hdevice (Device.sameHandles_addScene scene _)
  | removeScene scene => exact hdevice (Device.sameHandles_removeScene scene _)
  | upload target pixels => exact hdevice (Device.steady_upload target pixels _ hm.numbered)
  | setOutputSize width height => exact Host.steady_setOutputSize width height h m hm
  | resizeTarget target width height => exact Host.steady_resizeTarget target width height h m hm
  | clear target color depth => exact Host.steady_clear target color depth h m hm
  | renderScene draw => exact Host.steady_renderScene draw h m hm
  | drawFullscreen draw => exact Host.steady_drawFullscreen draw h m hm

end HostUse

/-- The host after uses of its device. -/
def Host.used (h : Host) (uses : List HostUse) : Host := uses.foldl (fun h u => u.run h) h

theorem Host.Holds.used {h : Host} {m : Holdings} (hm : h.Holds m) (uses : List HostUse) : (h.used uses).Holds m := by
  induction uses generalizing h with
  | nil => exact hm
  | cons u uses ih => exact ih (HostUse.holds_run hm u)

namespace Pipeline

variable {h : Host} {s : Staged Pipeline}

/-! ## New pipelines -/

theorem createBuffers_holds {m : Holdings} (hm : h.Holds m) (options : PipelineOptions) (width height : Nat) :
    match createBuffers options width height h with
    | (.ok b, k) => k.Holds (heldBuffers (some b) + m)
    | (.error _, k) => k.Holds m := by
  let spec (label : String) : TargetSpec :=
    ⟨label, width, height, options.precision, options.alpha, options.depthBuffer⟩
  have hread := hm.createTarget (spec "pipeline.read")
  unfold createBuffers
  rw [Act.bind_apply]
  rcases hr : Host.createTarget (spec "pipeline.read") h with ⟨e | read, k⟩ <;> rw [hr] at hread
  · exact hread
  · have hwrite := hread.createTarget (spec "pipeline.write")
    dsimp only
    rw [Act.bind_of_ok (Act.attempt_apply _ k)]
    rcases hw : Host.createTarget (spec "pipeline.write") k with ⟨e | write, l⟩ <;> rw [hw] at hwrite
    · exact hwrite.releaseTarget
    · have hboth : l.Holds (.target read + .target write + m) := by
        rw [add_comm (Holdings.target read), add_assoc]
        exact hwrite
      exact hboth

/-- A pipeline on a device of which nothing is held: it holds all that is held then, or nothing is. -/
theorem create_holds (hh : h.Holds 0) (options : PipelineOptions) :
    match create options h with
    | (.ok p, k) => Sound ⟨p, k⟩ ∧ p.isDisposed = false
    | (.error _, k) => k.Holds 0 := by
  have hchosen : (choosePrecision options.precision h).2.Holds 0 := by
    unfold choosePrecision
    rw [Act.bind_of_ok (Act.get_apply h)]
    cases options.precision.fallbacks.find? h.device.supports with
    | none => exact hh
    | some chosen =>
      by_cases hc : chosen = options.precision
      · simpa [hc] using hh
      · dsimp only
        rw [if_pos hc]
        exact hh.report _
  unfold create
  rw [Act.bind_apply]
  rcases hp : choosePrecision options.precision h with ⟨e | precision, k⟩ <;> rw [hp] at hchosen
  · exact hchosen
  · dsimp only
    rw [Act.bind_of_ok (Act.get_apply k), Act.bind_apply]
    have hbuffers := createBuffers_holds hchosen { options with precision } k.device.outputSize.1 k.device.outputSize.2
    rcases hb : createBuffers { options with precision } k.device.outputSize.1 k.device.outputSize.2 k with
      ⟨e | b, l⟩ <;> rw [hb] at hbuffers
    · exact hbuffers
    · refine ⟨⟨.nil, ?_, ?_, nofun, hbuffers.report _⟩, rfl⟩
      · exact fun e he => absurd he List.not_mem_nil
      · exact fun e he => absurd he List.not_mem_nil

/-! ## Uses -/

/-- A change of the pass with a number, if there is one. -/
def changePass (id : Nat) (setter : PassSetter) : Act (Staged Pipeline) Unit := do
  match (← Staged.get).pass? id with
  | none => return ()
  | some pass =>
    let (_, pass) ← runOn pass setter.run
    Staged.modify fun p => p.modifyPass id fun _ => pass

theorem keepsSound_changePass (id : Nat) {setter : PassSetter} (ha : setter.Admissible) :
    KeepsSound (changePass id setter) := by
  rintro ⟨p, h⟩ sound
  unfold changePass
  rw [Act.bind_of_ok (get_apply _)]
  dsimp only
  cases hp : p.pass? id with
  | none => exact ⟨sound, rfl⟩
  | some pass =>
    obtain ⟨before, after, hentries, hother⟩ := entries_of_pass? sound.ids hp
    have c := (PassSetter.idle_run ha ⟨pass, h⟩).1
    let pass' := (setter.run ⟨pass, h⟩).2.stage
    have hsame (es : List PipelineEntry) (hes : ∀ e ∈ es, e.id ≠ id) :
        (es.map fun e => if e.id = id then { e with pass := pass' } else e) = es := by
      rw [List.map_congr_left fun e he => if_neg (hes e he), List.map_id']
    have hchanged : (p.entries.map fun e => if e.id = id then { e with pass := pass' } else e) =
        before ++ ⟨id, pass'⟩ :: after := by
      rw [hentries, List.map_append, List.map_cons, if_pos rfl,
        hsame before fun e he => hother e (List.mem_append_left _ he),
        hsame after fun e he => hother e (List.mem_append_right _ he)]
    have trav := traversed_middle (e := ⟨id, pass⟩) c before after
    rw [← hentries, ← hchanged] at trav
    exact ⟨Traversed.sound sound trav, rfl⟩

/-- A use of a pipeline or of its device. -/
inductive PipelineOp where
  | addPass (pass : Pass) (index : Option Nat)
  | removePass (id : Nat)
  | setEnabled (id : Nat) (enabled : Bool)
  | changePass (id : Nat) (setter : PassSetter)
  | resize (width height : Nat)
  | render (deltaTime : Binary32)
  | dispose
  | useHost (u : HostUse)

namespace PipelineOp

/-- Whether an added pass is new, and a change needs no device. -/
def Admissible : PipelineOp → Prop
  | addPass pass _ => pass.Fresh
  | changePass _ setter => setter.Admissible
  | _ => True

/-- What a use leaves, whether it succeeds or not. -/
def run (op : PipelineOp) (s : Staged Pipeline) : Staged Pipeline :=
  match op with
  | addPass pass index => (Pipeline.addPass pass index s).2
  | removePass id => (Pipeline.removePass id s).2
  | setEnabled id enabled => { s with stage := (s.stage.setEnabled id enabled).2 }
  | changePass id setter => (Pipeline.changePass id setter s).2
  | resize width height => (Pipeline.resize width height s).2
  | render deltaTime => (Pipeline.render deltaTime s).2
  | dispose => (Pipeline.dispose s).2
  | useHost u => { s with host := u.run s.host }

theorem sound_run {op : PipelineOp} (ha : op.Admissible) (sound : Sound s) :
    Sound (op.run s) ∧ ((op.run s).stage.isDisposed = true ↔ s.stage.isDisposed = true ∨ op = dispose) := by
  have kept {t : Staged Pipeline} (ht : Sound t ∧ t.stage.isDisposed = s.stage.isDisposed) (hop : op ≠ dispose) :
      Sound t ∧ (t.stage.isDisposed = true ↔ s.stage.isDisposed = true ∨ op = dispose) := by
    refine ⟨ht.1, ?_⟩
    rw [ht.2]
    exact ⟨.inl, fun h => h.resolve_right hop⟩
  cases op with
  | addPass pass index => exact kept (keepsSound_addPass ha index s sound) nofun
  | removePass id => exact kept (keepsSound_removePass id s sound) nofun
  | setEnabled id enabled => exact kept ⟨sound_setEnabled sound id enabled, rfl⟩ nofun
  | changePass id setter => exact kept (keepsSound_changePass id ha s sound) nofun
  | resize width height => exact kept (keepsSound_resize width height s sound) nofun
  | render deltaTime => exact kept (keepsSound_render deltaTime s sound) nofun
  | useHost u =>
    have hholds := HostUse.holds_run sound.holds u
    exact kept ⟨⟨sound.ids, sound.below, sound.equipped, sound.emptied, hholds⟩, rfl⟩ nofun
  | dispose =>
    obtain ⟨hsound, hdisposed⟩ := sound_dispose sound
    exact ⟨hsound, fun _ => .inr rfl, fun _ => hdisposed⟩

end PipelineOp

/-- What a run of uses leaves. -/
def after (ops : List PipelineOp) (s : Staged Pipeline) : Staged Pipeline := ops.foldl (fun s op => op.run s) s

theorem sound_after {ops : List PipelineOp} (ha : ∀ op ∈ ops, op.Admissible) (sound : Sound s) :
    Sound (after ops s) ∧
      ((after ops s).stage.isDisposed = true ↔ s.stage.isDisposed = true ∨ PipelineOp.dispose ∈ ops) := by
  induction ops generalizing s with
  | nil => exact ⟨sound, .inl, fun h => h.resolve_right List.not_mem_nil⟩
  | cons op ops ih =>
    obtain ⟨hop, hdisposed⟩ := PipelineOp.sound_run (ha op List.mem_cons_self) sound
    obtain ⟨hrest, hiff⟩ := ih (fun op hop => ha op (List.mem_cons_of_mem _ hop)) hop
    refine ⟨hrest, hiff.trans ?_⟩
    rw [hdisposed, List.mem_cons, or_assoc, eq_comm (a := op)]

/-! ## What there is -/

/-- What there is on the device is what the pipeline has. -/
structure Accounted (s : Staged Pipeline) : Prop where
  targets : s.host.device.targets.keys.Perm s.stage.targets
  programs : s.host.device.programs.keys.Perm s.stage.programs
  /-- No number stands for two things. -/
  targetsNodup : s.stage.targets.Nodup
  programsNodup : s.stage.programs.Nodup
  /-- Two buffers, and a target for each depth pass. -/
  counted : s.stage.targets.length =
    (if s.stage.isDisposed then 0 else 2) + s.stage.entries.countP (·.pass.isDepthProducer)
  /-- No release has failed to find what it was to release. -/
  found : ∀ c ∈ s.host.calls, c.answer ≠ .released false

theorem Sound.accounted (sound : Sound s) : Accounted s := by
  have hlive := sound.holds.live
  rw [heldBuffers_add_held] at hlive
  obtain ⟨htargets, hprograms⟩ := Prod.ext_iff.1 hlive
  have htargets : s.host.device.targets.keys.Perm s.stage.targets := Multiset.coe_eq_coe.1 htargets
  have hprograms : s.host.device.programs.keys.Perm s.stage.programs := Multiset.coe_eq_coe.1 hprograms
  have numbered := sound.holds.numbered
  refine ⟨htargets, hprograms, ?_, ?_, ?_, sound.holds.found⟩
  · exact htargets.nodup_iff.1 numbered.targets.nodup
  · exact hprograms.nodup_iff.1 numbered.programs.nodup
  · have hentries (es : List PipelineEntry) (heq : ∀ e ∈ es, Equipped e.pass) :
        (es.filterMap fun e => target? e.pass).length = es.countP (·.pass.isDepthProducer) := by
      induction es with
      | nil => rfl
      | cons e es ih =>
        have hrest := ih fun e he => heq e (List.mem_cons_of_mem _ he)
        have hneeds := (heq e List.mem_cons_self).target
        rw [List.filterMap_cons, List.countP_cons, ← hrest]
        cases hp : e.pass with
        | depth p =>
          rw [hp] at hneeds
          obtain ⟨t, ht⟩ := Option.isSome_iff_exists.1 (hneeds rfl)
          rw [ht]
          rfl
        | _ => rfl
    unfold targets isDisposed
    rw [List.length_append, hentries _ sound.equipped]
    cases s.stage.buffers <;> rfl

/-- Whatever is done with a pipeline on a new device, passes being new when they are added: the targets on the device are
its buffers, until it is disposed of, and one of each depth pass, and the programs are those of its passes.  No release
fails to find what it is to release.  After a disposal there is nothing, and another disposal does nothing.  If the
pipeline cannot be made there is nothing either. -/
theorem handles_conserved (options : PipelineOptions) (width height : Nat) (unsupported : List Precision)
    (checksText : Bool) (uses : List HostUse) (ops : List PipelineOp) (ha : ∀ op ∈ ops, op.Admissible) :
    match create options ((Host.ofDevice (Device.create width height unsupported checksText)).used uses) with
    | (.error _, h) => h.device.targets.keys = [] ∧ h.device.programs.keys = [] ∧
        ∀ c ∈ h.calls, c.answer ≠ .released false
    | (.ok p, h) =>
        let s := after ops ⟨p, h⟩
        Accounted s ∧ (s.stage.isDisposed = true ↔ PipelineOp.dispose ∈ ops) ∧
        (PipelineOp.dispose ∈ ops →
          s.host.device.targets.keys = [] ∧ s.host.device.programs.keys = [] ∧ dispose s = (.ok false, s)) := by
  have hnew : (Host.ofDevice (Device.create width height unsupported checksText)).Holds 0 :=
    ⟨Device.numbered_create _ _ _ _, rfl, fun _ hc => absurd hc (Array.not_mem_empty _)⟩
  have hcreated := create_holds (hnew.used uses) options
  rcases hc : create options ((Host.ofDevice (Device.create width height unsupported checksText)).used uses) with
    ⟨e | p, h⟩
  · rw [hc] at hcreated
    have hlive := Prod.ext_iff.1 hcreated.live
    exact ⟨(Multiset.coe_eq_zero _).1 hlive.1, (Multiset.coe_eq_zero _).1 hlive.2, hcreated.found⟩
  · rw [hc] at hcreated
    obtain ⟨hsound, hiff⟩ := sound_after ha hcreated.1
    have accounted := hsound.accounted
    have hdisposed : (after ops ⟨p, h⟩).stage.isDisposed = true ↔ PipelineOp.dispose ∈ ops := by
      rw [hiff, hcreated.2]
      simp
    refine ⟨accounted, hdisposed, fun hmem => ?_⟩
    have hnone : (after ops ⟨p, h⟩).stage.buffers = none := Option.isNone_iff_eq_none.1 (hdisposed.2 hmem)
    have hempty := hsound.emptied hnone
    have htargets := accounted.targets
    have hprograms := accounted.programs
    unfold targets at htargets
    unfold programs at hprograms
    rw [hnone, hempty] at htargets
    rw [hempty] at hprograms
    exact ⟨htargets.eq_nil, hprograms.eq_nil, dispose_of_disposed hnone _⟩

/-- A material that reads depth. -/
def fog : Material :=
  { Material.create "fog" "fn main_image" with readsDepth := true, kernel := some ⟨1, fun i => i.vec4 "tint"⟩ }

/-- A scene, a depth pass, a pass that reads depth, a frame, a disposal, and a frame that fails. -/
def shortLife : List PipelineOp :=
  [.useHost (.addScene default), .addPass (.depth (DepthPass.create 3)) none,
    .addPass (.material (MaterialPass.create fog)) none, .render .zero, .dispose, .render .zero]

/-- A device and a pipeline before its short life. -/
def unborn : Except Error Pipeline × Host :=
  create default ((Host.ofDevice (Device.create 1 1 [] false)).used [])

/-- Three targets and a program come and go. -/
theorem handles_conserved_shortLife : (∀ op ∈ shortLife, op.Admissible) ∧ ∃ p h, unborn = (.ok p, h) ∧
    (after (shortLife.take 4) ⟨p, h⟩).host.device.targets.keys = [1, 2, 4] ∧
    (after (shortLife.take 4) ⟨p, h⟩).host.device.programs.keys = [5] ∧
    (after shortLife ⟨p, h⟩).host.device.targets.keys = [] ∧
    (after shortLife ⟨p, h⟩).host.device.programs.keys = [] := by
  have hadmissible : ∀ op ∈ shortLife, op.Admissible := by
    unfold shortLife
    simp only [List.forall_mem_cons]
    exact ⟨trivial, .depth 3, .material fog, trivial, trivial, trivial, List.forall_mem_nil _⟩
  have conserved := handles_conserved default 1 1 [] false [] shortLife hadmissible
  have hmade : unborn.1.toOption.map (fun p =>
      let s := after (shortLife.take 4) ⟨p, unborn.2⟩
      (s.host.device.targets.keys, s.host.device.programs.keys)) = some ([1, 2, 4], [5]) := by decide +kernel
  refine ⟨hadmissible, ?_⟩
  rcases hc : unborn with ⟨e | p, h⟩
  · rw [hc] at hmade
    cases hmade
  · rw [hc] at hmade
    unfold unborn at hc
    rw [hc] at conserved
    obtain ⟨htargets, hprograms⟩ := Prod.ext_iff.1 (Option.some.inj hmade)
    obtain ⟨-, -, hnothing⟩ := conserved
    have hdispose : PipelineOp.dispose ∈ shortLife := by simp [shortLife]
    exact ⟨p, h, rfl, htargets, hprograms, (hnothing hdispose).1, (hnothing hdispose).2.1⟩

end Pipeline

end ScreenFusion
