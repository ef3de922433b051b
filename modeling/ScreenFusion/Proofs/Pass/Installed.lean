import ScreenFusion.Proofs.Pass.Along
import ScreenFusion.Proofs.Pass.Shading

/-!
# ScreenFusion.Proofs.Pass.Installed — where the program of a pass comes from

A pass keeps of its program the number under which the device has it, and its layout.  Whatever is done with the pass
and the device, the program was fused from units that the pass brought once.  After a build that succeeded they have the
shape of the units that it brings now; after one that failed they need not.

* `Installation.MadeFrom`: a program that was fused from units and is known to a device.
* `MaterialPass.Installed`, `EffectPass.Installed`: the programs of passes were made so.
* `MaterialPass.render_cases`, `EffectPass.used_cases`: how what a build keeps is kept by the uses of a pass.
* `EffectPass.Installed.used`, `MaterialPass.Installed.render`: the uses of a pass keep it.
* `Pass.Installed.exists_units`: the units of a pass of any kind.
-/

namespace ScreenFusion

open Fusion Staged

/-! ## Programs that were made -/

/-- What a pass keeps of a program that was made for it. -/
structure Installation where
  program : Nat
  layout : List UnitSlots
  slotCount : Nat
  deriving DecidableEq

/-- What an effect pass keeps of its program. -/
def CompiledEffects.installation (c : CompiledEffects) : Installation := ⟨c.program, c.layout, c.slotCount⟩

/-- What a material pass keeps of its program. -/
def CompiledMaterial.installation (c : CompiledMaterial) : Installation :=
  ⟨c.program, [⟨none, c.uniforms⟩], c.slotCount⟩

/-- The units have the same names and kinds of uniforms and the same attributes. -/
structure Fusion.FuseUnit.SameShape (u u' : FuseUnit) : Prop where
  kinds_eq : u'.uniforms.kinds = u.uniforms.kinds
  attributes_eq : u'.attributes = u.attributes

namespace Fusion.FuseUnit.SameShape

variable {u u' u'' : FuseUnit}

theorem refl (u : FuseUnit) : SameShape u u := ⟨rfl, rfl⟩

theorem trans (h : SameShape u u') (h' : SameShape u' u'') : SameShape u u'' :=
  ⟨h'.kinds_eq.trans h.kinds_eq, h'.attributes_eq.trans h.attributes_eq⟩

/-- Effects on which a program depends alike bring units of the same shape. -/
theorem of_key {e e' : Effect} (h : EffectKey.of e' = EffectKey.of e) : SameShape (.ofEffect e) (.ofEffect e') :=
  ⟨congrArg EffectKey.uniforms h, congrArg EffectKey.attributes h⟩

theorem of_keys {es es' : List Effect} (h : es'.map EffectKey.of = es.map EffectKey.of) :
    List.Forall₂ SameShape (es.map .ofEffect) (es'.map .ofEffect) := by
  refine List.forall₂_map_left_iff.2 (List.forall₂_map_right_iff.2 ?_)
  have hkeys : List.Forall₂ (· = ·) (es.map EffectKey.of) (es'.map EffectKey.of) := List.forall₂_eq_eq_eq ▸ h.symm
  exact (List.forall₂_map_left_iff.1 (List.forall₂_map_right_iff.1 hkeys)).imp fun _ _ heq => of_key heq.symm

end Fusion.FuseUnit.SameShape

namespace Installation

variable {i : Installation} {label : String} {units : List FuseUnit} {source : ProgramSource} {d d' : Device}

/-- The program was fused from units, and the device knows it by its number. -/
structure MadeFrom (i : Installation) (label : String) (units : List FuseUnit) (source : ProgramSource)
    (d : Device) : Prop where
  fused : ∃ options, (fuse label units options).2 = .ok source
  known : d.Knows i.program source
  layout_eq : i.layout = source.layout
  slotCount_eq : i.slotCount = source.slots.length

namespace MadeFrom

theorem later (m : i.MadeFrom label units source d) (l : d.Later d') : i.MadeFrom label units source d' :=
  ⟨m.fused, m.known.later l, m.layout_eq, m.slotCount_eq⟩

theorem consists (m : i.MadeFrom label units source d) : ∃ options, Fused label units options source := by
  obtain ⟨options, hf⟩ := m.fused
  exact ⟨options, fuse_source hf⟩

theorem separate (m : i.MadeFrom label units source d) : Separate i.layout i.slotCount := by
  obtain ⟨options, f⟩ := m.consists
  rw [m.layout_eq, m.slotCount_eq]
  exact f.separate

theorem fits (m : i.MadeFrom label units source d) : List.Forall₂ (Fits source.kinds) units i.layout := by
  obtain ⟨options, f⟩ := m.consists
  rw [m.layout_eq]
  exact f.fits

end MadeFrom

end Installation

/-- The release of a program leaves the others. -/
theorem Staged.later_retire (program : Option Nat) (h : Host) : h.Later (retire program h) := by
  unfold retire
  cases program with
  | none => exact refl_of Host.Later h
  | some n => exact Host.building_later.release n h

/-! ## Material passes -/

namespace MaterialPass

variable {p q : MaterialPass} {h k : Host} {d d' : Device} {c : CompiledMaterial}

/-- The program of the pass was made from a material, which has the shape of the present one if nothing has changed
since a build that succeeded. -/
def Installed (p : MaterialPass) (d : Device) : Prop :=
  ∀ c, p.compiled = some c → ∃ (m : Material) (source : ProgramSource),
    c.installation.MadeFrom p.name [m.toUnit] source d ∧
    (p.dirty = false → p.lastError = none → m.toUnit.SameShape p.material.toUnit)

/-- A build that succeeds has fused a program out of the material with the options of the pass, and made it. -/
theorem source_of_build_ok (hb : build ⟨p, h⟩ = (.ok c, ⟨p, k⟩)) : ∃ source events,
    (fuse p.name [p.material.toUnit] p.options).2 = .ok source ∧
    Host.compileProgram source (h.report events) = (.ok c.program, k) ∧
    c = ⟨c.program, (source.layout.head?.map UnitSlots.uniforms).getD [], source.slots.length⟩ := by
  unfold build at hb
  rw [Act.bind_of_ok (get_apply _)] at hb
  rcases hf : fuse p.name [p.material.toUnit] p.options with ⟨events, r⟩
  rw [hf] at hb
  dsimp only at hb
  rw [Act.bind_of_ok (report_apply _ _)] at hb
  cases r with
  | error e => cases hb
  | ok source =>
    rw [Act.bind_of_ok (Act.ofExcept_apply _ _), Act.bind_apply, onHost_apply] at hb
    rcases hc : Host.compileProgram source (h.report events) with ⟨e | n, k'⟩ <;> simp only [hc] at hb <;> cases hb
    exact ⟨source, events, rfl, hc, rfl⟩

/-- A build makes a program from the present material. -/
theorem madeFrom_of_build_ok (hb : build ⟨p, h⟩ = (.ok c, ⟨p, k⟩)) :
    c.program = h.device.nextId ∧ ∃ source, c.installation.MadeFrom p.name [p.material.toUnit] source k.device := by
  obtain ⟨source, events, hfused, hc, hcompiled⟩ := source_of_build_ok hb
  obtain ⟨hn, knows⟩ := Host.knows_of_compileProgram_ok hc
  refine ⟨hn, source, ⟨p.options, hfused⟩, knows, ?_, congrArg CompiledMaterial.slotCount hcompiled⟩
  show [(⟨none, c.uniforms⟩ : UnitSlots)] = source.layout
  rw [hcompiled, (fuse_source hfused).layout_eq]
  rfl

/-- Being made ready is a build, or leaves all as it is. -/
theorem prepare_eq_rebuild_or (p : MaterialPass) (h : Host) :
    prepare ⟨p, h⟩ = rebuild ⟨p, h⟩ ∨ (prepare ⟨p, h⟩).2 = ⟨p, h⟩ := by
  unfold prepare
  rw [Act.bind_of_ok (get_apply _)]
  dsimp only
  cases p.disposed with
  | true => exact .inr rfl
  | false =>
    cases p.dirty with
    | true => exact .inl rfl
    | false =>
      cases p.compiled with
      | some c => exact .inr rfl
      | none =>
        cases p.lastError with
        | some e => exact .inr rfl
        | none => exact .inl rfl

section Uses

variable {I : MaterialPass → Device → Prop}

/-- What holds of the pass as it is, and after a build, holds after it has been made ready. -/
theorem prepare_cases (same : I p h.device)
    (built : I (rebuild ⟨p, h⟩).2.stage (rebuild ⟨p, h⟩).2.host.device) :
    I (prepare ⟨p, h⟩).2.stage (prepare ⟨p, h⟩).2.host.device := by
  rcases prepare_eq_rebuild_or p h with hp | hp <;> rw [hp]
  · exact built
  · exact same

/-- After a render it holds too, if it does not depend on the pass's time. -/
theorem render_cases (prepared : I (prepare ⟨p, h⟩).2.stage (prepare ⟨p, h⟩).2.host.device)
    (elapse : ∀ q d d' elapsed, I q d → d.Later d' → I { q with elapsed } d') (io : PassIo) (deltaTime : Binary32) :
    I (render io deltaTime ⟨p, h⟩).2.stage (render io deltaTime ⟨p, h⟩).2.host.device := by
  rcases hp : prepare ⟨p, h⟩ with ⟨e | _, q, k⟩ <;> rw [hp] at prepared
  · rw [render_of_prepare_error hp io deltaTime]
    exact prepared
  · obtain ⟨c, hc⟩ := compiled_of_prepare_ok hp
    rw [render_of_prepare_ok hp hc io deltaTime]
    exact elapse q k.device _ _ prepared (Host.later_drawFullscreen _ k)

end Uses

namespace Installed

/-- What leaves the program, and leaves the material but for values of the same kinds or marks the pass. -/
theorem carried (inst : p.Installed d) (hname : q.name = p.name) (hcompiled : q.compiled = p.compiled)
    (hshape : q.dirty = false → q.lastError = none →
      p.dirty = false ∧ p.lastError = none ∧ p.material.toUnit.SameShape q.material.toUnit)
    (l : d.Later d') : q.Installed d' := by
  intro c hc
  obtain ⟨m, source, made, same⟩ := inst c (hcompiled ▸ hc)
  refine ⟨m, source, hname ▸ made.later l, fun hdirty he => ?_⟩
  obtain ⟨hdirty', he', hpq⟩ := hshape hdirty he
  exact (same hdirty' he').trans hpq

theorem later (inst : p.Installed d) (l : d.Later d') : p.Installed d' :=
  inst.carried rfl rfl (fun hdirty he => ⟨hdirty, he, .refl _⟩) l

theorem of_none (hc : p.compiled = none) : p.Installed d := by
  intro c hc'
  rw [hc] at hc'
  cases hc'

theorem setMaterial (inst : p.Installed d) (m : Material) : (p.setMaterial m).Installed d :=
  inst.carried rfl rfl nofun (refl_of Device.Later d)

theorem setUniform (inst : p.Installed d) (name : String) (value : UniformValue) :
    (p.setUniform name value).Installed d := by
  refine inst.carried rfl rfl (fun hdirty he => ?_) (refl_of Device.Later d)
  have hdirty : (p.dirty || !((p.material.uniforms.get? name).map (·.sameKind value)).getD false) = false := hdirty
  obtain ⟨hclean, hkeeps⟩ := Bool.or_eq_false_iff.1 hdirty
  refine ⟨hclean, he, ?_, rfl⟩
  cases hv : p.material.uniforms.get? name with
  | none =>
    rw [hv] at hkeeps
    cases hkeeps
  | some v =>
    rw [hv] at hkeeps
    exact OrderedMap.kinds_insert hv (by simpa using hkeeps)

theorem configure (inst : p.Installed h.device) (setup : Setup) :
    let s := (MaterialPass.configure setup ⟨p, h⟩).2
    s.stage.Installed s.host.device := by
  show (if p.options = _ then p else _).Installed h.device
  split
  · exact inst
  · exact inst.carried rfl rfl nofun (refl_of Device.Later h.device)

theorem rebuild (inst : p.Installed h.device) :
    let s := (MaterialPass.rebuild ⟨p, h⟩).2
    s.stage.Installed s.host.device := by
  intro s
  have l : h.Later s.host := along_rebuild Host.building_later ⟨p, h⟩
  have hstage := (compiles_build ⟨p, h⟩).1
  rcases hb : build ⟨p, h⟩ with ⟨e | c, q, k⟩ <;> rw [hb] at hstage <;>
    (have hq : q = p := hstage) <;> subst hq
  · have hs : s.stage = q.giveUp e := congrArg (fun r => r.2.stage) (rebuild_of_error hb)
    rw [hs]
    exact inst.carried rfl rfl nofun l
  · have hs : s = ⟨q.adopt c, (retire (Holder.program? q) k).report [.materialBuilt q.name]⟩ :=
      congrArg Prod.snd (rebuild_of_ok hb)
    rw [hs]
    obtain ⟨-, source, made⟩ := madeFrom_of_build_ok hb
    intro c' hc'
    cases hc'
    exact ⟨q.material, source, made.later (later_retire (Holder.program? q) k), fun _ _ => .refl _⟩

theorem prepare (inst : p.Installed h.device) :
    let s := (MaterialPass.prepare ⟨p, h⟩).2
    s.stage.Installed s.host.device := prepare_cases (I := Installed) inst inst.rebuild

theorem render (inst : p.Installed h.device) (io : PassIo) (deltaTime : Binary32) :
    let s := (MaterialPass.render io deltaTime ⟨p, h⟩).2
    s.stage.Installed s.host.device := by
  refine render_cases (I := Installed) inst.prepare (fun q d d' elapsed inst l => ?_) io deltaTime
  exact inst.carried rfl rfl (fun hdirty he => ⟨hdirty, he, .refl _⟩) l

theorem dispose (inst : p.Installed h.device) :
    let s := (MaterialPass.dispose ⟨p, h⟩).2
    s.stage.Installed s.host.device := by
  unfold MaterialPass.dispose
  rw [Act.bind_of_ok (get_apply _)]
  dsimp only
  split
  · exact inst
  · rw [Act.bind_of_ok (modify_apply _ _)]
    cases hc : p.compiled with
    | none => exact .of_none rfl
    | some old => exact .of_none rfl

end Installed

end MaterialPass

/-! ## Effect passes -/

/-- The program was made from effects with its key. -/
def CompiledEffects.Installed (c : CompiledEffects) (name : String) (d : Device) : Prop :=
  ∃ (effects : List Effect) (source : ProgramSource), effects.map EffectKey.of = c.key.effects ∧
    c.installation.MadeFrom name (effects.map FuseUnit.ofEffect) source d

theorem CompiledEffects.Installed.later {c : CompiledEffects} {name : String} {d d' : Device}
    (inst : c.Installed name d) (l : d.Later d') : c.Installed name d' := by
  obtain ⟨effects, source, hkey, made⟩ := inst
  exact ⟨effects, source, hkey, made.later l⟩

namespace EffectPass

variable {p q : EffectPass} {h k : Host} {d d' : Device}

/-- The pass can be had, and its program was made from effects with the program's key. -/
structure Installed (p : EffectPass) (d : Device) : Prop where
  reached : ∃ calls, Reached p calls
  made : ∀ c, p.compiled = some c → c.Installed p.name d

theorem Builds.installed {c : CompiledEffects} (b : Builds p h c k) : c.Installed p.name k.device := by
  obtain ⟨-, source, hsource, hmade, hc⟩ := b
  have hkey : c.key = p.key := congrArg CompiledEffects.key hc
  refine ⟨p.effects, source, by rw [hkey]; rfl, ⟨p.options, hsource⟩, (Host.knows_of_compileProgram_ok hmade).2, ?_, ?_⟩
  · exact congrArg CompiledEffects.layout hc
  · exact congrArg CompiledEffects.slotCount hc

theorem later_retire (p : EffectPass) (h : Host) : h.Later (p.retire h) := by
  rw [retire_eq]
  exact Staged.later_retire (Holder.program? p) h

theorem later_run (op : EffectPassOp) (p : EffectPass) (h : Host) : h.Later (op.run ⟨p, h⟩).2.host :=
  op.along_run Host.serving_later Host.later_drawFullscreen ⟨p, h⟩

/-- What holds after a commit holds after every use, if it does not depend on the pass's time, and is kept by what
builds nothing. -/
theorem used_cases {I : EffectPass → Device → Prop}
    (committed : ∀ r q k, EffectPass.commit ⟨p, h⟩ = (r, ⟨q, k⟩) → I q k.device)
    (elapse : ∀ q d d' elapsed, I q d → d.Later d' → I { q with elapsed } d')
    (carried : ∀ q d', Carried p q → h.device.Later d' → I q d') (op : EffectPassOp) (ha : op.Admissible p) :
    I (op.run ⟨p, h⟩).2.stage (op.run ⟨p, h⟩).2.host.device := by
  rcases hc : EffectPass.commit ⟨p, h⟩ with ⟨r, q, k⟩
  have committed := committed r q k hc
  cases op with
  | commit =>
    rw [EffectPassOp.run_commit, hc]
    exact committed
  | render io deltaTime =>
    show I (EffectPass.render io deltaTime ⟨p, h⟩).2.stage (EffectPass.render io deltaTime ⟨p, h⟩).2.host.device
    cases r with
    | error e =>
      rw [render_of_commit_error hc io deltaTime]
      exact committed
    | ok b =>
      obtain ⟨c, hq⟩ := compiled_of_commit_ok hc
      rw [render_of_commit_ok hc hq io deltaTime]
      exact elapse q k.device _ _ committed (Host.later_drawFullscreen _ k)
  | _ => exact carried _ _ (leaves_run rfl ha h).stage (later_run _ p h)

namespace Installed

theorem later (inst : p.Installed d) (l : d.Later d') : p.Installed d' :=
  ⟨inst.reached, fun c hc => (inst.made c hc).later l⟩

/-- After a commit the program is the one that there was, or has been made from the members. -/
theorem made_of_commit {r : Except Error Bool} (inst : p.Installed h.device)
    (hc : EffectPass.commit ⟨p, h⟩ = (r, ⟨q, k⟩)) :
    q.name = p.name ∧ ∀ c, q.compiled = some c → c.Installed p.name k.device := by
  have l : h.Later (EffectPass.commit ⟨p, h⟩).2.host := along_commit Host.building_later ⟨p, h⟩
  rw [hc] at l
  have kept := (inst.later l).made
  cases outcome_of_commit hc with
  | disposed _ => exact ⟨rfl, kept⟩
  | clean _ _ _ => exact ⟨rfl, kept⟩
  | failedBefore _ _ _ _ => exact ⟨rfl, kept⟩
  | takenBack _ _ _ _ => exact ⟨rfl, kept⟩
  | failed _ _ _ => exact ⟨rfl, kept⟩
  | @built c k' _ _ b =>
    refine ⟨rfl, fun c' hc' => ?_⟩
    cases hc'
    exact b.installed.later (later_retire p k')

/-- Every use of the pass keeps it. -/
theorem used (inst : p.Installed h.device) (op : EffectPassOp) (ha : op.Admissible p) :
    let s := (op.run ⟨p, h⟩).2
    s.stage.Installed s.host.device := by
  obtain ⟨calls, hreached⟩ := inst.reached
  refine ⟨⟨_, .used op h hreached ha⟩, ?_⟩
  refine used_cases (I := fun p d => ∀ c, p.compiled = some c → c.Installed p.name d) (fun r q k hc => ?_)
    (fun q d d' elapsed made l c hc => (made c hc).later l) (fun q d' carried l c hc => ?_) op ha
  · obtain ⟨hname, made⟩ := inst.made_of_commit hc
    exact hname.symm ▸ made
  · -- what builds nothing keeps the program or drops it
    rw [carried.name]
    rcases carried.compiled with hsame | hnone
    · exact (inst.made c (hsame.symm.trans hc)).later l
    · cases hnone.symm.trans hc

end Installed

end EffectPass

/-! ## Passes of any kind -/

namespace Pass

variable {p : Pass} {h : Host} {d d' : Device} {i : Installation}

/-- What the pass keeps of its program. -/
def installation? : Pass → Option Installation
  | material p => p.compiled.map CompiledMaterial.installation
  | effect p => p.compiled.map CompiledEffects.installation
  | _ => none

/-- The units that the pass brings now. -/
def units : Pass → List FuseUnit
  | material p => [p.material.toUnit]
  | effect p => p.effects.map FuseUnit.ofEffect
  | _ => []

/-- The program of the pass was made from units that the pass brought. -/
def Installed (d : Device) : Pass → Prop
  | material p => p.Installed d
  | effect p => p.Installed d
  | _ => True

/-- The program of a pass was made from units.  If nothing has changed since a build that succeeded, they have the shape
of those that the pass brings now. -/
theorem Installed.exists_units (inst : p.Installed d) (hi : p.installation? = some i) :
    ∃ units source, i.MadeFrom p.name units source d ∧
      (p.builder.changed = false → p.builder.lastError = none → List.Forall₂ FuseUnit.SameShape units p.units) := by
  cases p with
  | material p =>
    obtain ⟨c, hc, rfl⟩ := Option.map_eq_some_iff.1 hi
    obtain ⟨m, source, made, same⟩ := inst c hc
    exact ⟨[m.toUnit], source, made, fun hdirty he => .cons (same hdirty he) .nil⟩
  | effect p =>
    obtain ⟨c, hc, rfl⟩ := Option.map_eq_some_iff.1 hi
    obtain ⟨effects, source, hkey, made⟩ := inst.made c hc
    obtain ⟨calls, hreached⟩ := inst.reached
    refine ⟨_, source, made, fun hdirty he => FuseUnit.SameShape.of_keys ?_⟩
    have hfresh := hreached.invariant.fresh hdirty he c hc
    rw [hkey, hfresh]
    rfl
  | _ => cases hi

end Pass

end ScreenFusion
