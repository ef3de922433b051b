import ScreenFusion.Proofs.Pass.Lasting

/-!
# ScreenFusion.Proofs.Pass.Forcing — which programs force alpha

A program forces alpha if it was fused without an alpha channel.  The options of a pass say what is wanted, its program
what is done.  They agree if nothing has changed since a build that succeeded; a program that was kept after a build
that failed can be one of other options.

* `Device.Forces`: a number stands for a program that forces alpha, or for one that does not.
* `MaterialPass.Forcing`, `EffectPass.Forcing`: the programs of passes are of the options that they were built with.
* `Pass.Forcing.used`: every use of a pass keeps it.
* `Pass.Used.forces_of_ready`: the program of a pass that is ready.
-/

namespace ScreenFusion

open Fusion Staged

namespace Device

variable {d d' : Device} {n : Nat} {b : Bool} {source : ProgramSource}

/-- The number has been given out, and stands for a program that forces alpha or not, if it stands for anything. -/
structure Forces (d : Device) (n : Nat) (b : Bool) : Prop where
  given : n < d.nextId
  found : ∀ p, d.programs.get? n = some p → p.forcesAlpha = b

theorem Forces.later (f : d.Forces n b) (l : d.Later d') : d'.Forces n b :=
  ⟨Nat.lt_of_lt_of_le f.given l.nextId, fun p hp => f.found p (l.programs n f.given p hp)⟩

theorem Knows.forces (k : d.Knows n source) : d.Forces n source.forcesAlpha :=
  ⟨k.given, fun p hp => congrArg Program.forcesAlpha (k.found p hp)⟩

end Device

/-- A program that has just been fused forces alpha if there is to be no alpha channel. -/
theorem Host.forces_of_compileProgram_ok {label : String} {units : List FuseUnit} {options : FuseOptions}
    {source : ProgramSource} {h k : Host} {n : Nat} (hf : (fuse label units options).2 = .ok source)
    (hc : compileProgram source h = (.ok n, k)) : k.device.Forces n (!options.alpha) := by
  have forces := (knows_of_compileProgram_ok hc).2.forces
  rwa [(fuse_source hf).forcesAlpha_eq] at forces

/-! ## Material passes -/

namespace MaterialPass

variable {p q : MaterialPass} {h k : Host} {d d' : Device} {c : CompiledMaterial}

/-- If nothing has changed since a build that succeeded, the program is of the options of the pass. -/
def Forcing (p : MaterialPass) (d : Device) : Prop :=
  p.dirty = false → p.lastError = none → ∀ c, p.compiled = some c → d.Forces c.program (!p.options.alpha)

namespace Forcing

theorem of_dirty (hd : p.dirty = true) : p.Forcing d := by
  intro hclean
  rw [hd] at hclean
  cases hclean

theorem of_failed {e : Error} (he : p.lastError = some e) : p.Forcing d := by
  intro _ hnone
  rw [he] at hnone
  cases hnone

theorem of_none (hc : p.compiled = none) : p.Forcing d := by
  intro _ _ c hc'
  rw [hc] at hc'
  cases hc'

/-- What leaves the program and the options, and does not take a mark away. -/
theorem carried (f : p.Forcing d) (hcompiled : q.compiled = p.compiled) (hoptions : q.options = p.options)
    (hclean : q.dirty = false → q.lastError = none → p.dirty = false ∧ p.lastError = none) (l : d.Later d') :
    q.Forcing d' := by
  intro hdirty he c hc
  obtain ⟨hdirty', he'⟩ := hclean hdirty he
  rw [hoptions]
  exact (f hdirty' he' c (hcompiled ▸ hc)).later l

theorem later (f : p.Forcing d) (l : d.Later d') : p.Forcing d' := f.carried rfl rfl (fun hd he => ⟨hd, he⟩) l

theorem setUniform (f : p.Forcing d) (name : String) (value : UniformValue) :
    (p.setUniform name value).Forcing d := by
  refine f.carried rfl rfl (fun hdirty he => ?_) (refl_of Device.Later d)
  have hdirty : (p.dirty || !((p.material.uniforms.get? name).map (·.sameKind value)).getD false) = false := hdirty
  exact ⟨(Bool.or_eq_false_iff.1 hdirty).1, he⟩

theorem configure (f : p.Forcing h.device) (setup : Setup) :
    let s := (MaterialPass.configure setup ⟨p, h⟩).2
    s.stage.Forcing s.host.device := by
  show (if p.options = _ then p else _).Forcing h.device
  split
  · exact f
  · exact .of_dirty rfl

theorem rebuild (p : MaterialPass) (h : Host) :
    let s := (MaterialPass.rebuild ⟨p, h⟩).2
    s.stage.Forcing s.host.device := by
  intro s
  have hstage := (compiles_build ⟨p, h⟩).1
  rcases hb : build ⟨p, h⟩ with ⟨e | c, q, k⟩ <;> rw [hb] at hstage <;>
    (have hq : q = p := hstage) <;> subst hq
  · have hs : s.stage = q.giveUp e := congrArg (fun r => r.2.stage) (rebuild_of_error hb)
    rw [hs]
    exact .of_failed rfl
  · have hs : s = ⟨q.adopt c, (retire (Holder.program? q) k).report [.materialBuilt q.name]⟩ :=
      congrArg Prod.snd (rebuild_of_ok hb)
    rw [hs]
    obtain ⟨source, events, hfused, hc, -⟩ := source_of_build_ok hb
    intro _ _ c' hc'
    cases hc'
    exact (Host.forces_of_compileProgram_ok hfused hc).later (later_retire (Holder.program? q) k)

theorem prepare (f : p.Forcing h.device) :
    let s := (MaterialPass.prepare ⟨p, h⟩).2
    s.stage.Forcing s.host.device := prepare_cases (I := Forcing) f (rebuild p h)

theorem render (f : p.Forcing h.device) (io : PassIo) (deltaTime : Binary32) :
    let s := (MaterialPass.render io deltaTime ⟨p, h⟩).2
    s.stage.Forcing s.host.device := by
  refine render_cases (I := Forcing) f.prepare (fun q d d' elapsed f l => ?_) io deltaTime
  exact f.carried rfl rfl (fun hd he => ⟨hd, he⟩) l

theorem dispose (f : p.Forcing h.device) :
    let s := (MaterialPass.dispose ⟨p, h⟩).2
    s.stage.Forcing s.host.device := by
  unfold MaterialPass.dispose
  rw [Act.bind_of_ok (get_apply _)]
  dsimp only
  split
  · exact f
  · rw [Act.bind_of_ok (modify_apply _ _)]
    cases hc : p.compiled with
    | none => exact .of_none rfl
    | some old => exact .of_none rfl

end Forcing

end MaterialPass

/-! ## Effect passes -/

namespace EffectPass

variable {p q : EffectPass} {h k : Host} {d d' : Device}

/-- The program is of the options in its key. -/
def Forcing (p : EffectPass) (d : Device) : Prop :=
  ∀ c, p.compiled = some c → d.Forces c.program (!c.key.options.alpha)

theorem Forcing.later (f : p.Forcing d) (l : d.Later d') : p.Forcing d' := fun c hc => (f c hc).later l

theorem Builds.forces {c : CompiledEffects} (b : Builds p h c k) : k.device.Forces c.program (!c.key.options.alpha) := by
  obtain ⟨-, source, hsource, hmade, hc⟩ := b
  have hkey : c.key = p.key := congrArg CompiledEffects.key hc
  rw [hkey]
  exact Host.forces_of_compileProgram_ok hsource hmade

theorem Forcing.commit (f : p.Forcing h.device) {r : Except Error Bool}
    (hc : EffectPass.commit ⟨p, h⟩ = (r, ⟨q, k⟩)) : q.Forcing k.device := by
  have l : h.Later (EffectPass.commit ⟨p, h⟩).2.host := along_commit Host.building_later ⟨p, h⟩
  rw [hc] at l
  have kept : p.Forcing k.device := f.later l
  cases outcome_of_commit hc with
  | @built c k' _ _ b =>
    intro c' hc'
    cases hc'
    exact b.forces.later (later_retire p k')
  | _ => exact kept

/-- Every use of the pass keeps it. -/
theorem Forcing.used (f : p.Forcing h.device) (op : EffectPassOp) (ha : op.Admissible p) :
    let s := (op.run ⟨p, h⟩).2
    s.stage.Forcing s.host.device := by
  refine used_cases (I := Forcing) (fun r q k hc => f.commit hc) (fun q d d' elapsed f l => Forcing.later f l)
    (fun q d' carried l c hc => ?_) op ha
  -- what builds nothing keeps the program or drops it
  rcases carried.compiled with hsame | hnone
  · exact (f c (hsame.symm.trans hc)).later l
  · cases hnone.symm.trans hc

end EffectPass

/-! ## Passes of any kind -/

namespace Pass

variable {p : Pass} {h : Host} {d d' : Device}

/-- The program of the pass is of the options that it was built with. -/
def Forcing (d : Device) : Pass → Prop
  | material p => p.Forcing d
  | effect p => p.Forcing d
  | _ => True

theorem Forcing.later (f : p.Forcing d) (l : d.Later d') : p.Forcing d' := by
  cases p with
  | material p => exact MaterialPass.Forcing.later f l
  | effect p => exact EffectPass.Forcing.later f l
  | _ => trivial

theorem Forcing.of_program?_eq_none (hn : Holder.program? p = none) : p.Forcing d := by
  cases p with
  | material p => exact .of_none (Option.map_eq_none_iff.1 hn)
  | effect p =>
    intro c hc
    rw [Option.map_eq_none_iff.1 hn] at hc
    cases hc
  | _ => trivial

/-- Every use of a pass keeps it. -/
theorem Forcing.used (f : p.Forcing h.device) (use : PassUse) (ha : use.Suits p) :
    (use.run ⟨p, h⟩).2.stage.Forcing (use.run ⟨p, h⟩).2.host.device := by
  cases p with
  | material p =>
    have f : p.Forcing h.device := f
    cases use with
    | change setter =>
      have same : p.Forcing h.device := f.carried rfl rfl (fun hd he => ⟨hd, he⟩) (refl_of _ _)
      cases setter with
      | settings s => exact same
      | camera planes => exact same
      | material m => exact .of_dirty rfl
      | uniform name value => exact f.setUniform name value
      | _ => exact f
    | configure setup => exact f.configure setup
    | prepare => exact f.prepare
    | render io deltaTime => exact f.render io deltaTime
    | resize width height => exact f
    | dispose =>
      rw [PassUse.run_dispose]
      exact f.dispose
  | effect p =>
    rcases PassUse.run_effect h ha with hs | ⟨op, hop, hs⟩ <;> rw [hs]
    · exact f
    · exact EffectPass.Forcing.used f op hop
  | _ =>
    -- nothing is built for the other kinds
    cases use with
    | change setter => cases setter <;> trivial
    | dispose =>
      rw [PassUse.run_dispose]
      trivial
    | _ => trivial

theorem Used.forcing {s : Staged Pass} (u : Used s) : s.stage.Forcing s.host.device := by
  induction u with
  | made h m => exact .of_program?_eq_none m.fresh.unused.2.2
  | used use _ suits ih => exact ih.used use suits
  | elsewhere _ l ih => exact ih.later l

/-- The program of a pass that is ready forces alpha exactly if the pass is set up without an alpha channel, except
after a build that failed. -/
theorem Used.forces_of_ready {s : Staged Pass} (u : Used s) (ready : s.stage.builder.Ready)
    (he : s.stage.builder.lastError = none) {o : FuseOptions} (ho : s.stage.options? = some o) {n : Nat}
    (hn : Holder.program? s.stage = some n) : s.host.device.Forces n (!o.alpha) := by
  obtain ⟨p, h⟩ := s
  cases p with
  | material p =>
    have f : p.Forcing h.device := u.forcing
    obtain ⟨c, hc, rfl⟩ := Option.map_eq_some_iff.1 hn
    cases ho
    exact f ready.clean he c hc
  | effect p =>
    have f : p.Forcing h.device := u.forcing
    obtain ⟨c, hc, rfl⟩ := Option.map_eq_some_iff.1 hn
    cases ho
    obtain ⟨calls, hreached⟩ := (u.installed : p.Installed h.device).reached
    have hfresh : c.key = p.key := hreached.invariant.fresh ready.clean he c hc
    have forces := f c hc
    rw [hfresh] at forces
    exact forces
  | _ => cases hn

end Pass

end ScreenFusion
