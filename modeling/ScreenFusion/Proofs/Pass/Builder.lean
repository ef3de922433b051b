import ScreenFusion.Proofs.Host.Failure
import ScreenFusion.Proofs.Host.Only
import ScreenFusion.Proofs.Pass.Holdings
import ScreenFusion.Proofs.Pass.QuietRun

/-!
# ScreenFusion.Proofs.Pass.Builder — how passes are made ready

Effect passes and material passes have a program built for them.  Whether there is something to build, and what becomes
of the pass, depends on five things that both kinds have; these are the state of a small machine.  Being made ready is
one step of it.

* `Builder`, `Builder.Step`: the machine.  A step fails with a new error, or with the one that is kept.
* `EffectPass.step_commit`, `MaterialPass.step_prepare`, `Pass.step_prepare`: passes follow it.
* `Pass.only_prepare`: only programs are made and released meanwhile.
* `Builder.Ready`, `Pass.render_of_ready`: a pass that is ready is not built in its render, and does not fail for a
  program.
-/

namespace ScreenFusion

open Act Staged

/-! ## The machine -/

/-- What of a pass decides how it is made ready. -/
structure Builder where
  enabled : Bool
  disposed : Bool
  /-- Whether something has changed since the last build. -/
  changed : Bool
  /-- Whether there is a program. -/
  compiled : Bool
  /-- The error of the last build, if it failed. -/
  lastError : Option Error
  deriving DecidableEq, Inhabited

namespace Builder

variable {b b' : Builder} {r : Except Error Unit} {e : Error}

/-- Whether a build is due, or a look at whether the changes have been taken back. -/
def Due (b : Builder) : Prop := b.changed = true ∨ b.compiled = false ∧ b.lastError = none

/-- The ways in which a pass is made ready, or is not. -/
inductive Step (b : Builder) : Except Error Unit → Builder → Prop where
  | disposed {cause : ResourceCause} : b.disposed = true → Step b (.error (.resource cause)) b
  | ready : b.disposed = false → b.changed = false → b.compiled = true → Step b (.ok ()) b
  /-- The error that is kept is given again. -/
  | refused {e : Error} : b.disposed = false → b.changed = false → b.compiled = false → b.lastError = some e →
      Step b (.error e) b
  | made : b.disposed = false → b.Due →
      Step b (.ok ()) { b with changed := false, compiled := true, lastError := none }
  | failed {e : Error} : b.disposed = false → b.Due →
      Step b (.error e) { b with changed := false, lastError := some e, enabled := b.enabled && b.compiled }

/-- A live pass that has a program and nothing to build. -/
structure Ready (b : Builder) : Prop where
  live : b.disposed = false
  clean : b.changed = false
  compiled : b.compiled = true

/-- An enabled pass that has no program, nothing to build, and the error of a build that failed. -/
structure Stuck (b : Builder) (e : Error) : Prop where
  enabled : b.enabled = true
  live : b.disposed = false
  clean : b.changed = false
  missing : b.compiled = false
  error : b.lastError = some e

theorem Step.ready_of_ok (step : b.Step (.ok ()) b') : b'.Ready := by
  cases step with
  | ready hd hc hp => exact ⟨hd, hc, hp⟩
  | made hd _ => exact ⟨hd, rfl, rfl⟩

/-- A pass that becomes ready is as enabled as it was. -/
theorem Step.enabled_of_ok (step : b.Step (.ok ()) b') : b'.enabled = b.enabled := by
  cases step with
  | ready => rfl
  | made => rfl

theorem Ready.not_due (ready : b.Ready) : ¬b.Due := by
  rintro (hc | ⟨hp, -⟩)
  · rw [ready.clean] at hc
    cases hc
  · rw [ready.compiled] at hp
    cases hp

theorem Stuck.not_due (stuck : b.Stuck e) : ¬b.Due := by
  rintro (hc | ⟨-, he⟩)
  · rw [stuck.clean] at hc
    cases hc
  · rw [stuck.error] at he
    cases he

/-- A pass that is ready stays so. -/
theorem Ready.step (ready : b.Ready) (step : b.Step r b') : r = .ok () ∧ b' = b := by
  cases step with
  | disposed hd =>
    rw [ready.live] at hd
    cases hd
  | ready => exact ⟨rfl, rfl⟩
  | refused _ _ hp _ =>
    rw [ready.compiled] at hp
    cases hp
  | made _ hdue => exact absurd hdue ready.not_due
  | failed _ hdue => exact absurd hdue ready.not_due

/-- A pass that is stuck stays so, and gives its error. -/
theorem Stuck.step (stuck : b.Stuck e) (step : b.Step r b') : r = .error e ∧ b' = b := by
  cases step with
  | disposed hd =>
    rw [stuck.live] at hd
    cases hd
  | ready _ _ hp =>
    rw [stuck.missing] at hp
    cases hp
  | refused _ _ _ he =>
    rw [stuck.error] at he
    cases he
    exact ⟨rfl, rfl⟩
  | made _ hdue => exact absurd hdue stuck.not_due
  | failed _ hdue => exact absurd hdue stuck.not_due

/-- A pass that fails for a program has one afterwards or is disabled, except if it was stuck. -/
theorem Step.compiled_or_disabled_iff (step : b.Step (.error e) b') (he : e.isBuildError = true) :
    (b'.compiled = true ∨ b'.enabled = false) ↔ ¬b.Stuck e := by
  cases step with
  | disposed => cases he
  | refused hd hc hp hlast =>
    constructor
    · rintro (hcompiled | hdisabled) stuck
      · rw [hp] at hcompiled
        cases hcompiled
      · rw [stuck.enabled] at hdisabled
        cases hdisabled
    · intro hstuck
      refine .inr (Bool.eq_false_iff.2 fun henabled => hstuck ?_)
      exact ⟨henabled, hd, hc, hp, hlast⟩
  | failed hd hdue =>
    refine iff_of_true ?_ fun stuck => stuck.not_due hdue
    cases hp : b.compiled with
    | true => exact .inl rfl
    | false => exact .inr (Bool.and_false _)

end Builder

/-! ## Effect passes -/

namespace EffectPass

variable {p q : EffectPass} {h k : Host}

/-- What of the pass decides how it is made ready. -/
def builder (p : EffectPass) : Builder := ⟨p.settings.enabled, p.disposed, p.isDirty, p.compiled.isSome, p.lastError⟩

theorem builder_adopt (p : EffectPass) (c : CompiledEffects) :
    (p.adopt c).builder = { p.builder with changed := false, compiled := true, lastError := none } := by
  have hclean : (p.adopt c).isDirty = false := isDirty_acknowledgeAll p
  unfold builder
  rw [hclean]
  rfl

theorem builder_giveUp (p : EffectPass) (e : Error) : (p.giveUp e).builder =
    { p.builder with changed := false, lastError := some e, enabled := p.builder.enabled && p.builder.compiled } := by
  have hclean : (p.giveUp e).isDirty = false := isDirty_acknowledgeAll p
  have henabled : (p.giveUp e).settings.enabled = (p.settings.enabled && p.compiled.isSome) := by
    unfold giveUp
    cases p.compiled with
    | none => exact (Bool.and_false _).symm
    | some c => exact (Bool.and_true _).symm
  unfold builder
  rw [hclean, henabled]
  rfl

theorem WantsBuild.due (hw : p.WantsBuild) : p.builder.Due := by
  rcases hw.1 with hdirty | ⟨hc, he⟩
  · exact .inl hdirty
  · refine .inr ⟨?_, he⟩
    show p.compiled.isSome = false
    rw [hc]
    rfl

theorem CommitOutcome.step {r : Except Error Bool} (out : CommitOutcome p h r q k) :
    p.builder.Step (r.map fun _ => ()) q.builder := by
  have hcompiled {c : CompiledEffects} (hc : p.compiled = some c) : p.builder.compiled = true := by
    show p.compiled.isSome = true
    rw [hc]
    rfl
  cases out with
  | disposed hd => exact .disposed hd
  | clean hd hdirty hc => exact .ready hd hdirty (hcompiled hc)
  | failedBefore hd hdirty hc he =>
    refine .refused hd hdirty ?_ he
    show p.compiled.isSome = false
    rw [hc]
    rfl
  | takenBack hd hdirty hc _ =>
    have hsame : ({ p.acknowledgeAll with lastError := none } : EffectPass).builder =
        { p.builder with changed := false, compiled := true, lastError := none } := by
      have hclean : ({ p.acknowledgeAll with lastError := none } : EffectPass).isDirty = false :=
        isDirty_acknowledgeAll p
      have hkeeps : ({ p.acknowledgeAll with lastError := none } : EffectPass).compiled.isSome = true := hcompiled hc
      unfold builder
      rw [hclean, hkeeps]
      rfl
    rw [hsame]
    exact .made hd (.inl hdirty)
  | built hd hw _ =>
    rw [builder_adopt]
    exact .made hd hw.due
  | failed hd hw _ =>
    rw [builder_giveUp]
    exact .failed hd hw.due

/-- A commit is a step of the machine. -/
theorem step_commit (p : EffectPass) (h : Host) :
    p.builder.Step ((commit ⟨p, h⟩).1.map fun _ => ()) (commit ⟨p, h⟩).2.stage.builder :=
  (commit_outcome p h).step

theorem kept_of_ready (ready : p.builder.Ready) : ∃ c, Kept p c := by
  have hcompiled : p.compiled.isSome = true := ready.compiled
  obtain ⟨c, hc⟩ := Option.isSome_iff_exists.1 hcompiled
  exact ⟨c, ready.live, ready.clean, hc⟩

section Along

variable {R : Host → Host → Prop} [IsPreorder Host R]

theorem along_build (building : Host.Building R) (key : ProgramKey) : Confined (Along R) (build key) :=
  .bind along_get fun _ => .bind (.ofExcept _) fun _ => .bind (along_report building.report _) fun _ =>
    .bind (.ofExcept _) fun _ => .bind (along_onHost (building.compile _)) fun _ => .pure _

theorem along_rebuild (building : Host.Building R) (key : ProgramKey) : Confined (Along R) (rebuild key) := by
  have report (events : List Event) : Confined (Along R) (Staged.report events : Act (Staged EffectPass) Unit) :=
    along_report building.report events
  refine .bind (along_build building key).attempt fun result =>
    .bind (along_modify _) fun _ => .bind along_get fun p => ?_
  cases result with
  | ok compiled =>
    refine .bind (along_modify _) fun _ => ?_
    cases p.compiled with
    | some old =>
      exact .bind (along_release (building.release _)) fun _ => .bind (along_modify _) fun _ => report _
    | none => exact .bind (along_modify _) fun _ => report _
  | error e =>
    refine .ite ?_ ?_
    · exact .bind (report _) fun _ => .bind (along_modify _) fun _ => .fail e
    · exact .bind (report _) fun _ => .bind (along_modify _) fun _ => .bind (along_modify _) fun _ => .fail e

theorem along_commit (building : Host.Building R) : Confined (Along R) commit := by
  refine .bind along_get fun p => .ite (.fail _) (.ite (.pure false) ?_)
  cases (if p.isDirty then none else p.lastError) with
  | some e => exact .fail e
  | none =>
    refine .ite ?_ ?_
    · exact .bind (along_modify _) fun _ => .pure false
    · exact .bind (along_rebuild building p.key) fun _ => .pure true

end Along

end EffectPass

/-! ## Material passes -/

namespace MaterialPass

variable {p q : MaterialPass} {h k : Host}

/-- What of the pass decides how it is made ready. -/
def builder (p : MaterialPass) : Builder := ⟨p.settings.enabled, p.disposed, p.dirty, p.compiled.isSome, p.lastError⟩

theorem builder_giveUp (p : MaterialPass) (e : Error) : (p.giveUp e).builder =
    { p.builder with changed := false, lastError := some e, enabled := p.builder.enabled && p.builder.compiled } := by
  have henabled : (p.giveUp e).settings.enabled = (p.settings.enabled && p.compiled.isSome) := by
    unfold giveUp
    cases p.compiled with
    | none => exact (Bool.and_false _).symm
    | some c => exact (Bool.and_true _).symm
  unfold builder
  rw [henabled]
  rfl

/-- What a live pass that is made ready becomes, with its result. -/
inductive Prepared (p : MaterialPass) : Except Error Unit → MaterialPass → Prop where
  | disposed : p.disposed = true → Prepared p (.error (.resource (.disposedPass p.name))) p
  | ready : p.builder.Ready → Prepared p (.ok ()) p
  | refused {e : Error} : p.disposed = false → p.dirty = false → p.compiled = none → p.lastError = some e →
      Prepared p (.error e) p
  | built (c : CompiledMaterial) : p.disposed = false → p.builder.Due → Prepared p (.ok ()) (p.adopt c)
  | failed (e : Error) : p.disposed = false → p.builder.Due → Prepared p (.error e) (p.giveUp e)

theorem prepared_rebuild (hd : p.disposed = false) (hdue : p.builder.Due) (h : Host) :
    Prepared p (rebuild ⟨p, h⟩).1 (rebuild ⟨p, h⟩).2.stage := by
  have hstage := (compiles_build ⟨p, h⟩).1
  rcases hb : build ⟨p, h⟩ with ⟨e | c, q, k⟩ <;> rw [hb] at hstage <;>
    (have hq : q = p := hstage) <;> subst hq
  · rw [rebuild_of_error hb]
    exact .failed e hd hdue
  · rw [rebuild_of_ok hb]
    exact .built c hd hdue

theorem prepared_prepare (p : MaterialPass) (h : Host) :
    Prepared p (prepare ⟨p, h⟩).1 (prepare ⟨p, h⟩).2.stage := by
  unfold prepare
  rw [Act.bind_of_ok (Staged.get_apply _)]
  dsimp only
  cases hd : p.disposed with
  | true => exact .disposed hd
  | false =>
    rw [if_neg Bool.false_ne_true]
    cases hdirty : p.dirty with
    | true => exact prepared_rebuild hd (.inl hdirty) h
    | false =>
      rw [if_neg Bool.false_ne_true]
      have hbuilder {c : Option CompiledMaterial} (hc : p.compiled = c) : p.builder.compiled = c.isSome :=
        congrArg Option.isSome hc
      cases hc : p.compiled with
      | some c => exact .ready ⟨hd, hdirty, hbuilder hc⟩
      | none =>
        cases he : p.lastError with
        | some e => exact .refused hd hdirty hc he
        | none => exact prepared_rebuild hd (.inr ⟨hbuilder hc, he⟩) h

theorem prepared_of_prepare {r : Except Error Unit} (hp : prepare ⟨p, h⟩ = (r, ⟨q, k⟩)) : Prepared p r q := by
  have out := prepared_prepare p h
  rwa [hp] at out

theorem Prepared.step {r : Except Error Unit} (out : Prepared p r q) : p.builder.Step r q.builder := by
  cases out with
  | disposed hd => exact .disposed hd
  | ready ready => exact .ready ready.live ready.clean ready.compiled
  | refused hd hdirty hc he => exact .refused hd hdirty (congrArg Option.isSome hc) he
  | built c hd hdue => exact .made hd hdue
  | failed e hd hdue =>
    rw [builder_giveUp]
    exact .failed hd hdue

/-- Being made ready is a step of the machine. -/
theorem step_prepare (p : MaterialPass) (h : Host) :
    p.builder.Step (prepare ⟨p, h⟩).1 (prepare ⟨p, h⟩).2.stage.builder := (prepared_prepare p h).step

section Along

variable {R : Host → Host → Prop} [IsPreorder Host R]

theorem along_build (building : Host.Building R) : Confined (Along R) build :=
  .bind along_get fun _ => .bind (along_report building.report _) fun _ => .bind (.ofExcept _) fun _ =>
    .bind (along_onHost (building.compile _)) fun _ => .pure _

theorem along_rebuild (building : Host.Building R) : Confined (Along R) rebuild := by
  have report (events : List Event) : Confined (Along R) (Staged.report events : Act (Staged MaterialPass) Unit) :=
    along_report building.report events
  refine .bind (along_build building).attempt fun result =>
    .bind (along_modify _) fun _ => .bind along_get fun p => ?_
  cases result with
  | ok compiled =>
    refine .bind (along_modify _) fun _ => ?_
    cases p.compiled with
    | some old =>
      exact .bind (along_release (building.release _)) fun _ => .bind (along_modify _) fun _ => report _
    | none => exact .bind (along_modify _) fun _ => report _
  | error e =>
    refine .ite ?_ ?_
    · exact .bind (report _) fun _ => .bind (along_modify _) fun _ => .fail e
    · exact .bind (report _) fun _ => .bind (along_modify _) fun _ => .bind (along_modify _) fun _ => .fail e

theorem along_prepare (building : Host.Building R) : Confined (Along R) prepare := by
  refine .bind along_get fun p => .ite (.fail _) (.ite (along_rebuild building) ?_)
  cases p.compiled with
  | some compiled => exact .pure ()
  | none =>
    cases p.lastError with
    | some e => exact .fail e
    | none => exact along_rebuild building

end Along

theorem only_prepare : Confined (Only (·.isAboutProgram = true)) prepare := along_prepare Host.building_only

/-- A pass that is ready stays as it is when it is made ready. -/
theorem prepare_of_ready (ready : p.builder.Ready) (h : Host) : prepare ⟨p, h⟩ = (.ok (), ⟨p, h⟩) := by
  have hcompiled : p.compiled.isSome = true := ready.compiled
  obtain ⟨c, hc⟩ := Option.isSome_iff_exists.1 hcompiled
  unfold prepare
  rw [Act.bind_of_ok (Staged.get_apply _), if_neg (by simp [show p.disposed = false from ready.live]),
    if_neg (by simp [show p.dirty = false from ready.clean])]
  dsimp only
  rw [hc]
  rfl

/-- The draw of a pass with a program, at a time and for a size of the output. -/
def drawOf (p : MaterialPass) (c : CompiledMaterial) (io : PassIo) (deltaTime : Binary32) (d : Device) :
    FullscreenDraw :=
  ⟨c.program, packBlock (p.values c deltaTime (io.outputSize d)), some io.input, io.depth, io.output⟩

theorem ready_of_prepare_ok (hp : prepare ⟨p, h⟩ = (.ok (), ⟨q, k⟩)) : q.builder.Ready := by
  have step := step_prepare p h
  rw [hp] at step
  exact step.ready_of_ok

theorem compiled_of_prepare_ok (hp : prepare ⟨p, h⟩ = (.ok (), ⟨q, k⟩)) : ∃ c, q.compiled = some c :=
  Option.isSome_iff_exists.1 (ready_of_prepare_ok hp).compiled

theorem render_of_prepare_error {e : Error} {s : Staged MaterialPass} (hp : prepare ⟨p, h⟩ = (.error e, s))
    (io : PassIo) (deltaTime : Binary32) : render io deltaTime ⟨p, h⟩ = (.error e, s) := by
  unfold render
  rw [Act.bind_of_error hp]

/-- Once it has been made ready, a render lets time pass and draws. -/
theorem render_of_prepare_ok {c : CompiledMaterial} (hp : prepare ⟨p, h⟩ = (.ok (), ⟨q, k⟩))
    (hc : q.compiled = some c) (io : PassIo) (deltaTime : Binary32) :
    render io deltaTime ⟨p, h⟩ =
      let q' := { q with elapsed := q.elapsed + deltaTime }
      let r := Host.drawFullscreen (q'.drawOf c io deltaTime k.device) k
      (r.1, ⟨q', r.2⟩) := by
  unfold render
  rw [Act.bind_of_ok hp]
  obtain ⟨_, _, _, _, compiled, _, _, _, _, _⟩ := q
  cases hc
  rfl

/-- A render of a pass that is ready lets time pass and draws. -/
theorem render_of_ready {c : CompiledMaterial} (ready : p.builder.Ready) (hc : p.compiled = some c) (io : PassIo)
    (deltaTime : Binary32) (h : Host) :
    render io deltaTime ⟨p, h⟩ =
      let p' := { p with elapsed := p.elapsed + deltaTime }
      let r := Host.drawFullscreen (p'.drawOf c io deltaTime h.device) h
      (r.1, ⟨p', r.2⟩) := render_of_prepare_ok (prepare_of_ready ready h) hc io deltaTime

end MaterialPass

/-! ## Passes that have no program -/

theorem ClearPass.noBuildError_render (io : PassIo) : NoBuildError (ClearPass.render io) :=
  .bind noBuildError_get fun _ => .ite (.pure ()) (noBuildError_onHost (Host.noBuildError_clear _ _ _))

theorem ClearPass.stage_render (io : PassIo) (s : Staged ClearPass) : (ClearPass.render io s).2.stage = s.stage := by
  unfold ClearPass.render
  rw [Act.bind_of_ok (Staged.get_apply s)]
  split <;> rfl

theorem ScenePass.noBuildError_render (io : PassIo) : NoBuildError (ScenePass.render io) :=
  .bind noBuildError_get fun _ => noBuildError_onHost (Host.noBuildError_renderScene _)

theorem DepthPass.noBuildError_render : NoBuildError DepthPass.render := by
  refine .bind (noBuildError_modify _) fun _ => .bind noBuildError_get fun p => ?_
  cases p.target with
  | none => exact .fail _
  | some target =>
    exact .bind (noBuildError_onHost (Host.noBuildError_clear _ _ _)) fun _ =>
      .bind (noBuildError_onHost (Host.noBuildError_renderScene _)) fun _ => noBuildError_modify _

/-- A depth pass changes nothing of itself but whether it has run. -/
theorem DepthPass.stage_render (s : Staged DepthPass) :
    ∃ rendered, (DepthPass.render s).2.stage = { s.stage with rendered } := by
  unfold DepthPass.render
  rw [Act.bind_of_ok (Staged.modify_apply _ s), Act.bind_of_ok (Staged.get_apply _)]
  dsimp only
  cases s.stage.target with
  | none => exact ⟨false, rfl⟩
  | some target =>
    dsimp only
    rw [Act.bind_apply, Staged.onHost_apply]
    rcases Host.clear (some target) none (some 1) s.host with ⟨e | u, k⟩
    · exact ⟨false, rfl⟩
    · dsimp only
      rw [Act.bind_apply, Staged.onHost_apply]
      rcases Host.renderScene ⟨s.stage.scene, s.stage.layers, .depth, some target, none⟩ k with ⟨e | u, l⟩
      · exact ⟨false, rfl⟩
      · exact ⟨true, rfl⟩

/-! ## Passes of any kind -/

namespace Pass

variable {p q : Pass} {h k : Host} {io : PassIo} {deltaTime : Binary32}

/-- What of the pass decides how it is made ready; a pass for which nothing is built counts as ready. -/
def builder : Pass → Builder
  | clear p => ⟨p.settings.enabled, false, false, true, none⟩
  | scene p => ⟨p.settings.enabled, false, false, true, none⟩
  | depth p => ⟨p.settings.enabled, false, false, true, none⟩
  | material p => p.builder
  | effect p => p.builder

theorem enabled_builder (p : Pass) : p.builder.enabled = p.isEnabled := by cases p <;> rfl

/-- Being made ready is a step of the machine. -/
theorem step_prepare (p : Pass) (h : Host) :
    p.builder.Step (prepare ⟨p, h⟩).1 (prepare ⟨p, h⟩).2.stage.builder := by
  cases p with
  | clear p => exact .ready rfl rfl rfl
  | scene p => exact .ready rfl rfl rfl
  | depth p => exact .ready rfl rfl rfl
  | material p => exact p.step_prepare h
  | effect p =>
    have step := p.step_commit h
    have hprepare : prepare ⟨.effect p, h⟩ =
        ((EffectPass.commit ⟨p, h⟩).1.map fun _ => (),
          ⟨.effect (EffectPass.commit ⟨p, h⟩).2.stage, (EffectPass.commit ⟨p, h⟩).2.host⟩) := by
      show within .effect p (do let _ ← EffectPass.commit) ⟨.effect p, h⟩ = _
      unfold within
      rw [Act.drop_apply]
    rw [hprepare]
    exact step

theorem step_of_prepare {r : Except Error Unit} {s : Staged Pass} (hp : prepare ⟨p, h⟩ = (r, s)) :
    p.builder.Step r s.stage.builder := by
  have step := step_prepare p h
  rwa [hp] at step

section Along

variable {R : Host → Host → Prop}

theorem along_within {P α : Type} {x : Act (Staged P) α} (wrap : P → Pass) (p : P)
    (hx : Confined (Along R) x) : Confined (Along R) (within wrap p x) := fun s => hx ⟨p, s.host⟩

theorem along_prepare [IsPreorder Host R] (building : Host.Building R) : Confined (Along R) prepare := by
  refine .bind along_get fun p => ?_
  cases p with
  | clear p => exact .pure ()
  | scene p => exact .pure ()
  | depth p => exact .pure ()
  | material p => exact along_within _ p (MaterialPass.along_prepare building)
  | effect p => exact along_within _ p (.bind (EffectPass.along_commit building) fun _ => .pure ())

end Along

/-- While a pass is made ready only programs are made and released. -/
theorem only_prepare : Confined (Only (·.isAboutProgram = true)) prepare := along_prepare Host.building_only

/-- A pass that is ready stays ready in its render, and does not fail for a program. -/
theorem render_of_ready (ready : p.builder.Ready) (io : PassIo) (deltaTime : Binary32) (h : Host) :
    (render io deltaTime ⟨p, h⟩).2.stage.builder = p.builder ∧
      ∀ e, (render io deltaTime ⟨p, h⟩).1 = .error e → e.isBuildError = false := by
  have draw (d : FullscreenDraw) (e : Error) (he : (Host.drawFullscreen d h).1 = .error e) : e.isBuildError = false :=
    Host.noBuildError_drawFullscreen d h e _ (Prod.ext he rfl)
  cases p with
  | clear p =>
    refine ⟨congrArg (fun p => builder (.clear p)) (ClearPass.stage_render io ⟨p, h⟩), fun e he => ?_⟩
    exact ClearPass.noBuildError_render io ⟨p, h⟩ e _ (Prod.ext he rfl)
  | scene p => exact ⟨rfl, fun e he => ScenePass.noBuildError_render io ⟨p, h⟩ e _ (Prod.ext he rfl)⟩
  | depth p =>
    obtain ⟨rendered, hstage⟩ := DepthPass.stage_render ⟨p, h⟩
    refine ⟨?_, fun e he => ?_⟩
    · show builder (.depth (DepthPass.render ⟨p, h⟩).2.stage) = _
      rw [hstage]
      rfl
    · exact DepthPass.noBuildError_render ⟨p, h⟩ e _ (Prod.ext he rfl)
  | material p =>
    have hcompiled : p.compiled.isSome = true := ready.compiled
    obtain ⟨c, hc⟩ := Option.isSome_iff_exists.1 hcompiled
    show builder (.material (MaterialPass.render io deltaTime ⟨p, h⟩).2.stage) = _ ∧
      ∀ e, (MaterialPass.render io deltaTime ⟨p, h⟩).1 = .error e → e.isBuildError = false
    rw [MaterialPass.render_of_ready ready hc]
    exact ⟨rfl, draw _⟩
  | effect p =>
    obtain ⟨c, kept⟩ := EffectPass.kept_of_ready ready
    show builder (.effect (EffectPass.render io deltaTime ⟨p, h⟩).2.stage) = _ ∧
      ∀ e, (EffectPass.render io deltaTime ⟨p, h⟩).1 = .error e → e.isBuildError = false
    rw [kept.render_eq]
    exact ⟨rfl, draw _⟩

end Pass

end ScreenFusion
