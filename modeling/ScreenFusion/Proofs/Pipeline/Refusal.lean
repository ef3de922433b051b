import ScreenFusion.Proofs.Pass.Builder
import ScreenFusion.Proofs.Pipeline.Conservation
import ScreenFusion.Proofs.Pipeline.Turn

/-!
# ScreenFusion.Proofs.Pipeline.Refusal — no frame starts on a program that cannot be had

A frame makes all passes ready before it runs any.  Passes that are ready do not build in their renders, so a frame
that fails for a configuration or a program has failed before it started: nothing has been drawn, no time has passed,
and only the programs of earlier passes and the accounts of the one that failed have changed.

* `Pass.Rebuilt`, `Pass.Refused`: what a pass is after it has been made ready, and after that has failed.
* `ReadyToRun`, `Runs.noBuildError`: once all are ready, no render fails for a program.
* `unstarted_of_buildError`: what a frame that fails for a configuration or a program leaves.
-/

namespace ScreenFusion

variable {h k : Host} {e : Error}

/-! ## One pass -/

namespace Pass

variable {p q : Pass}

/-- The time of the frames in which the pass has run, if it runs a program. -/
def clock : Pass → Option Binary32
  | material p => some p.elapsed
  | effect p => some p.elapsed
  | _ => none

/-- The second pass is the first with the program that it needs, which may be the one that it had: at most the program,
its version, the marks of changes and the kept error are others. -/
inductive Rebuilt : Pass → Pass → Prop where
  | same (p : Pass) : Rebuilt p p
  | effect (p : EffectPass) (compiled : Option CompiledEffects) (programVersion : Nat) :
      Rebuilt (.effect p) (.effect { p.acknowledgeAll with compiled, programVersion, lastError := none })
  | material (p : MaterialPass) (c : CompiledMaterial) : Rebuilt (.material p) (.material (p.adopt c))

/-- The second pass is the first after it has failed for a program: as it was, if it gives the error again that it
keeps, or without the marks of changes, with the error, and disabled if it has no program. -/
inductive Refused (e : Error) : Pass → Pass → Prop where
  | effectAgain {p : EffectPass} : p.lastError = some e → Refused e (.effect p) (.effect p)
  | effect (p : EffectPass) : Refused e (.effect p) (.effect (p.giveUp e))
  | materialAgain {p : MaterialPass} : p.lastError = some e → Refused e (.material p) (.material p)
  | material (p : MaterialPass) : Refused e (.material p) (.material (p.giveUp e))

theorem Rebuilt.clock_eq (r : Rebuilt p q) : q.clock = p.clock := by
  cases r <;> rfl

theorem Refused.clock_eq (r : Refused e p q) : q.clock = p.clock := by
  cases r <;> rfl

theorem Rebuilt.settings_eq (r : Rebuilt p q) : q.settings = p.settings := by
  cases r <;> rfl

theorem rebuilt_of_prepare_ok (hp : prepare ⟨p, h⟩ = (.ok (), ⟨q, k⟩)) : Rebuilt p q := by
  cases p with
  | clear p =>
    cases hp
    exact .same _
  | scene p =>
    cases hp
    exact .same _
  | depth p =>
    cases hp
    exact .same _
  | material p =>
    have out := MaterialPass.prepared_prepare p h
    rcases hr : MaterialPass.prepare ⟨p, h⟩ with ⟨r, p', k'⟩
    have hp : within .material p MaterialPass.prepare ⟨.material p, h⟩ = (.ok (), ⟨q, k⟩) := hp
    unfold within at hp
    rw [hr] at hp out
    cases hp
    cases out with
    | ready _ => exact .same _
    | built c _ _ => exact .material p c
  | effect p =>
    obtain ⟨b, p', k', hc, hs⟩ := Pipeline.prepare_effect_of_ok hp
    cases hs
    cases EffectPass.outcome_of_commit hc with
    | clean _ _ _ => exact .same _
    | takenBack _ _ _ _ => exact .effect p p.compiled p.programVersion
    | @built c _ _ _ _ => exact .effect p (some c) (p.programVersion + 1)

theorem refused_of_prepare_error (hp : prepare ⟨p, h⟩ = (.error e, ⟨q, k⟩)) (he : e.isBuildError = true) :
    Refused e p q := by
  cases p with
  | clear p => cases hp
  | scene p => cases hp
  | depth p => cases hp
  | material p =>
    have out := MaterialPass.prepared_prepare p h
    rcases hr : MaterialPass.prepare ⟨p, h⟩ with ⟨r, p', k'⟩
    have hp : within .material p MaterialPass.prepare ⟨.material p, h⟩ = (.error e, ⟨q, k⟩) := hp
    unfold within at hp
    rw [hr] at hp out
    cases hp
    dsimp only at out
    cases out with
    | disposed _ => cases he
    | refused _ _ _ hlast => exact .materialAgain hlast
    | failed _ _ _ => exact .material p
  | effect p =>
    have out := EffectPass.commit_outcome p h
    rcases hr : EffectPass.commit ⟨p, h⟩ with ⟨r, p', k'⟩
    have hp : within .effect p (do let _ ← EffectPass.commit) ⟨.effect p, h⟩ = (.error e, ⟨q, k⟩) := hp
    unfold within at hp
    rw [Act.drop_apply, hr] at hp
    rw [hr] at out
    cases r with
    | ok b => cases hp
    | error e' =>
      cases hp
      dsimp only at out
      cases out with
      | disposed _ => cases he
      | failedBefore _ _ _ hlast => exact .effectAgain hlast
      | failed _ _ _ => exact .effect p

end Pass

namespace Pipeline

variable {es es' : List PipelineEntry} {deltaTime : Binary32} {depthNeeded last : Bool} {f : FrameState}
  {r : Except Error Unit}

/-! ## Making passes ready -/

/-- What an entry is after passes have been made ready in order, if they came to it and it did not fail. -/
inductive MadeReady : PipelineEntry → PipelineEntry → Prop where
  | disabled {e : PipelineEntry} : e.pass.isEnabled = false → MadeReady e e
  | ready {e : PipelineEntry} {q : Pass} : e.pass.isEnabled = true → e.pass.Rebuilt q → q.builder.Ready →
      MadeReady e { e with pass := q }

theorem MadeReady.clock_eq {e e' : PipelineEntry} (m : MadeReady e e') : e'.pass.clock = e.pass.clock := by
  cases m with
  | disabled _ => rfl
  | ready _ rebuilt _ => exact rebuilt.clock_eq

theorem madeReady_of_prepare_ok {e : PipelineEntry} {s : Staged Pass} (he : e.pass.isEnabled = true)
    (hp : Pass.prepare ⟨e.pass, h⟩ = (.ok (), s)) : MadeReady e { e with pass := s.stage } :=
  .ready he (Pass.rebuilt_of_prepare_ok hp) (Pass.step_of_prepare hp).ready_of_ok

theorem Readies.madeReady (readies : Readies es h (.ok ()) es' k) : List.Forall₂ MadeReady es es' := by
  generalize hr : (.ok () : Except Error Unit) = r at readies
  induction readies with
  | nil => exact .nil
  | skip he _ ih => exact .cons (.disabled he) (ih hr)
  | ready he hp _ ih => exact .cons (madeReady_of_prepare_ok he hp) (ih hr)
  | refused _ _ => cases hr

/-- Passes that are made ready up to one that fails: those before it are ready, and those after it are as they were. -/
theorem Readies.split_of_error (readies : Readies es h (.error e) es' k) :
    ∃ before entry after before' host s, es = before ++ entry :: after ∧
      es' = before' ++ { entry with pass := s.stage } :: after ∧ List.Forall₂ MadeReady before before' ∧
      entry.pass.isEnabled = true ∧ Pass.prepare ⟨entry.pass, host⟩ = (.error e, s) := by
  generalize hr : (.error e : Except Error Unit) = r at readies
  induction readies with
  | nil => cases hr
  | @skip entry _ _ _ _ _ he _ ih =>
    obtain ⟨before, failing, after, before', host, s, rfl, rfl, made, henabled, hp⟩ := ih hr
    exact ⟨entry :: before, failing, after, entry :: before', host, s, rfl, rfl, .cons (.disabled he) made,
      henabled, hp⟩
  | @ready entry _ _ _ _ _ _ he hp _ ih =>
    obtain ⟨before, failing, after, before', host, s, rfl, rfl, made, henabled, hfail⟩ := ih hr
    exact ⟨entry :: before, failing, after, _ :: before', host, s, rfl, rfl, .cons (madeReady_of_prepare_ok he hp) made,
      henabled, hfail⟩
  | @refused entry after _ _ _ he hp =>
    cases hr
    exact ⟨[], entry, after, [], _, _, rfl, rfl, .nil, he, hp⟩

theorem Readies.only (readies : Readies es h r es' k) : h.Only (·.isAboutProgram = true) k := by
  induction readies with
  | nil => exact .refl _
  | skip _ _ ih => exact ih
  | @ready e _ _ h _ _ _ _ hp _ ih =>
    have hpass := Pass.only_prepare ⟨e.pass, h⟩
    rw [hp] at hpass
    exact Host.Only.trans hpass ih
  | @refused e _ h _ _ _ hp =>
    have hpass := Pass.only_prepare ⟨e.pass, h⟩
    rw [hp] at hpass
    exact hpass

/-- The screen and the buffers are as before. -/
theorem Readies.plane_eq {r : Except Error Unit} (readies : Readies es h r es' k) (b : Option Nat) :
    k.device.plane b = h.device.plane b := by
  refine readies.only.planes b fun c hc => ?_
  rw [Command.buffer?_of_isAboutProgram hc]
  nofun

/-! ## Running passes that are ready -/

/-- The enabled passes are ready. -/
def ReadyToRun (es : List PipelineEntry) : Prop := ∀ e ∈ es, e.pass.isEnabled = true → e.pass.builder.Ready

theorem readyToRun_of_madeReady (made : List.Forall₂ MadeReady es es') : ReadyToRun es' := by
  induction made with
  | nil => exact fun e he => absurd he List.not_mem_nil
  | cons m _ ih =>
    intro e he henabled
    rcases List.mem_cons.1 he with rfl | he
    · cases m with
      | disabled hdisabled =>
        rw [hdisabled] at henabled
        cases henabled
      | ready _ _ ready => exact ready
    · exact ih e he henabled

/-- A pass that is ready if it is enabled stays so when it is run, and does not fail for a program. -/
theorem RunOutcome.of_ready {p : Pass} {result : Except Error FrameState} {s : Staged Pass}
    (outcome : RunOutcome deltaTime depthNeeded last f p h result s) (ready : p.isEnabled = true → p.builder.Ready) :
    s.stage.builder = p.builder ∧ ∀ e, result = .error e → e.isBuildError = false := by
  have hrender {io : PassIo} {k : Host} {r : Except Error Unit} {s : Staged Pass} (henabled : p.isEnabled = true)
      (hr : Pass.render io deltaTime ⟨p, k⟩ = (r, s)) :
      s.stage.builder = p.builder ∧ ∀ e, r = .error e → e.isBuildError = false := by
    have hready := Pass.render_of_ready (ready henabled) io deltaTime k
    rwa [hr] at hready
  cases outcome with
  | skipped _ => exact ⟨rfl, nofun⟩
  | depth henabled _ _ _ hr => exact ⟨(hrender henabled hr).1, nofun⟩
  | color henabled _ hr => exact ⟨(hrender henabled hr).1, nofun⟩
  | failed henabled hr =>
    obtain ⟨hsame, hfail⟩ := hrender henabled hr
    refine ⟨hsame, ?_⟩
    rintro e ⟨⟩
    exact hfail _ rfl

theorem Runs.noBuildError (runs : Runs deltaTime depthNeeded es f h (.error e) es' k) (ready : ReadyToRun es) :
    e.isBuildError = false := by
  generalize hr : (.error e : Except Error FrameState) = r at runs
  induction runs with
  | nil => cases hr
  | next _ _ ih => exact ih (fun e he => ready e (List.mem_cons_of_mem _ he)) hr
  | @failed entry _ _ _ _ _ outcome => exact (outcome.of_ready (ready entry List.mem_cons_self)).2 e hr.symm

/-! ## Frames -/

/-- What making an entry ready does not change is not changed in a list of them. -/
theorem map_of_madeReady {α : Type} {g : PipelineEntry → α} (hg : ∀ e e', MadeReady e e' → g e' = g e)
    (made : List.Forall₂ MadeReady es es') : es'.map g = es.map g := by
  induction made with
  | nil => rfl
  | cons m _ ih => rw [List.map_cons, List.map_cons, hg _ _ m, ih]

/-- A frame that fails for a configuration or a program has failed while passes were made ready. -/
theorem prepareEntries_of_buildError {s t : Staged Pipeline} (hr : render deltaTime s = (.error e, t))
    (he : e.isBuildError = true) :
    s.stage.isDisposed = false ∧ ∃ entries host, prepareEntries s.stage.entries s.host = (.error e, entries, host) ∧
      t = ⟨{ s.stage with entries }, host⟩ := by
  rw [render_eq] at hr
  cases hb : s.stage.buffers with
  | none =>
    rw [hb] at hr
    cases hr
    cases he
  | some buffers =>
    obtain ⟨read, write⟩ := buffers
    rw [hb] at hr
    dsimp only at hr
    rcases hp : prepareEntries s.stage.entries s.host with ⟨error | _, ready, host⟩ <;> rw [hp] at hr
    · cases hr
      exact ⟨isDisposed_of_some hb, ready, host, rfl, rfl⟩
    · have hready := readyToRun_of_madeReady (readies_of_prepareEntries hp).madeReady
      dsimp only at hr
      rcases hrun : runEntries deltaTime (ready.any needsDepth) ready ⟨read, write, none, false⟩ host with
        ⟨error | f, entries, k⟩ <;> rw [hrun] at hr
      · cases hr
        have hno := (runs_of_runEntries hrun).noBuildError hready
        rw [he] at hno
        cases hno
      · cases hr

/-- A frame that fails for a configuration or a program has given the device no command but to make and release
programs, so that the screen and every buffer are as before.  The pipeline is as before but for its passes: the one
that failed is enabled and has kept its account of that, those before it have been made ready, those after it have not
been touched, and no clock has moved. -/
theorem unstarted_of_buildError {s t : Staged Pipeline} (hr : render deltaTime s = (.error e, t))
    (he : e.isBuildError = true) :
    (∀ c ∈ s.host.issuedSince t.host, c.command.isAboutProgram = true) ∧
    (∀ b, t.host.device.plane b = s.host.device.plane b) ∧
    t.stage.entries.map (·.pass.clock) = s.stage.entries.map (·.pass.clock) ∧
    ∃ before entry after before' q, s.stage.entries = before ++ entry :: after ∧
      t.stage = { s.stage with entries := before' ++ { entry with pass := q } :: after } ∧
      List.Forall₂ MadeReady before before' ∧ entry.pass.isEnabled = true ∧ entry.pass.Refused e q := by
  obtain ⟨-, entries, host, hp, rfl⟩ := prepareEntries_of_buildError hr he
  have readies := readies_of_prepareEntries hp
  obtain ⟨before, entry, after, before', _, ⟨q, _⟩, hes, rfl, made, henabled, hrefused⟩ := readies.split_of_error
  have refused := Pass.refused_of_prepare_error hrefused he
  refine ⟨readies.only.issuedSince, fun b => readies.only.planes b fun c hc => ?_, ?_, ?_⟩
  · rw [Command.buffer?_of_isAboutProgram hc]
    exact nofun
  · show (before' ++ { entry with pass := q } :: after).map (·.pass.clock) = _
    rw [hes, List.map_append, List.map_append, map_of_madeReady (fun _ _ m => m.clock_eq) made, List.map_cons,
      List.map_cons, refused.clock_eq]
  · exact ⟨before, entry, after, before', q, hes, rfl, made, henabled, refused⟩

/-- A material of which no program can be made. -/
def unfinished : Material := Material.create "unfinished" "fn main_image"

/-- A new pipeline with passes. -/
def withPasses (passes : List Pass) : Staged Pipeline :=
  match unborn with
  | (.ok p, h) => after (passes.map fun pass => .addPass pass none) ⟨p, h⟩
  | (.error _, h) => ⟨default, h⟩

theorem after_addPasses {Q : Staged Pipeline → Prop} {passes : List Pass} {s : Staged Pipeline}
    (hadd : ∀ pass ∈ passes, ∀ s, Q s → Q (addPass pass none s).2) (hs : Q s) :
    Q (after (passes.map fun pass => .addPass pass none) s) := by
  induction passes generalizing s with
  | nil => exact hs
  | cons pass passes ih =>
    obtain ⟨hhead, htail⟩ := List.forall_mem_cons.1 hadd
    exact ih htail (hhead s hs)

/-- What holds of a new pipeline and is kept when passes join it holds of a new pipeline with the passes. -/
theorem withPasses_induction {Q : Staged Pipeline → Prop} {passes : List Pass}
    (hnew : ∀ p h, unborn = (.ok p, h) → Q ⟨p, h⟩)
    (hadd : ∀ pass ∈ passes, ∀ s, Q s → Q (addPass pass none s).2) : Q (withPasses passes) := by
  have hmade : unborn.1.toOption.isSome = true := by decide +kernel
  unfold withPasses
  rcases hc : unborn with ⟨e | p, h⟩ <;> rw [hc] at hmade
  · cases hmade
  · exact after_addPasses hadd (hnew p h hc)

/-- A pass that can be built, before one that cannot. -/
def halfFinished : Staged Pipeline :=
  withPasses [.material (MaterialPass.create fog), .material (MaterialPass.create unfinished)]

/-- A frame of a pass that can be built before one that cannot makes a program and draws nothing. -/
theorem unstarted_halfFinished : ∃ e t, render .zero halfFinished = (.error e, t) ∧ e.isBuildError = true ∧
    (∀ c ∈ halfFinished.host.issuedSince t.host, c.command.isAboutProgram = true) ∧
    t.host.device.programs.keys.length = 1 := by
  have hfails : (match render .zero halfFinished with
      | (.error e, t) => e.isBuildError && t.host.device.programs.keys.length == 1
      | (.ok _, _) => false) = true := by decide +kernel
  rcases hr : render .zero halfFinished with ⟨e | _, t⟩ <;> rw [hr] at hfails
  · obtain ⟨he, hprograms⟩ := Bool.and_eq_true_iff.1 hfails
    exact ⟨e, t, rfl, he, (unstarted_of_buildError hr he).1, by simpa using hprograms⟩
  · cases hfails

end Pipeline

end ScreenFusion
