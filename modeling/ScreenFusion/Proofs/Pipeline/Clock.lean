import ScreenFusion.Proofs.Pipeline.Stall

/-!
# ScreenFusion.Proofs.Pipeline.Clock — what a frame that fails leaves of the pipeline

A frame keeps the buffers only when it is over, but lets time pass before it runs its first pass.  So a frame that fails
leaves the pipeline as it is but for its passes, if it has not begun; if it has, time has passed.

* `begins`: whether a frame comes to running passes.
* `Runs.split_of_error`, `Stopped`: the pass at which a frame that has begun fails.
* `elapsed_render`, `elapsed_frames`: the time after a frame, and after any number of frames.
* `elapsed_of_failure_iff`: what a frame that fails leaves.
-/

namespace ScreenFusion.Pipeline

variable {deltaTime : Binary32} {depthNeeded : Bool} {f : FrameState} {h k : Host} {es es' : List PipelineEntry}
  {s t : Staged Pipeline} {e : Error}

/-! ## Frames that begin -/

/-- Whether the next frame comes to running passes: the pipeline is live, and all passes become ready. -/
def begins (s : Staged Pipeline) : Bool := !s.stage.isDisposed && (firstRefusal? s.stage.entries s.host).isNone

theorem begins_of_disposed (hb : s.stage.buffers = none) : begins s = false := by
  simp [begins, isDisposed, hb]

theorem begins_of_prepare_error {r : List PipelineEntry × Host}
    (hp : prepareEntries s.stage.entries s.host = (.error e, r)) : begins s = false := by
  have houtcome := (readies_prepareEntries s.stage.entries s.host).outcome_eq
  rw [hp] at houtcome
  cases hrefusal : firstRefusal? s.stage.entries s.host with
  | none =>
    rw [hrefusal] at houtcome
    cases houtcome
  | some refusal => simp [begins, hrefusal]

theorem begins_of_prepare_ok {buffers : Nat × Nat} {r : List PipelineEntry × Host}
    (hb : s.stage.buffers = some buffers) (hp : prepareEntries s.stage.entries s.host = (.ok (), r)) :
    begins s = true := by
  have houtcome := (readies_prepareEntries s.stage.entries s.host).outcome_eq
  rw [hp] at houtcome
  cases hrefusal : firstRefusal? s.stage.entries s.host with
  | none => simp [begins, isDisposed, hb, hrefusal]
  | some refusal =>
    rw [hrefusal] at houtcome
    cases houtcome

/-- Time passes in a frame exactly if it begins, however it ends. -/
theorem elapsed_render (deltaTime : Binary32) (s : Staged Pipeline) :
    (render deltaTime s).2.stage.elapsed = if begins s then s.stage.elapsed + deltaTime else s.stage.elapsed := by
  rw [render_eq]
  cases hb : s.stage.buffers with
  | none => rw [begins_of_disposed hb, if_neg Bool.false_ne_true]
  | some buffers =>
    obtain ⟨read, write⟩ := buffers
    dsimp only
    rcases hp : prepareEntries s.stage.entries s.host with ⟨err | _, ready, host⟩
    · rw [begins_of_prepare_error hp, if_neg Bool.false_ne_true]
    · rw [begins_of_prepare_ok hb hp, if_pos rfl]
      dsimp only
      rcases runEntries deltaTime (ready.any needsDepth) ready ⟨read, write, none, false⟩ host with ⟨err | f, entries, k⟩ <;>
        rfl

/-- The time after any number of frames is the sum over those that have begun. -/
theorem elapsed_frames (deltaTimes : List Binary32) (s : Staged Pipeline) :
    (frames deltaTimes s).2.stage.elapsed =
      (((starts deltaTimes s).zip deltaTimes).filter fun frame => begins frame.1).foldl
        (fun elapsed frame => elapsed + frame.2) s.stage.elapsed := by
  induction deltaTimes generalizing s with
  | nil => rfl
  | cons deltaTime rest ih =>
    have hstep := elapsed_render deltaTime s
    let began (frame : Staged Pipeline × Binary32) : Bool := begins frame.1
    have hrest := ih (render deltaTime s).2
    rw [hstep] at hrest
    rw [frames_cons, starts_cons, List.zip_cons_cons]
    by_cases hs : begins s = true
    · rw [if_pos hs] at hrest
      rw [List.filter_cons_of_pos (p := began) hs, List.foldl_cons]
      exact hrest
    · rw [if_neg hs] at hrest
      rw [List.filter_cons_of_neg (p := began) hs]
      exact hrest

/-! ## Frames that fail -/

/-- Passes that are run up to one that fails: those before it have their numbers, and those after it are as they were. -/
theorem Runs.split_of_error (runs : Runs deltaTime depthNeeded es f h (.error e) es' k) :
    ∃ before entry after before' io start u, es = before ++ entry :: after ∧
      es' = before' ++ { entry with pass := u.stage } :: after ∧
      before'.map PipelineEntry.id = before.map PipelineEntry.id ∧ entry.pass.isEnabled = true ∧
      Pass.render io deltaTime ⟨entry.pass, start⟩ = (.error e, u) ∧ k = u.host := by
  generalize hr : (.error e : Except Error FrameState) = r at runs
  induction runs with
  | nil => cases hr
  | @next entry _ _ _ _ _ _ _ s _ _ ih =>
    obtain ⟨before, failing, after, before', io, start, u, rfl, rfl, hids, henabled, hrender, hk⟩ := ih hr
    refine ⟨entry :: before, failing, after, { entry with pass := s.stage } :: before', io, start, u, rfl, rfl, ?_,
      henabled, hrender, hk⟩
    rw [List.map_cons, List.map_cons, hids]
  | @failed entry after _ _ _ u outcome =>
    cases hr
    cases outcome with
    | failed henabled hrender => exact ⟨[], entry, after, [], _, _, u, rfl, rfl, rfl, henabled, hrender, rfl⟩

/-- A frame has failed at a pass after all were made ready: the passes before it have been run, and those after it have
not. -/
def Stopped (deltaTime : Binary32) (s : Staged Pipeline) (e : Error) (t : Staged Pipeline) : Prop :=
  ∃ before entry after before' io start u, List.Forall₂ MadeReady s.stage.entries (before ++ entry :: after) ∧
    entry.pass.isEnabled = true ∧ Pass.render io deltaTime ⟨entry.pass, start⟩ = (.error e, u) ∧
    t.stage.entries = before' ++ { entry with pass := u.stage } :: after ∧ t.host = u.host

theorem MadeReady.id_eq {a b : PipelineEntry} (m : MadeReady a b) : b.id = a.id := by
  cases m <;> rfl

/-- A frame that fails leaves of the pipeline all but its passes and its time.  The time is as it was exactly if the
frame has not begun, or its own time adds nothing.  A frame that has begun fails for a resource, at a pass that is run. -/
theorem elapsed_of_failure_iff (hr : render deltaTime s = (.error e, t)) :
    t.stage = { s.stage with entries := t.stage.entries, elapsed := t.stage.elapsed } ∧
    t.stage.entries.map PipelineEntry.id = s.stage.entries.map PipelineEntry.id ∧
    (t.stage.elapsed = s.stage.elapsed ↔ begins s = false ∨ s.stage.elapsed + deltaTime = s.stage.elapsed) ∧
    (begins s = true →
      t.stage.elapsed = s.stage.elapsed + deltaTime ∧ e.isBuildError = false ∧ Stopped deltaTime s e t) := by
  have helapsed := elapsed_render deltaTime s
  rw [hr] at helapsed
  -- the time, by whether the frame has begun; the rest, by where it has failed
  suffices hrest : t.stage = { s.stage with entries := t.stage.entries, elapsed := t.stage.elapsed } ∧
      t.stage.entries.map PipelineEntry.id = s.stage.entries.map PipelineEntry.id ∧
      (begins s = true → e.isBuildError = false ∧ Stopped deltaTime s e t) by
    obtain ⟨hkept, hids, hstopped⟩ := hrest
    dsimp only at helapsed
    cases hbegins : begins s with
    | false =>
      rw [hbegins, if_neg Bool.false_ne_true] at helapsed
      exact ⟨hkept, hids, ⟨fun _ => .inl rfl, fun _ => helapsed⟩, nofun⟩
    | true =>
      rw [hbegins, if_pos rfl] at helapsed
      refine ⟨hkept, hids, ?_, fun _ => ⟨helapsed, hstopped hbegins⟩⟩
      rw [helapsed]
      exact ⟨.inr, fun hor => hor.resolve_left Bool.true_eq_false.mp⟩
  rw [render_eq] at hr
  cases hb : s.stage.buffers with
  | none =>
    rw [hb] at hr
    cases hr
    exact ⟨rfl, rfl, fun hbegins => absurd (begins_of_disposed hb ▸ hbegins) Bool.false_ne_true⟩
  | some buffers =>
    obtain ⟨read, write⟩ := buffers
    rw [hb] at hr
    dsimp only at hr
    rcases hp : prepareEntries s.stage.entries s.host with ⟨err | _, ready, host⟩ <;> rw [hp] at hr
    · cases hr
      have hids := (traversed_prepareEntries s.stage.entries s.host).ids
      rw [hp] at hids
      exact ⟨rfl, hids, fun hbegins => absurd (begins_of_prepare_error hp ▸ hbegins) Bool.false_ne_true⟩
    · have made := (readies_of_prepareEntries hp).madeReady
      have hids := map_of_madeReady (fun _ _ m => m.id_eq) made
      dsimp only at hr
      rcases hrun : runEntries deltaTime (ready.any needsDepth) ready ⟨read, write, none, false⟩ host with
        ⟨err | f, entries, k⟩ <;> rw [hrun] at hr
      · cases hr
        have runs := runs_of_runEntries hrun
        have hno := runs.noBuildError (readyToRun_of_madeReady made)
        obtain ⟨before, entry, after, before', io, start, u, rfl, rfl, hbefore, henabled, hrender, hk⟩ :=
          runs.split_of_error
        refine ⟨rfl, ?_, fun _ => ⟨hno, before, entry, after, before', io, start, u, made, henabled, hrender, rfl, hk⟩⟩
        rw [← hids, List.map_append, List.map_append, hbefore, List.map_cons, List.map_cons]
      · cases hr

/-- A pipeline whose only pass draws a scene that there is not. -/
def sceneless : Staged Pipeline := withPasses [.scene (ScenePass.create 7)]

/-- One second. -/
def second : Binary32 := ⟨0x3f800000⟩

/-- A frame that cannot draw its scene has begun. -/
theorem elapsed_of_failure_sceneless : ∃ e t, render second sceneless = (.error e, t) ∧ e.isBuildError = false ∧
    t.stage.elapsed = sceneless.stage.elapsed + second ∧ t.stage.buffers = sceneless.stage.buffers := by
  have hfails : (render second sceneless).1.toOption.isSome = false := by decide +kernel
  have hbegins : begins sceneless = true := by decide +kernel
  rcases hr : render second sceneless with ⟨e | _, t⟩ <;> rw [hr] at hfails
  · obtain ⟨hkept, -, -, hstopped⟩ := elapsed_of_failure_iff hr
    obtain ⟨helapsed, hno, -⟩ := hstopped hbegins
    have hbuffers : t.stage.buffers = sceneless.stage.buffers := by rw [hkept]
    exact ⟨e, t, rfl, hno, helapsed, hbuffers⟩
  · cases hfails

/-- A second has passed for the pipeline in a frame that has failed. -/
theorem sceneless_ages : ∃ e t, render second sceneless = (.error e, t) ∧ sceneless.stage.elapsed = .zero ∧
    t.stage.elapsed = second ∧ second ≠ .zero := by
  have hfails : (render second sceneless).1.toOption.isSome = false := by decide +kernel
  have hbefore : sceneless.stage.elapsed = .zero := by decide +kernel
  have hafter : (render second sceneless).2.stage.elapsed = second := by decide +kernel
  rcases hr : render second sceneless with ⟨e | _, t⟩ <;> rw [hr] at hfails hafter
  · exact ⟨e, t, rfl, hbefore, hafter, by decide⟩
  · cases hfails

end ScreenFusion.Pipeline
