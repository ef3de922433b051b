import ScreenFusion.Proofs.Pipeline.Fused
import ScreenFusion.Proofs.Pipeline.Holdings

/-!
# ScreenFusion.Proofs.Pipeline.Turn — what a frame does, pass by pass

A frame makes the passes ready and then runs them in order.  A pass that is run is passed over, fills the frame's depth,
draws colours and perhaps hands the buffers on, or fails.  The renders of a frame that succeeds are its turns.

* `RunOutcome`, `run_outcome`: what running a pass can do.
* `Runs`, `runs_runEntries`: what running passes in order can do.
* `Turn`, `Plays`: the turns of passes that are run in order, with what each sees and where it starts.
* `Runs.plays`: passes that run without failing play turns.
* `Readies`, `readies_prepareEntries`: what making passes ready can do.
* `render_eq`, `turns_of_render_ok`, `Performs`: a frame, and the turns of one that succeeds.
-/

namespace ScreenFusion.Pipeline

variable {deltaTime : Binary32} {depthNeeded last : Bool} {f f' : FrameState} {p : Pass} {h k : Host}
  {es es' : List PipelineEntry}

/-! ## One pass -/

/-- The frame after a pass that has drawn colours. -/
def handOn (p : Pass) (terminal : Bool) (f : FrameState) : FrameState :=
  if p.settings.needsSwap && !terminal then { f with read := f.write, write := f.read } else f

/-- What a pass that draws colours sees. -/
def colorIo (terminal : Bool) (f : FrameState) : PassIo := ⟨f.read, if terminal then none else some f.write, f.depth⟩

/-- Whether a pass is passed over: it is disabled, or no depth is needed from it. -/
def Skipped (depthNeeded : Bool) (f : FrameState) (p : Pass) : Prop :=
  p.isEnabled = false ∨ p.isDepthProducer = true ∧ (depthNeeded = false ∨ f.depthRendered = true)

/-- The ways in which running a pass of a frame can end: its result, the pass and the host. -/
inductive RunOutcome (deltaTime : Binary32) (depthNeeded last : Bool) (f : FrameState) (p : Pass) (h : Host) :
    Except Error FrameState → Staged Pass → Prop where
  | skipped {events : List Event} : Skipped depthNeeded f p →
      RunOutcome deltaTime depthNeeded last f p h (.ok f) ⟨p, h.report events⟩
  | depth {s : Staged Pass} {events : List Event} : p.isEnabled = true → p.isDepthProducer = true →
      depthNeeded = true → f.depthRendered = false →
      Pass.render ⟨f.read, some f.write, none⟩ deltaTime ⟨p, h⟩ = (.ok (), s) →
      RunOutcome deltaTime depthNeeded last f p h
        (.ok { f with depth := s.stage.depthOutput, depthRendered := true }) ⟨s.stage, s.host.report events⟩
  | color {s : Staged Pass} {before after : List Event} : p.isEnabled = true → p.isDepthProducer = false →
      Pass.render (colorIo (p.settings.toScreen || last) f) deltaTime ⟨p, h.report before⟩ = (.ok (), s) →
      RunOutcome deltaTime depthNeeded last f p h (.ok (handOn p (p.settings.toScreen || last) f))
        ⟨s.stage, s.host.report after⟩
  | failed {io : PassIo} {s : Staged Pass} {events : List Event} {e : Error} : p.isEnabled = true →
      Pass.render io deltaTime ⟨p, h.report events⟩ = (.error e, s) →
      RunOutcome deltaTime depthNeeded last f p h (.error e) s

theorem depth_outcome (henabled : p.isEnabled = true) (hdepth : p.isDepthProducer = true) :
    RunOutcome deltaTime depthNeeded last f p h (runDepth deltaTime depthNeeded f ⟨p, h⟩).1
      (runDepth deltaTime depthNeeded f ⟨p, h⟩).2 := by
  unfold runDepth
  rw [Act.bind_of_ok (Staged.get_apply _)]
  dsimp only
  by_cases hskip : (!depthNeeded || f.depthRendered) = true
  · rw [if_pos hskip]
    refine .skipped (.inr ⟨hdepth, ?_⟩)
    rwa [Bool.or_eq_true, Bool.not_eq_true'] at hskip
  · rw [if_neg hskip]
    rw [Bool.or_eq_true, not_or, Bool.not_eq_true', Bool.not_eq_false, Bool.not_eq_true] at hskip
    rcases hr : Pass.render ⟨f.read, some f.write, none⟩ deltaTime ⟨p, h⟩ with ⟨e | u, s⟩
    · rw [Act.bind_of_error hr]
      rw [← Host.report_nil h] at hr
      exact .failed henabled hr
    · rw [Act.bind_of_ok hr]
      exact .depth henabled hdepth hskip.1 hskip.2 hr

theorem color_outcome (henabled : p.isEnabled = true) (hdepth : p.isDepthProducer = false) :
    RunOutcome deltaTime depthNeeded last f p h (runColor deltaTime last f ⟨p, h⟩).1
      (runColor deltaTime last f ⟨p, h⟩).2 := by
  unfold runColor
  rw [Act.bind_of_ok (Staged.get_apply _)]
  dsimp only
  rw [report_if_bind]
  dsimp only
  rcases hr : Pass.render (colorIo (p.settings.toScreen || last) f) deltaTime
      ⟨p, h.report (if (f.depth.isNone && p.attributes.readsDepth) = true then [.depthMissing p.name] else [])⟩ with
    ⟨e | u, s⟩
  · unfold colorIo at hr
    rw [Act.bind_of_error hr]
    exact .failed henabled hr
  · have outcome (events : List Event) : RunOutcome deltaTime depthNeeded last f p h
        (.ok (handOn p (p.settings.toScreen || last) f)) ⟨s.stage, s.host.report events⟩ := .color henabled hdepth hr
    unfold handOn at outcome
    unfold colorIo at hr
    rw [Act.bind_of_ok hr, Act.bind_of_ok (Staged.report_apply _ _)]
    by_cases hswap : (p.settings.needsSwap && !(p.settings.toScreen || last)) = true
    · rw [if_pos hswap] at outcome ⊢
      have outcome := outcome ([.passRendered p.name (p.settings.toScreen || last)] ++ [.buffersSwapped])
      rw [← Host.report_report] at outcome
      exact outcome
    · rw [if_neg hswap] at outcome ⊢
      exact outcome _

/-- Running a pass ends in one of these ways. -/
theorem run_outcome (deltaTime : Binary32) (depthNeeded last : Bool) (f : FrameState) (p : Pass) (h : Host) :
    RunOutcome deltaTime depthNeeded last f p h (runPass deltaTime depthNeeded last f ⟨p, h⟩).1
      (runPass deltaTime depthNeeded last f ⟨p, h⟩).2 := by
  by_cases henabled : p.isEnabled = true
  · unfold runPass
    rw [Act.bind_of_ok (Staged.get_apply _)]
    dsimp only
    rw [if_neg (by simp [henabled])]
    by_cases hdepth : p.isDepthProducer = true
    · rw [if_pos hdepth]
      exact depth_outcome henabled hdepth
    · rw [if_neg hdepth]
      exact color_outcome henabled (by simpa using hdepth)
  · have hdisabled : p.isEnabled = false := by simpa using henabled
    rw [runPass_of_disabled hdisabled]
    exact .skipped (.inl hdisabled)

/-! ## Passes in order -/

/-- Passes that are run in order from a point of a frame on a host up to the first that fails, the outcome, and the
passes and the host after it. -/
inductive Runs (deltaTime : Binary32) (depthNeeded : Bool) :
    List PipelineEntry → FrameState → Host → Except Error FrameState → List PipelineEntry → Host → Prop where
  | nil {f : FrameState} {h : Host} : Runs deltaTime depthNeeded [] f h (.ok f) [] h
  | next {e : PipelineEntry} {es es' : List PipelineEntry} {f f₁ : FrameState} {h k : Host}
      {r : Except Error FrameState} {s : Staged Pass} :
      RunOutcome deltaTime depthNeeded (!es.any isPresenter) f e.pass h (.ok f₁) s →
      Runs deltaTime depthNeeded es f₁ s.host r es' k →
      Runs deltaTime depthNeeded (e :: es) f h r ({ e with pass := s.stage } :: es') k
  | failed {e : PipelineEntry} {es : List PipelineEntry} {f : FrameState} {h : Host} {error : Error} {s : Staged Pass} :
      RunOutcome deltaTime depthNeeded (!es.any isPresenter) f e.pass h (.error error) s →
      Runs deltaTime depthNeeded (e :: es) f h (.error error) ({ e with pass := s.stage } :: es) s.host

theorem runs_runEntries (deltaTime : Binary32) (depthNeeded : Bool) (es : List PipelineEntry) (f : FrameState)
    (h : Host) : Runs deltaTime depthNeeded es f h (runEntries deltaTime depthNeeded es f h).1
      (runEntries deltaTime depthNeeded es f h).2.1 (runEntries deltaTime depthNeeded es f h).2.2 := by
  induction es generalizing f h with
  | nil => exact .nil
  | cons e es ih =>
    have outcome := run_outcome deltaTime depthNeeded (!es.any isPresenter) f e.pass h
    rw [runEntries_cons, visit]
    rcases hp : runPass deltaTime depthNeeded (!es.any isPresenter) f ⟨e.pass, h⟩ with ⟨err | f₁, s⟩ <;>
      rw [hp] at outcome
    · exact .failed outcome
    · exact .next outcome (ih f₁ s.host)

theorem runs_of_runEntries {r : Except Error FrameState} (hr : runEntries deltaTime depthNeeded es f h = (r, es', k)) :
    Runs deltaTime depthNeeded es f h r es' k := by
  have runs := runs_runEntries deltaTime depthNeeded es f h
  rw [hr] at runs
  exact runs

/-- A render of a pass in a frame: the pass, what it sees, the host it starts on, and what it leaves. -/
structure Turn where
  pass : Pass
  io : PassIo
  start : Host
  finish : Staged Pass

/-- The turn is a render that succeeds. -/
def Turn.Rendered (deltaTime : Binary32) (t : Turn) : Prop :=
  Pass.render t.io deltaTime ⟨t.pass, t.start⟩ = (.ok (), t.finish)

/-- Passes that are run in order from a point of a frame on a host, the turns that they take, and the point and the host
after them. -/
inductive Plays (deltaTime : Binary32) (depthNeeded : Bool) :
    List PipelineEntry → FrameState → Host → List Turn → FrameState → Host → Prop where
  | nil {f : FrameState} {h : Host} : Plays deltaTime depthNeeded [] f h [] f h
  | skip {e : PipelineEntry} {es : List PipelineEntry} {f f' : FrameState} {h k : Host} {events : List Event}
      {turns : List Turn} : Skipped depthNeeded f e.pass →
      Plays deltaTime depthNeeded es f (h.report events) turns f' k →
      Plays deltaTime depthNeeded (e :: es) f h turns f' k
  | depth {e : PipelineEntry} {es : List PipelineEntry} {f f' : FrameState} {h k : Host} {events : List Event}
      {s : Staged Pass} {turns : List Turn} : e.pass.isEnabled = true → e.pass.isDepthProducer = true →
      depthNeeded = true → f.depthRendered = false →
      Turn.Rendered deltaTime ⟨e.pass, ⟨f.read, some f.write, none⟩, h, s⟩ →
      Plays deltaTime depthNeeded es { f with depth := s.stage.depthOutput, depthRendered := true }
        (s.host.report events) turns f' k →
      Plays deltaTime depthNeeded (e :: es) f h (⟨e.pass, ⟨f.read, some f.write, none⟩, h, s⟩ :: turns) f' k
  | color {e : PipelineEntry} {es : List PipelineEntry} {f f' : FrameState} {h k : Host} {before after : List Event}
      {s : Staged Pass} {turns : List Turn} : e.pass.isEnabled = true → e.pass.isDepthProducer = false →
      Turn.Rendered deltaTime
        ⟨e.pass, colorIo (e.pass.settings.toScreen || !es.any isPresenter) f, h.report before, s⟩ →
      Plays deltaTime depthNeeded es (handOn e.pass (e.pass.settings.toScreen || !es.any isPresenter) f)
        (s.host.report after) turns f' k →
      Plays deltaTime depthNeeded (e :: es) f h
        (⟨e.pass, colorIo (e.pass.settings.toScreen || !es.any isPresenter) f, h.report before, s⟩ :: turns) f' k

/-- A run that succeeds plays turns. -/
theorem Runs.plays (runs : Runs deltaTime depthNeeded es f h (.ok f') es' k) :
    ∃ turns, Plays deltaTime depthNeeded es f h turns f' k := by
  generalize hr : (.ok f' : Except Error FrameState) = r at runs
  induction runs with
  | nil =>
    cases hr
    exact ⟨[], .nil⟩
  | next outcome _ ih =>
    obtain ⟨turns, plays⟩ := ih hr
    cases outcome with
    | skipped hskip => exact ⟨turns, .skip hskip plays⟩
    | depth henabled hdepth hneeded hfirst hrender => exact ⟨_, .depth henabled hdepth hneeded hfirst hrender plays⟩
    | color henabled hdepth hrender => exact ⟨_, .color henabled hdepth hrender plays⟩
  | failed _ => cases hr

/-! ## Making passes ready -/

/-- Passes that are made ready in order on a host up to the first that fails, the outcome, and the passes and the host
after it. -/
inductive Readies : List PipelineEntry → Host → Except Error Unit → List PipelineEntry → Host → Prop where
  | nil {h : Host} : Readies [] h (.ok ()) [] h
  | skip {e : PipelineEntry} {es es' : List PipelineEntry} {h k : Host} {r : Except Error Unit} :
      e.pass.isEnabled = false → Readies es h r es' k → Readies (e :: es) h r (e :: es') k
  | ready {e : PipelineEntry} {es es' : List PipelineEntry} {h k : Host} {r : Except Error Unit} {s : Staged Pass} :
      e.pass.isEnabled = true → Pass.prepare ⟨e.pass, h⟩ = (.ok (), s) → Readies es s.host r es' k →
      Readies (e :: es) h r ({ e with pass := s.stage } :: es') k
  | refused {e : PipelineEntry} {es : List PipelineEntry} {h : Host} {error : Error} {s : Staged Pass} :
      e.pass.isEnabled = true → Pass.prepare ⟨e.pass, h⟩ = (.error error, s) →
      Readies (e :: es) h (.error error) ({ e with pass := s.stage } :: es) s.host

theorem readies_prepareEntries (es : List PipelineEntry) (h : Host) :
    Readies es h (prepareEntries es h).1 (prepareEntries es h).2.1 (prepareEntries es h).2.2 := by
  induction es generalizing h with
  | nil => exact .nil
  | cons e es ih =>
    by_cases he : e.pass.isEnabled = true
    · rw [prepareEntries_cons he, visit]
      rcases hp : Pass.prepare ⟨e.pass, h⟩ with ⟨err | _, s⟩
      · exact .refused he hp
      · exact .ready he hp (ih s.host)
    · rw [prepareEntries, if_neg he]
      exact .skip (by simpa using he) (ih h)

theorem readies_of_prepareEntries {r : Except Error Unit} (hp : prepareEntries es h = (r, es', k)) :
    Readies es h r es' k := by
  have readies := readies_prepareEntries es h
  rw [hp] at readies
  exact readies

/-! ## Frames -/

/-- A frame makes the passes ready, lets time pass, runs them, and keeps the buffers as they are then. -/
theorem render_eq (deltaTime : Binary32) (s : Staged Pipeline) :
    render deltaTime s = match s.stage.buffers with
      | none => (.error (.resource .disposedPipeline), s)
      | some (read, write) =>
        match prepareEntries s.stage.entries s.host with
        | (.error e, entries, host) => (.error e, ⟨{ s.stage with entries }, host⟩)
        | (.ok (), ready, host) =>
          let elapsed := s.stage.elapsed + deltaTime
          match runEntries deltaTime (ready.any needsDepth) ready ⟨read, write, none, false⟩ host with
          | (.error e, entries, host) => (.error e, ⟨{ s.stage with entries, elapsed }, host⟩)
          | (.ok f, entries, host) =>
            (.ok (), ⟨{ s.stage with entries, elapsed, buffers := some (f.read, f.write) }, host⟩) := by
  unfold render
  rw [Act.bind_apply, liveBuffers_apply]
  cases s.stage.buffers with
  | none => rfl
  | some buffers =>
    obtain ⟨read, write⟩ := buffers
    dsimp only
    rw [Act.bind_apply, onEntries]
    rcases prepareEntries s.stage.entries s.host with ⟨e | _, ready, host⟩
    · rfl
    · dsimp only
      rw [Act.bind_of_ok (Staged.modify_apply _ _), Act.bind_of_ok (Staged.get_apply _), Act.bind_apply, onEntries]
      dsimp only
      rcases runEntries deltaTime (ready.any needsDepth) ready ⟨read, write, none, false⟩ host with ⟨e | f, entries, k⟩
      · rfl
      · rfl

/-- A frame that succeeds makes all passes ready and plays turns. -/
theorem turns_of_render_ok {s t : Staged Pipeline} (hr : render deltaTime s = (.ok (), t)) :
    ∃ read write ready host turns f, s.stage.buffers = some (read, write) ∧
      prepareEntries s.stage.entries s.host = (.ok (), ready, host) ∧
      Plays deltaTime (ready.any needsDepth) ready ⟨read, write, none, false⟩ host turns f t.host ∧
      t.stage.buffers = some (f.read, f.write) := by
  rw [render_eq] at hr
  cases hb : s.stage.buffers with
  | none =>
    rw [hb] at hr
    cases hr
  | some buffers =>
    obtain ⟨read, write⟩ := buffers
    rw [hb] at hr
    dsimp only at hr
    rcases hp : prepareEntries s.stage.entries s.host with ⟨e | _, ready, host⟩ <;> rw [hp] at hr
    · cases hr
    · dsimp only at hr
      rcases hrun : runEntries deltaTime (ready.any needsDepth) ready ⟨read, write, none, false⟩ host with
        ⟨e | f, entries, k⟩ <;> rw [hrun] at hr
      · cases hr
      · cases hr
        obtain ⟨turns, plays⟩ := (runs_of_runEntries hrun).plays
        exact ⟨read, write, ready, host, turns, f, rfl, rfl, plays, rfl⟩

/-- A frame that succeeds, with its turns. -/
def Performs (deltaTime : Binary32) (s t : Staged Pipeline) (turns : List Turn) : Prop :=
  ∃ read write ready host f, s.stage.buffers = some (read, write) ∧
    prepareEntries s.stage.entries s.host = (.ok (), ready, host) ∧
    Plays deltaTime (ready.any needsDepth) ready ⟨read, write, none, false⟩ host turns f t.host

theorem performs_of_render_ok {s t : Staged Pipeline} (hr : render deltaTime s = (.ok (), t)) :
    ∃ turns, Performs deltaTime s t turns := by
  obtain ⟨read, write, ready, host, turns, f, hb, hp, plays, -⟩ := turns_of_render_ok hr
  exact ⟨turns, read, write, ready, host, f, hb, hp, plays⟩

end ScreenFusion.Pipeline
