import ScreenFusion.Proofs.Pipeline.Refusal

/-!
# ScreenFusion.Proofs.Pipeline.Stall — how often a pass keeps frames from starting

A pass for which a build fails keeps its program, or is disabled if it has none, so that it does not keep the next
frame from starting.  There is one exception: a pass that is enabled again after that, without a change, gives the
error that it keeps in every frame and stays enabled.

* `Builder.Goes`: what a frame makes of a pass before anything is run.
* `obstacle?`, `goes_frame`: the pass that keeps a frame from starting, and each pass after a frame.
* `Builder.Settled`, `Builder.Stalled`: passes that never do that again, and those that do it for ever.
* `stalls_at_most_once_iff`: a pass stalls its pipeline at most once, unless it is enabled, has no program, and keeps
  the error of the last build.
-/

namespace ScreenFusion

/-! ## One pass -/

namespace Builder

variable {b b' : Builder} {o : Option Error} {e : Error}

/-- What becomes of a pass in a frame until all passes are ready: the frame does not come to it, or it becomes ready,
or it is the one that fails, with an error. -/
inductive Goes (b : Builder) : Option Error → Builder → Prop where
  | untouched : Goes b none b
  | ready {b' : Builder} : b.enabled = true → b.Step (.ok ()) b' → Goes b none b'
  | refused {e : Error} {b' : Builder} : b.enabled = true → b.Step (.error e) b' → Goes b (some e) b'

/-- If the pass is used, it has nothing to build, and has a program or an error that is about a resource. -/
def Settled (b : Builder) : Prop :=
  b.enabled = true → b.disposed = false →
    b.changed = false ∧ (b.compiled = true ∨ ∃ cause, b.lastError = some (.resource cause))

/-- The pass is stuck with an error that is about a configuration or a program. -/
def Stalled (b : Builder) : Prop := ∃ e, e.isBuildError = true ∧ b.Stuck e

theorem Ready.settled (ready : b.Ready) : b.Settled := fun _ _ => ⟨ready.clean, .inl ready.compiled⟩

theorem Ready.not_stalled (ready : b.Ready) : ¬b.Stalled := by
  rintro ⟨e, -, stuck⟩
  have hp := ready.compiled
  rw [stuck.missing] at hp
  cases hp

/-- After a build that failed the pass is settled: it has a program or is disabled. -/
theorem settled_of_failed (b : Builder) (e : Error) :
    Settled { b with changed := false, lastError := some e, enabled := b.enabled && b.compiled } := by
  intro henabled _
  exact ⟨rfl, .inl (Bool.and_eq_true_iff.1 henabled).2⟩

theorem Settled.not_due (settled : b.Settled) (henabled : b.enabled = true) (hlive : b.disposed = false) : ¬b.Due := by
  obtain ⟨hclean, hp⟩ := settled henabled hlive
  rintro (hchanged | ⟨hmissing, hnone⟩)
  · rw [hclean] at hchanged
    cases hchanged
  · rcases hp with hp | ⟨cause, he⟩
    · rw [hmissing] at hp
      cases hp
    · rw [hnone] at he
      cases he

/-- A pass that is settled stays so, and does not fail for a program. -/
theorem Settled.goes (settled : b.Settled) (goes : b.Goes o b') :
    b'.Settled ∧ ∀ e, o = some e → e.isBuildError = false := by
  cases goes with
  | untouched => exact ⟨settled, nofun⟩
  | ready _ step => exact ⟨step.ready_of_ok.settled, nofun⟩
  | refused henabled step =>
    cases step with
    | disposed => exact ⟨settled, fun _ h => by cases h; rfl⟩
    | refused hd hc hp he =>
      refine ⟨settled, ?_⟩
      rintro e ⟨⟩
      rcases (settled henabled hd).2 with hcompiled | ⟨cause, hcause⟩
      · rw [hp] at hcompiled
        cases hcompiled
      · rw [he] at hcause
        cases hcause
        rfl
    | failed hd hdue => exact absurd hdue (settled.not_due henabled hd)

/-- A pass that is not stalled fails for a program only in a build, and is settled after that. -/
theorem Goes.settled_of_buildError (goes : b.Goes (some e) b') (he : e.isBuildError = true) (hs : ¬b.Stalled) :
    b'.Settled := by
  cases goes with
  | refused henabled step =>
    cases step with
    | disposed => cases he
    | refused hd hc hp hlast => exact absurd ⟨e, he, henabled, hd, hc, hp, hlast⟩ hs
    | failed => exact settled_of_failed b e

theorem Goes.not_stalled (goes : b.Goes o b') (hs : ¬b.Stalled) : ¬b'.Stalled := by
  cases goes with
  | untouched => exact hs
  | ready _ step => exact step.ready_of_ok.not_stalled
  | refused henabled step =>
    cases step with
    | disposed => exact hs
    | refused => exact hs
    | failed hd hdue =>
      rintro ⟨e', he', stuck⟩
      have hp := (Bool.and_eq_true_iff.1 stuck.enabled).2
      have hmissing := stuck.missing
      rw [show b.compiled = false from hmissing] at hp
      cases hp

/-- A pass that is stuck stays so, and gives its error if the frame comes to it. -/
theorem Stuck.goes (stuck : b.Stuck e) (goes : b.Goes o b') : b' = b ∧ ∀ e', o = some e' → e' = e := by
  cases goes with
  | untouched => exact ⟨rfl, nofun⟩
  | ready _ step => cases (stuck.step step).1
  | refused _ step =>
    obtain ⟨he, hb⟩ := stuck.step step
    cases he
    exact ⟨hb, fun _ h => (Option.some.inj h).symm⟩

end Builder

namespace Pass

variable {p : Pass} {e : Error}

theorem prepare_of_ready (ready : p.builder.Ready) (h : Host) : ∃ s, prepare ⟨p, h⟩ = (.ok (), s) := by
  have hok := (ready.step (step_prepare p h)).1
  exact ⟨_, Prod.ext hok rfl⟩

theorem prepare_of_stuck (stuck : p.builder.Stuck e) (h : Host) : ∃ s, prepare ⟨p, h⟩ = (.error e, s) := by
  have herror := (stuck.step (step_prepare p h)).1
  exact ⟨_, Prod.ext herror rfl⟩

end Pass

namespace Pipeline

variable {es es' : List PipelineEntry} {h k : Host} {i : Nat} {x : PipelineEntry} {s : Staged Pipeline} {e : Error}
  {r : Except Error Unit}

/-! ## The pass that keeps a frame from starting -/

/-- The first of the passes in order that does not become ready: its place, and its error. -/
def firstRefusal? : List PipelineEntry → Host → Option (Nat × Error)
  | [], _ => none
  | e :: es, h =>
    if e.pass.isEnabled then
      match Pass.prepare ⟨e.pass, h⟩ with
      | (.ok (), s) => (firstRefusal? es s.host).map fun r => (r.1 + 1, r.2)
      | (.error error, _) => some (0, error)
    else (firstRefusal? es h).map fun r => (r.1 + 1, r.2)

/-- The error of a refusal, if it is of the pass at a place. -/
def errorAt (i : Nat) (r : Option (Nat × Error)) : Option Error := r.bind fun r => if r.1 = i then some r.2 else none

theorem errorAt_zero_succ (r : Option (Nat × Error)) : errorAt 0 (r.map fun r => (r.1 + 1, r.2)) = none := by
  cases r <;> rfl

theorem errorAt_succ_succ (i : Nat) (r : Option (Nat × Error)) :
    errorAt (i + 1) (r.map fun r => (r.1 + 1, r.2)) = errorAt i r := by
  cases r with
  | none => rfl
  | some r =>
    unfold errorAt
    simp only [Option.map_some, Option.bind_some, Nat.add_right_cancel_iff]

theorem firstRefusal?_skip {a : PipelineEntry} (ha : a.pass.isEnabled = false) :
    firstRefusal? (a :: es) h = (firstRefusal? es h).map fun r => (r.1 + 1, r.2) := by
  rw [firstRefusal?, if_neg (by simp [ha])]

theorem firstRefusal?_ready {a : PipelineEntry} {u : Staged Pass} (ha : a.pass.isEnabled = true)
    (hp : Pass.prepare ⟨a.pass, h⟩ = (.ok (), u)) :
    firstRefusal? (a :: es) h = (firstRefusal? es u.host).map fun r => (r.1 + 1, r.2) := by
  rw [firstRefusal?, if_pos ha, hp]

theorem firstRefusal?_refused {a : PipelineEntry} {u : Staged Pass} (ha : a.pass.isEnabled = true)
    (hp : Pass.prepare ⟨a.pass, h⟩ = (.error e, u)) : firstRefusal? (a :: es) h = some (0, e) := by
  rw [firstRefusal?, if_pos ha, hp]

/-- Passes are made ready in order up to the first refusal, whose error is the outcome. -/
theorem Readies.outcome_eq (readies : Readies es h r es' k) :
    r = match firstRefusal? es h with
      | some refusal => .error refusal.2
      | none => .ok () := by
  induction readies with
  | nil => rfl
  | @skip _ es _ h _ _ ha _ ih =>
    rw [firstRefusal?_skip ha, ih]
    cases firstRefusal? es h <;> rfl
  | @ready _ es _ _ _ _ u ha hp _ ih =>
    rw [firstRefusal?_ready ha hp, ih]
    cases firstRefusal? es u.host <;> rfl
  | refused ha hp => rw [firstRefusal?_refused ha hp]

/-- What becomes of each pass while passes are made ready. -/
theorem Readies.goes (readies : Readies es h r es' k) (hx : es[i]? = some x) :
    ∃ y, es'[i]? = some y ∧ x.pass.builder.Goes (errorAt i (firstRefusal? es h)) y.pass.builder := by
  induction readies generalizing i with
  | nil => cases hx
  | skip ha _ ih =>
    rw [firstRefusal?_skip ha]
    cases i with
    | zero =>
      cases hx
      rw [errorAt_zero_succ]
      exact ⟨x, rfl, .untouched⟩
    | succ i =>
      rw [errorAt_succ_succ]
      exact ih hx
  | ready ha hp _ ih =>
    rw [firstRefusal?_ready ha hp]
    cases i with
    | zero =>
      cases hx
      rw [errorAt_zero_succ]
      exact ⟨_, rfl, .ready (x.pass.enabled_builder.trans ha) (Pass.step_of_prepare hp)⟩
    | succ i =>
      rw [errorAt_succ_succ]
      exact ih hx
  | refused ha hp =>
    rw [firstRefusal?_refused ha hp]
    cases i with
    | zero =>
      cases hx
      exact ⟨_, rfl, .refused (x.pass.enabled_builder.trans ha) (Pass.step_of_prepare hp)⟩
    | succ i => exact ⟨x, hx, .untouched⟩

/-- If passes are not all made ready since one is stuck, they are not the next time either. -/
theorem Readies.firstRefusal?_again (readies : Readies es h r es' k) (hr : firstRefusal? es h = some (i, e))
    (hx : es[i]? = some x) (stuck : x.pass.builder.Stuck e) (l : Host) : firstRefusal? es' l = some (i, e) := by
  induction readies generalizing i l with
  | nil => cases hr
  | skip ha _ ih =>
    rw [firstRefusal?_skip ha] at hr ⊢
    obtain ⟨⟨j, error⟩, hj, hsucc⟩ := Option.map_eq_some_iff.1 hr
    cases hsucc
    rw [ih hj hx l]
    rfl
  | @ready a _ _ _ _ _ u ha hp _ ih =>
    have step := Pass.step_of_prepare hp
    rw [firstRefusal?_ready ha hp] at hr
    obtain ⟨⟨j, error⟩, hj, hsucc⟩ := Option.map_eq_some_iff.1 hr
    cases hsucc
    have henabled : u.stage.isEnabled = true := by
      rw [← u.stage.enabled_builder, step.enabled_of_ok, a.pass.enabled_builder, ha]
    obtain ⟨v, hagain⟩ := Pass.prepare_of_ready step.ready_of_ok l
    rw [firstRefusal?_ready henabled hagain, ih hj hx v.host]
    rfl
  | @refused _ _ _ _ u ha hp =>
    have step := Pass.step_of_prepare hp
    rw [firstRefusal?_refused ha hp] at hr
    cases hr
    cases hx
    have stuck : u.stage.builder.Stuck e := (stuck.step step).2 ▸ stuck
    obtain ⟨v, hagain⟩ := Pass.prepare_of_stuck stuck l
    exact firstRefusal?_refused (u.stage.enabled_builder ▸ stuck.enabled) hagain

/-- Passes that are run stay as ready as they are. -/
theorem Runs.builder_eq {deltaTime : Binary32} {depthNeeded : Bool} {f : FrameState} {r : Except Error FrameState}
    (runs : Runs deltaTime depthNeeded es f h r es' k) (ready : ReadyToRun es) (hx : es[i]? = some x) :
    ∃ y, es'[i]? = some y ∧ y.pass.builder = x.pass.builder := by
  induction runs generalizing i with
  | nil => cases hx
  | next outcome _ ih =>
    obtain ⟨hhead, htail⟩ := List.forall_mem_cons.1 ready
    cases i with
    | zero =>
      cases hx
      exact ⟨_, rfl, (outcome.of_ready hhead).1⟩
    | succ i => exact ih htail hx
  | failed outcome =>
    obtain ⟨hhead, -⟩ := List.forall_mem_cons.1 ready
    cases i with
    | zero =>
      cases hx
      exact ⟨_, rfl, (outcome.of_ready hhead).1⟩
    | succ i => exact ⟨x, hx, rfl⟩

/-! ## Frames -/

/-- The error with which the pass at a place keeps the next frame of a pipeline from starting, if it does. -/
def obstacle? (i : Nat) (s : Staged Pipeline) : Option Error :=
  if s.stage.isDisposed then none else errorAt i (firstRefusal? s.stage.entries s.host)

/-- What becomes of each pass in a frame. -/
theorem goes_frame (hx : s.stage.entries[i]? = some x) (deltaTime : Binary32) :
    ∃ y, (render deltaTime s).2.stage.entries[i]? = some y ∧ x.pass.builder.Goes (obstacle? i s) y.pass.builder := by
  rw [render_eq, obstacle?, isDisposed]
  cases s.stage.buffers with
  | none => exact ⟨x, hx, .untouched⟩
  | some buffers =>
    obtain ⟨read, write⟩ := buffers
    obtain ⟨y, hy, goes⟩ := (readies_prepareEntries s.stage.entries s.host).goes hx
    dsimp only
    rw [Option.isNone_some, if_neg Bool.false_ne_true]
    rcases hp : prepareEntries s.stage.entries s.host with ⟨err | _, ready, host⟩ <;> rw [hp] at hy
    · exact ⟨y, hy, goes⟩
    · -- all are ready, so what runs after this builds nothing
      have hready := readyToRun_of_madeReady (readies_of_prepareEntries hp).madeReady
      dsimp only
      rcases hrun : runEntries deltaTime (ready.any needsDepth) ready ⟨read, write, none, false⟩ host with
        ⟨err | f, entries, k⟩
      · obtain ⟨z, hz, hsame⟩ := (runs_of_runEntries hrun).builder_eq hready hy
        exact ⟨z, hz, hsame ▸ goes⟩
      · obtain ⟨z, hz, hsame⟩ := (runs_of_runEntries hrun).builder_eq hready hy
        exact ⟨z, hz, hsame ▸ goes⟩

theorem obstacle?_eq_some_iff :
    obstacle? i s = some e ↔ s.stage.isDisposed = false ∧ firstRefusal? s.stage.entries s.host = some (i, e) := by
  unfold obstacle? errorAt
  cases s.stage.isDisposed with
  | true => simp
  | false =>
    rcases firstRefusal? s.stage.entries s.host with _ | ⟨j, error⟩
    · simp
    · simp [Prod.ext_iff]

/-- Whether the pass at a place keeps the next frame from starting for a configuration or a program. -/
def stalls (i : Nat) (s : Staged Pipeline) : Bool := (obstacle? i s).any Error.isBuildError

theorem stalls_iff : stalls i s = true ↔ ∃ e, obstacle? i s = some e ∧ e.isBuildError = true := by
  unfold stalls
  cases obstacle? i s with
  | none => simp
  | some e => simp

/-- A frame that a pass keeps from starting leaves the pipeline as it is after that. -/
theorem render_of_obstacle (ho : obstacle? i s = some e) (deltaTime : Binary32) :
    let r := prepareEntries s.stage.entries s.host
    render deltaTime s = (.error e, ⟨{ s.stage with entries := r.2.1 }, r.2.2⟩) := by
  obtain ⟨hlive, hrefusal⟩ := obstacle?_eq_some_iff.1 ho
  have houtcome := (readies_prepareEntries s.stage.entries s.host).outcome_eq
  rw [hrefusal] at houtcome
  rw [render_eq]
  unfold isDisposed at hlive
  cases hb : s.stage.buffers with
  | none =>
    rw [hb] at hlive
    cases hlive
  | some buffers =>
    rcases hp : prepareEntries s.stage.entries s.host with ⟨r, entries, host⟩
    rw [hp] at houtcome
    dsimp only at houtcome ⊢
    rw [houtcome]

/-- A frame fails for a configuration or a program exactly if there is a pass that stalls it. -/
theorem exists_stalls_iff (deltaTime : Binary32) (s : Staged Pipeline) :
    (∃ i, stalls i s = true) ↔ ∃ e t, render deltaTime s = (.error e, t) ∧ e.isBuildError = true := by
  constructor
  · rintro ⟨i, hi⟩
    obtain ⟨e, he, hbuild⟩ := stalls_iff.1 hi
    exact ⟨e, _, render_of_obstacle he deltaTime, hbuild⟩
  · rintro ⟨e, t, hr, hbuild⟩
    obtain ⟨hlive, entries, host, hp, -⟩ := prepareEntries_of_buildError hr hbuild
    have houtcome := (readies_prepareEntries s.stage.entries s.host).outcome_eq
    rw [hp] at houtcome
    rcases hrefusal : firstRefusal? s.stage.entries s.host with _ | ⟨i, error⟩ <;> rw [hrefusal] at houtcome
    · cases houtcome
    · cases houtcome
      exact ⟨i, stalls_iff.2 ⟨_, obstacle?_eq_some_iff.2 ⟨hlive, hrefusal⟩, hbuild⟩⟩

/-- The pipelines from which frames start. -/
def starts : List Binary32 → Staged Pipeline → List (Staged Pipeline)
  | [], _ => []
  | deltaTime :: rest, s => s :: starts rest (render deltaTime s).2

theorem starts_cons (deltaTime : Binary32) (rest : List Binary32) (s : Staged Pipeline) :
    starts (deltaTime :: rest) s = s :: starts rest (render deltaTime s).2 := rfl

theorem countP_starts_of_settled (hx : s.stage.entries[i]? = some x) (settled : x.pass.builder.Settled)
    (deltaTimes : List Binary32) : (starts deltaTimes s).countP (stalls i) = 0 := by
  induction deltaTimes generalizing s x with
  | nil => rfl
  | cons deltaTime rest ih =>
    obtain ⟨y, hy, goes⟩ := goes_frame hx deltaTime
    obtain ⟨settled', hnone⟩ := settled.goes goes
    have hstalls : stalls i s ≠ true := by
      intro hs
      obtain ⟨e, he, hbuild⟩ := stalls_iff.1 hs
      rw [hnone e he] at hbuild
      cases hbuild
    rw [starts_cons, List.countP_cons_of_neg hstalls]
    exact ih hy settled'

theorem countP_starts_le_one (hx : s.stage.entries[i]? = some x) (hs : ¬x.pass.builder.Stalled)
    (deltaTimes : List Binary32) : (starts deltaTimes s).countP (stalls i) ≤ 1 := by
  -- a frame that the pass keeps from starting settles it, and any other leaves it as it must be for the next
  induction deltaTimes generalizing s x with
  | nil => exact Nat.zero_le 1
  | cons deltaTime rest ih =>
    obtain ⟨y, hy, goes⟩ := goes_frame hx deltaTime
    by_cases hstalls : stalls i s = true
    · obtain ⟨e, he, hbuild⟩ := stalls_iff.1 hstalls
      rw [he] at goes
      rw [starts_cons, List.countP_cons_of_pos hstalls,
        countP_starts_of_settled hy (goes.settled_of_buildError hbuild hs) rest]
    · rw [starts_cons, List.countP_cons_of_neg hstalls]
      exact ih hy (goes.not_stalled hs)

/-- If a frame does not start since a pass is stuck, the next one does not either. -/
theorem obstacle?_again (hx : s.stage.entries[i]? = some x) (stuck : x.pass.builder.Stuck e)
    (ho : obstacle? i s = some e) (deltaTime : Binary32) : obstacle? i (render deltaTime s).2 = some e := by
  obtain ⟨hlive, hrefusal⟩ := obstacle?_eq_some_iff.1 ho
  rw [render_of_obstacle ho deltaTime]
  have readies := readies_prepareEntries s.stage.entries s.host
  exact obstacle?_eq_some_iff.2 ⟨hlive, readies.firstRefusal?_again hrefusal hx stuck _⟩

theorem countP_starts_of_stuck (hx : s.stage.entries[i]? = some x) (stuck : x.pass.builder.Stuck e)
    (he : e.isBuildError = true) (ho : obstacle? i s = some e) (deltaTimes : List Binary32) :
    (starts deltaTimes s).countP (stalls i) = deltaTimes.length := by
  induction deltaTimes generalizing s x with
  | nil => rfl
  | cons deltaTime rest ih =>
    obtain ⟨y, hy, goes⟩ := goes_frame hx deltaTime
    obtain ⟨hsame, -⟩ := stuck.goes goes
    rw [starts_cons, List.countP_cons_of_pos (stalls_iff.2 ⟨e, ho, he⟩), List.length_cons,
      ih hy (hsame ▸ stuck) (obstacle?_again hx stuck ho deltaTime)]

/-- A commit of an effect pass and a preparation of a material pass that fail for a configuration or a program leave
the pass with a program or disabled, unless it was stuck.  Frames fail for a configuration or a program exactly if a
pass stalls them.  A pass that is not stalled does that in at most one of any number of frames; one that is stalled
does it in all of them, once it does it. -/
theorem stalls_at_most_once_iff (p : EffectPass) (m : MaterialPass) (h : Host) (s : Staged Pipeline) :
    (∀ (q : EffectPass) (k : Host) (e : Error), EffectPass.commit ⟨p, h⟩ = (.error e, ⟨q, k⟩) →
      e.isBuildError = true → (q.compiled.isSome = true ∨ q.settings.enabled = false ↔ ¬p.builder.Stuck e)) ∧
    (∀ (q : MaterialPass) (k : Host) (e : Error), MaterialPass.prepare ⟨m, h⟩ = (.error e, ⟨q, k⟩) →
      e.isBuildError = true → (q.compiled.isSome = true ∨ q.settings.enabled = false ↔ ¬m.builder.Stuck e)) ∧
    (∀ deltaTime : Binary32, (∃ i, stalls i s = true) ↔
      ∃ e t, render deltaTime s = (.error e, t) ∧ e.isBuildError = true) ∧
    ∀ (i : Nat) (x : PipelineEntry), s.stage.entries[i]? = some x →
      (¬x.pass.builder.Stalled → ∀ deltaTimes, (starts deltaTimes s).countP (stalls i) ≤ 1) ∧
      (x.pass.builder.Stalled → stalls i s = true →
        ∀ deltaTimes, (starts deltaTimes s).countP (stalls i) = deltaTimes.length) := by
  refine ⟨?_, ?_, fun deltaTime => exists_stalls_iff deltaTime s, ?_⟩
  · intro q k e hc he
    have step := p.step_commit h
    rw [hc] at step
    exact step.compiled_or_disabled_iff he
  · intro q k e hp he
    have step := m.step_prepare h
    rw [hp] at step
    exact step.compiled_or_disabled_iff he
  · intro i x hx
    refine ⟨countP_starts_le_one hx, ?_⟩
    rintro ⟨e, he, stuck⟩ hstalls
    obtain ⟨e', ho, -⟩ := stalls_iff.1 hstalls
    obtain ⟨y, -, goes⟩ := goes_frame hx .zero
    have hsame : e' = e := (stuck.goes goes).2 e' ho
    exact countP_starts_of_stuck hx stuck he (hsame ▸ ho)

/-- A new pass with an effect of which no program can be made. -/
def unfinishedPass : EffectPass :=
  ((EffectPass.create "fx" [Effect.create 1 "unfinished" "fn main_image"]).toOption).getD default

/-- A pipeline whose only pass has failed to be built in a frame and has been enabled again. -/
def reenabled : Staged Pipeline := after [.render .zero, .setEnabled 1 true] (withPasses [.effect unfinishedPass])

/-- A new pass stalls its pipeline at most once; the same pass stalls it in every frame after it is enabled again. -/
theorem stalls_reenabled :
    (∀ deltaTimes, (starts deltaTimes (withPasses [.effect unfinishedPass])).countP (stalls 0) ≤ 1) ∧
    ∀ deltaTimes, (starts deltaTimes reenabled).countP (stalls 0) = deltaTimes.length := by
  have counted (s : Staged Pipeline) :=
    (stalls_at_most_once_iff unfinishedPass (MaterialPass.create unfinished) s.host s).2.2.2
  constructor
  · have hnew : ((withPasses [.effect unfinishedPass]).stage.entries[0]?).map (·.pass.builder.changed) = some true := by
      decide +kernel
    obtain ⟨x, hx, hchanged⟩ := Option.map_eq_some_iff.1 hnew
    refine (counted _ 0 x hx).1 ?_
    rintro ⟨e, -, stuck⟩
    rw [stuck.clean] at hchanged
    cases hchanged
  · have hstuck : (reenabled.stage.entries[0]?).map (·.pass.builder) =
        some ⟨true, false, false, false, some (.compile "fx" (.noKernel "unfinished"))⟩ := by decide +kernel
    have hstalls : stalls 0 reenabled = true := by decide +kernel
    obtain ⟨x, hx, hbuilder⟩ := Option.map_eq_some_iff.1 hstuck
    refine (counted _ 0 x hx).2 ⟨.compile "fx" (.noKernel "unfinished"), rfl, ?_⟩ hstalls
    rw [hbuilder]
    exact ⟨rfl, rfl, rfl, rfl, rfl⟩

/-- Whether a commit of the pass, if it is one of effects, fails for a configuration or a program and leaves it enabled
without a program. -/
def failsEnabled (h : Host) : Pass → Bool
  | .effect p => match EffectPass.commit ⟨p, h⟩ with
    | (.error e, t) => e.isBuildError && (!t.stage.compiled.isSome && t.stage.settings.enabled)
    | (.ok _, _) => false
  | _ => false

/-- A pass that is enabled again after a build has failed fails once more without a program, and stays enabled; it keeps
two frames in a row from starting. -/
theorem reenabled_stalls_twice : (Pass.effect unfinishedPass).Fresh ∧
    (∃ p e t, reenabled.stage.pass? 1 = some (.effect p) ∧ EffectPass.commit ⟨p, reenabled.host⟩ = (.error e, t) ∧
      e.isBuildError = true ∧ t.stage.compiled.isSome = false ∧ t.stage.settings.enabled = true) ∧
    (starts [.zero, .zero] reenabled).countP (stalls 0) = 2 := by
  have hcommit : (reenabled.stage.pass? 1).any (failsEnabled reenabled.host) = true := by decide +kernel
  have hcreate : EffectPass.create "fx" [Effect.create 1 "unfinished" "fn main_image"] = .ok unfinishedPass := rfl
  refine ⟨.effect hcreate, ?_, by decide +kernel⟩
  obtain ⟨pass, hpass, hfails⟩ := (Option.any_eq_true _ _).1 hcommit
  cases pass with
  | effect p =>
    unfold failsEnabled at hfails
    dsimp only at hfails
    rcases hc : EffectPass.commit ⟨p, reenabled.host⟩ with ⟨e | b, t⟩ <;> rw [hc] at hfails
    · obtain ⟨he, hrest⟩ := Bool.and_eq_true_iff.1 hfails
      obtain ⟨hmissing, henabled⟩ := Bool.and_eq_true_iff.1 hrest
      exact ⟨p, e, t, hpass, hc, he, by simpa using hmissing, henabled⟩
    · cases hfails
  | _ => cases hfails

end Pipeline

end ScreenFusion
