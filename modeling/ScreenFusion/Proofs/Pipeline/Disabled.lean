import ScreenFusion.Pipeline.Frame
import ScreenFusion.Proofs.Pass.Alike

/-!
# ScreenFusion.Proofs.Pipeline.Disabled — a disabled pass is as good as removed

The frames of a pipeline are run twice, with the passes that are disabled at the start and without them.  Both runs give
the device the same commands and leave the other passes the same; a pass may disable itself on the way, which it then
does in both.

* `Thinned`: the entries of both runs, told by what they were at the start.
* `prepareEntries_thinned`, `runEntries_thinned`, `render_thinned`: what a traversal and a frame keep.
* `frames_withoutDisabled`: any number of frames.
-/

namespace ScreenFusion.Pipeline

/-! ## Entries with and without those that were disabled -/

/-- Entries at the start, the same entries later, and the later ones of those that were enabled at the start.  An entry
that was disabled at the start has not changed. -/
inductive Thinned : List PipelineEntry → List PipelineEntry → List PipelineEntry → Prop where
  | nil : Thinned [] [] []
  | keep {first now : PipelineEntry} {firsts nows kept : List PipelineEntry} :
      first.pass.isEnabled = true → Thinned firsts nows kept → Thinned (first :: firsts) (now :: nows) (now :: kept)
  | drop {e : PipelineEntry} {firsts nows kept : List PipelineEntry} :
      e.pass.isEnabled = false → Thinned firsts nows kept → Thinned (e :: firsts) (e :: nows) kept

namespace Thinned

variable {firsts nows kept : List PipelineEntry}

theorem start (es : List PipelineEntry) : Thinned es es (es.filter (·.pass.isEnabled)) := by
  induction es with
  | nil => exact .nil
  | cons e es ih =>
    rw [List.filter_cons]
    by_cases he : e.pass.isEnabled = true
    · rw [if_pos he]
      exact .keep he ih
    · rw [if_neg he]
      exact .drop (by simpa using he) ih

/-- What only enabled entries can have is found among the kept ones. -/
theorem any_eq (h : Thinned firsts nows kept) {f : PipelineEntry → Bool}
    (hf : ∀ e : PipelineEntry, e.pass.isEnabled = false → f e = false) : nows.any f = kept.any f := by
  induction h with
  | nil => rfl
  | keep _ _ ih => rw [List.any_cons, List.any_cons, ih]
  | drop he _ ih => rw [List.any_cons, hf _ he, ih, Bool.false_or]

theorem any_isPresenter (h : Thinned firsts nows kept) : nows.any isPresenter = kept.any isPresenter :=
  h.any_eq fun e he => by rw [isPresenter, he, Bool.false_and]

theorem any_needsDepth (h : Thinned firsts nows kept) : nows.any needsDepth = kept.any needsDepth :=
  h.any_eq fun e he => by rw [needsDepth, he, Bool.false_and]

theorem length_eq (h : Thinned firsts nows kept) : nows.length = firsts.length := by
  induction h with
  | nil => rfl
  | keep _ _ ih => rw [List.length_cons, List.length_cons, ih]
  | drop _ _ ih => rw [List.length_cons, List.length_cons, ih]

/-- The kept entries are the later ones of those that were enabled at the start. -/
theorem kept_eq (h : Thinned firsts nows kept) :
    kept = ((firsts.zip nows).filter (·.1.pass.isEnabled)).map Prod.snd := by
  induction h with
  | nil => rfl
  | keep he _ ih =>
    rw [List.zip_cons_cons, List.filter_cons, if_pos he, List.map_cons, ← ih]
  | drop he _ ih =>
    rw [List.zip_cons_cons, List.filter_cons, if_neg (by simp [he]), ← ih]

theorem getElem?_of_disabled (h : Thinned firsts nows kept) {i : Nat} {e : PipelineEntry} (hi : firsts[i]? = some e)
    (he : e.pass.isEnabled = false) : nows[i]? = some e := by
  induction h generalizing i with
  | nil => cases hi
  | keep hf _ ih =>
    cases i with
    | zero =>
      cases hi
      rw [he] at hf
      cases hf
    | succ i => exact ih hi
  | drop _ _ ih =>
    cases i with
    | zero => exact hi
    | succ i => exact ih hi

end Thinned

/-! ## A frame -/

/-- Outcomes, entries and hosts of a traversal of all entries and of one of the kept entries. -/
structure SameRun {α : Type} (firsts : List PipelineEntry) (x y : Except Error α × List PipelineEntry × Host) :
    Prop where
  outcome : x.1 = y.1
  entries : Thinned firsts x.2.1 y.2.1
  host : x.2.2.Alike y.2.2

variable {firsts nows kept : List PipelineEntry} {h k : Host}

/-- A traversal visits an entry and then, if that did not fail, the rest. -/
def visit {α β : Type} (x : Act (Staged Pass) β)
    (rest : β → List PipelineEntry → Host → Except Error α × List PipelineEntry × Host)
    (e : PipelineEntry) (es : List PipelineEntry) (h : Host) : Except Error α × List PipelineEntry × Host :=
  let (outcome, s) := x ⟨e.pass, h⟩
  let e := { e with pass := s.stage }
  match outcome with
  | .ok b =>
    let (outcome, es, h) := rest b es s.host
    (outcome, e :: es, h)
  | .error err => (.error err, e :: es, s.host)

theorem SameRun.visit {α β : Type} {x : Act (Staged Pass) β}
    {rest : β → List PipelineEntry → Host → Except Error α × List PipelineEntry × Host} {first : PipelineEntry}
    (hf : first.pass.isEnabled = true) (hx : x.Respects Staged.Alike) (t : Thinned firsts nows kept) (a : h.Alike k)
    (ih : ∀ b h k, h.Alike k → SameRun firsts (rest b nows h) (rest b kept k)) (now : PipelineEntry) :
    SameRun (first :: firsts) (visit x rest now nows h) (visit x rest now kept k) := by
  obtain ⟨hr, hs⟩ := hx ⟨now.pass, h⟩ ⟨now.pass, k⟩ ⟨rfl, a⟩
  unfold Pipeline.visit
  rcases hxh : x ⟨now.pass, h⟩ with ⟨r, p, h'⟩
  rcases hxk : x ⟨now.pass, k⟩ with ⟨r', p', k'⟩
  rw [hxh, hxk] at hr hs
  obtain ⟨hstage, hhost⟩ := hs
  cases hr
  cases hstage
  cases r with
  | ok b =>
    have same := ih b h' k' hhost
    exact ⟨same.outcome, .keep hf same.entries, same.host⟩
  | error err => exact ⟨rfl, .keep hf t, hhost⟩

theorem prepareEntries_cons {e : PipelineEntry} (he : e.pass.isEnabled = true) (es : List PipelineEntry) (h : Host) :
    prepareEntries (e :: es) h = visit Pass.prepare (fun _ => prepareEntries) e es h := by
  rw [prepareEntries, if_pos he, Pipeline.visit]
  rcases Pass.prepare ⟨e.pass, h⟩ with ⟨_ | _, _⟩ <;> rfl

theorem runEntries_cons (deltaTime : Binary32) (depthNeeded : Bool) (e : PipelineEntry) (es : List PipelineEntry)
    (f : FrameState) (h : Host) :
    runEntries deltaTime depthNeeded (e :: es) f h =
      visit (runPass deltaTime depthNeeded (!es.any isPresenter) f)
        (fun f es => runEntries deltaTime depthNeeded es f) e es h := by
  rw [runEntries, Pipeline.visit]
  rcases runPass deltaTime depthNeeded (!es.any isPresenter) f ⟨e.pass, h⟩ with ⟨_ | _, _⟩ <;> rfl

theorem prepareEntries_thinned (t : Thinned firsts nows kept) (a : h.Alike k) :
    SameRun firsts (prepareEntries nows h) (prepareEntries kept k) := by
  induction t generalizing h k with
  | nil => exact ⟨rfl, .nil, a⟩
  | @keep first now firsts nows kept hf t ih =>
    by_cases he : now.pass.isEnabled = true
    · rw [prepareEntries_cons he, prepareEntries_cons he]
      exact SameRun.visit hf Pass.respects_prepare t a (fun _ _ _ => ih) now
    · rw [prepareEntries, prepareEntries, if_neg he, if_neg he]
      have same := ih a
      exact ⟨same.outcome, .keep hf same.entries, same.host⟩
  | drop he t ih =>
    rw [prepareEntries, if_neg (by simp [he])]
    have same := ih a
    exact ⟨same.outcome, .drop he same.entries, same.host⟩

open Act Staged in
theorem respects_runPass (deltaTime : Binary32) (depthNeeded last : Bool) (f : FrameState) :
    Respects Staged.Alike (runPass deltaTime depthNeeded last f) := by
  have hdepth : Respects Staged.Alike (runDepth deltaTime depthNeeded f) := by
    refine .bind respects_get fun p => .ite ?_ ?_
    · exact .bind (respects_report _) fun _ => .pure f
    · exact .bind (Pass.respects_render _ _) fun _ => .bind respects_get fun _ => .bind (respects_report _) fun _ =>
        .pure _
  have hcolor : Respects Staged.Alike (runColor deltaTime last f) := by
    have hrun (p : Pass) (terminal : Bool) : Respects Staged.Alike (do
        Pass.render ⟨f.read, if terminal then none else some f.write, f.depth⟩ deltaTime
        Staged.report [.passRendered p.name terminal]
        if p.settings.needsSwap && !terminal then
          Staged.report [.buffersSwapped]
          return { f with read := f.write, write := f.read }
        else return f) := by
      refine .bind (Pass.respects_render _ _) fun _ => .bind (respects_report _) fun _ => .ite ?_ (.pure f)
      exact .bind (respects_report _) fun _ => .pure _
    refine .bind respects_get fun p => .ite ?_ ?_
    · exact .bind (respects_report _) fun _ => hrun p _
    · exact hrun p _
  refine .bind respects_get fun p => .ite ?_ (.ite hdepth hcolor)
  exact .bind (respects_report _) fun _ => .pure f

/-- A pass that is disabled leaves itself, the frame and the device as they are. -/
theorem runPass_of_disabled {p : Pass} (hp : p.isEnabled = false) (deltaTime : Binary32) (depthNeeded last : Bool)
    (f : FrameState) (h : Host) :
    runPass deltaTime depthNeeded last f ⟨p, h⟩ = (.ok f, ⟨p, h.report [.disabledPassSkipped p.name]⟩) := by
  unfold runPass
  rw [Act.bind_of_ok (Staged.get_apply _), if_pos (by simp [hp])]
  rfl

theorem runEntries_thinned (t : Thinned firsts nows kept) (a : h.Alike k) (deltaTime : Binary32) (depthNeeded : Bool)
    (f : FrameState) :
    SameRun firsts (runEntries deltaTime depthNeeded nows f h) (runEntries deltaTime depthNeeded kept f k) := by
  induction t generalizing f h k with
  | nil => exact ⟨rfl, .nil, a⟩
  | @keep first now firsts nows kept hf t ih =>
    rw [runEntries_cons, runEntries_cons, t.any_isPresenter]
    exact SameRun.visit hf (respects_runPass _ _ _ f) t a (fun f _ _ a => ih a f) now
  | @drop e firsts nows kept he t ih =>
    rw [runEntries, runPass_of_disabled he]
    have same := ih (a.report_left [.disabledPassSkipped e.pass.name]) f
    exact ⟨same.outcome, .drop he same.entries, same.host⟩

/-! ## Frames -/

/-- The pipeline without the passes that are disabled. -/
def withoutDisabled (p : Pipeline) : Pipeline := { p with entries := p.entries.filter (·.pass.isEnabled) }

/-- Runs frames one after another, whatever becomes of each: the outcomes, and the pipeline after them. -/
def frames : List Binary32 → Staged Pipeline → List (Except Error Unit) × Staged Pipeline
  | [], s => ([], s)
  | deltaTime :: rest, s =>
    let (outcome, s) := render deltaTime s
    let (outcomes, s) := frames rest s
    (outcome :: outcomes, s)

theorem frames_cons (deltaTime : Binary32) (rest : List Binary32) (s : Staged Pipeline) :
    frames (deltaTime :: rest) s =
      ((render deltaTime s).1 :: (frames rest (render deltaTime s).2).1, (frames rest (render deltaTime s).2).2) := rfl

/-- The same pipelines but for the entries, of which the second has the kept ones. -/
structure Counterparts (firsts : List PipelineEntry) (s t : Staged Pipeline) : Prop where
  entries : Thinned firsts s.stage.entries t.stage.entries
  stage : t.stage = { s.stage with entries := t.stage.entries }
  host : s.host.Alike t.host

open Act

theorem respects_liveBuffers : Respects (Counterparts firsts) liveBuffers := by
  intro s t c
  have hb : s.stage.buffers = t.stage.buffers := by rw [c.stage]
  unfold liveBuffers
  rw [bind_of_ok (Staged.get_apply s), bind_of_ok (Staged.get_apply t), ← hb]
  cases s.stage.buffers with
  | none => exact ⟨rfl, c⟩
  | some buffers => exact ⟨rfl, c⟩

theorem respects_onEntries {α : Type} {x : List PipelineEntry → Host → Except Error α × List PipelineEntry × Host}
    (hx : ∀ nows kept h k, Thinned firsts nows kept → h.Alike k → SameRun firsts (x nows h) (x kept k)) :
    Respects (Counterparts firsts) (onEntries x) := by
  intro s t c
  obtain ⟨outcome, entries, host⟩ := hx _ _ _ _ c.entries c.host
  have hstage : (onEntries x t).2.stage = { s.stage with entries := (onEntries x t).2.stage.entries } := by
    show ({ t.stage with entries := (x t.stage.entries t.host).2.1 } : Pipeline) = _
    rw [c.stage]
    rfl
  exact ⟨outcome, entries, hstage, host⟩

/-- A change that neither reads nor writes the entries. -/
theorem respects_modify {f : Pipeline → Pipeline} (hf : ∀ p entries, f { p with entries } = { f p with entries }) :
    Respects (Counterparts firsts) (Staged.modify f) := by
  intro s t c
  have hkeeps (p : Pipeline) : (f p).entries = p.entries := by
    have hp := congrArg Pipeline.entries (hf p p.entries)
    exact hp
  have hstage : f t.stage = { f s.stage with entries := (f t.stage).entries } := by
    rw [hkeeps, ← hf, ← c.stage]
  refine ⟨rfl, ?_, hstage, c.host⟩
  show Thinned firsts (f s.stage).entries (f t.stage).entries
  rw [hkeeps, hkeeps]
  exact c.entries

theorem respects_render (deltaTime : Binary32) : Respects (Counterparts firsts) (render deltaTime) := by
  refine .bind respects_liveBuffers fun buffers => ?_
  refine .bind (respects_onEntries fun _ _ _ _ => prepareEntries_thinned) fun _ => ?_
  refine .bind (respects_modify fun _ _ => rfl) fun _ => ?_
  intro s t c
  have hrun (depthNeeded : Bool) : Respects (Counterparts firsts) (do
      let f ← onEntries fun es h => runEntries deltaTime depthNeeded es ⟨buffers.1, buffers.2, none, false⟩ h
      Staged.modify fun p : Pipeline => { p with buffers := some (f.read, f.write) }) := by
    refine .bind (respects_onEntries fun _ _ _ _ ht a => runEntries_thinned ht a _ _ _) fun f => ?_
    exact respects_modify fun _ _ => rfl
  rw [bind_of_ok (Staged.get_apply s), bind_of_ok (Staged.get_apply t), c.entries.any_needsDepth]
  exact hrun _ s t c

theorem frames_counterparts {s t : Staged Pipeline} (c : Counterparts firsts s t) (deltaTimes : List Binary32) :
    (frames deltaTimes s).1 = (frames deltaTimes t).1 ∧
      Counterparts firsts (frames deltaTimes s).2 (frames deltaTimes t).2 := by
  induction deltaTimes generalizing s t with
  | nil => exact ⟨rfl, c⟩
  | cons deltaTime rest ih =>
    obtain ⟨hr, hc⟩ := respects_render deltaTime s t c
    obtain ⟨hrs, hcs⟩ := ih hc
    rw [frames_cons, frames_cons, hr, hrs]
    exact ⟨rfl, hcs⟩

/-- Any number of frames of a pipeline give, with and without the passes that are disabled at the start, the same
outcomes, the same commands with the same answers, the same device and failures still armed, and the same pipelines but
for the entries.  Each pass that was enabled is the same in both after them, and those that were disabled have not
changed. -/
theorem frames_withoutDisabled (deltaTimes : List Binary32) (p : Pipeline) (h : Host) :
    let (outcomes, s) := frames deltaTimes ⟨p, h⟩
    let (outcomes', s') := frames deltaTimes ⟨p.withoutDisabled, h⟩
    outcomes = outcomes' ∧
    s.host.calls = s'.host.calls ∧ s.host.device = s'.host.device ∧ s.host.armed = s'.host.armed ∧
    s'.stage = { s.stage with entries := s'.stage.entries } ∧
    s.stage.entries.length = p.entries.length ∧
    s'.stage.entries = ((p.entries.zip s.stage.entries).filter (·.1.pass.isEnabled)).map Prod.snd ∧
    ∀ (i : Nat) (e : PipelineEntry),
      p.entries[i]? = some e → e.pass.isEnabled = false → s.stage.entries[i]? = some e := by
  have start : Counterparts p.entries ⟨p, h⟩ ⟨p.withoutDisabled, h⟩ := ⟨.start p.entries, rfl, .refl h⟩
  obtain ⟨outcomes, entries, stage, host⟩ := frames_counterparts start deltaTimes
  refine ⟨outcomes, host.calls, host.device, host.armed, stage, entries.length_eq, entries.kept_eq, ?_⟩
  intro i e hi he
  exact entries.getElem?_of_disabled hi he

end ScreenFusion.Pipeline
