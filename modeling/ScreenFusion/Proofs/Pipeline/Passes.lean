import ScreenFusion.Proofs.Pass.Use
import ScreenFusion.Proofs.Pipeline.Buffers

/-!
# ScreenFusion.Proofs.Pipeline.Passes — the passes of a pipeline

All that a pipeline does with a pass is to use it, and in between it uses others.  So each of its passes is one that can
be had by itself, on the pipeline's host, and what holds of such passes holds of the passes of every pipeline.

* `Pass.Onward`, `Pipeline.Onward`: a pass, and passes, after some uses.
* `PipelineOp.onward_run`: every use of a pipeline is one of its passes.
* `Pipeline.Used`, `Pipeline.Used.pass`: the pipelines that can be had, and their passes.
-/

namespace ScreenFusion

open Act (Confined)

open Staged

/-! ## One pass -/

/-- A use of a pass leaves to the number of a program what it stood for. -/
theorem PassUse.later_run {s : Staged Pass} (use : PassUse) (ha : use.Suits s.stage) :
    s.host.Later (use.run s).2.host := by
  have serving := Host.serving_later
  cases use with
  | change setter => exact PassSetter.along_run serving.report ha.admissible s
  | configure setup => exact Pass.along_configure serving setup s
  | prepare => exact Pass.along_prepare serving.toBuilding s
  | render io deltaTime => exact Pass.along_render serving Host.later_drawFullscreen io deltaTime s
  | resize width height => exact Pass.along_resize serving.report serving.resizeTarget width height s
  | dispose =>
    rw [run_dispose]
    exact Pass.along_dispose serving s

namespace Pass

variable {p : Pass} {s t : Staged Pass} {h k : Host}

/-- The second pass is what may become of the first. -/
structure Onward (s t : Staged Pass) : Prop where
  later : s.host.Later t.host
  used : Used s → Used t

instance : IsPreorder (Staged Pass) Onward where
  refl s := ⟨refl_of Host.Later s.host, id⟩
  trans _ _ _ st tu := ⟨trans_of Host.Later st.later tu.later, tu.used ∘ st.used⟩

theorem onward_run (use : PassUse) (ha : use.Suits s.stage) : Onward s (use.run s).2 :=
  ⟨use.later_run ha, fun used => used.used use ha⟩

theorem onward_of_run_eq (use : PassUse) (ha : use.Suits s.stage) {r : Except Error Unit} (hr : use.run s = (r, t)) :
    Onward s t := by
  have onward := onward_run use ha
  rwa [hr] at onward

theorem onward_of_later (l : h.Later k) : Onward ⟨p, h⟩ ⟨p, k⟩ := ⟨l, fun used => used.elsewhere l⟩

theorem onward_report (s : Staged Pass) (events : List Event) : Onward s ⟨s.stage, s.host.report events⟩ :=
  onward_of_later (Host.later_report s.host events)

theorem onward_dispose : Confined Onward dispose := fun s =>
  PassUse.run_dispose s ▸ onward_run .dispose trivial

end Pass

namespace Pipeline

variable {e : PipelineEntry} {es es' : List PipelineEntry} {h k : Host} {s : Staged Pipeline}

/-! ## Passes in order -/

/-- Each pass is one that can be had by itself. -/
def AllUsed (es : List PipelineEntry) (h : Host) : Prop := ∀ e ∈ es, Pass.Used ⟨e.pass, h⟩

theorem AllUsed.later (used : AllUsed es h) (l : h.Later k) : AllUsed es k := fun e he => (used e he).elsewhere l

/-- The passes after a traversal are what may become of those before it. -/
structure Onwards (es es' : List PipelineEntry) (h k : Host) : Prop where
  later : h.Later k
  used : AllUsed es h → AllUsed es' k

namespace Onwards

theorem of_later (es : List PipelineEntry) (l : h.Later k) : Onwards es es h k := ⟨l, fun used => used.later l⟩

/-- One pass and then the others. -/
theorem cons {t : Staged Pass} (first : Pass.Onward ⟨e.pass, h⟩ t) (rest : Onwards es es' t.host k) :
    Onwards (e :: es) ({ e with pass := t.stage } :: es') h k := by
  refine ⟨trans_of Host.Later first.later rest.later, fun used => ?_⟩
  obtain ⟨hfirst, hrest⟩ := List.forall_mem_cons.1 used
  have hothers : AllUsed es t.host := AllUsed.later hrest first.later
  exact List.forall_mem_cons.2 ⟨(first.used hfirst).elsewhere rest.later, rest.used hothers⟩

theorem head {t : Staged Pass} (first : Pass.Onward ⟨e.pass, h⟩ t) :
    Onwards (e :: es) ({ e with pass := t.stage } :: es) h t.host :=
  .cons first (.of_later es (refl_of Host.Later t.host))

theorem of_sublist (hsub : es'.Sublist es) (l : h.Later k) : Onwards es es' h k :=
  ⟨l, fun used e he => (used e (hsub.subset he)).elsewhere l⟩

end Onwards

theorem Readies.onwards {r : Except Error Unit} (readies : Readies es h r es' k) : Onwards es es' h k := by
  have prepared {p : Pass} {h : Host} {r : Except Error Unit} {t : Staged Pass}
      (hp : Pass.prepare ⟨p, h⟩ = (r, t)) : Pass.Onward ⟨p, h⟩ t := Pass.onward_of_run_eq .prepare trivial hp
  induction readies with
  | nil => exact .of_later [] (refl_of Host.Later _)
  | @skip e _ _ h _ _ _ _ ih => exact .cons (refl_of Pass.Onward ⟨e.pass, h⟩) ih
  | ready _ hp _ ih => exact .cons (prepared hp) ih
  | refused _ hp => exact .head (prepared hp)

theorem RunOutcome.onward {deltaTime : Binary32} {depthNeeded last : Bool} {f : FrameState} {p : Pass}
    {r : Except Error FrameState} {t : Staged Pass} (outcome : RunOutcome deltaTime depthNeeded last f p h r t) :
    Pass.Onward ⟨p, h⟩ t := by
  have rendered {io : PassIo} {k : Host} {r : Except Error Unit} {t : Staged Pass}
      (hr : Pass.render io deltaTime ⟨p, k⟩ = (r, t)) : Pass.Onward ⟨p, k⟩ t :=
    Pass.onward_of_run_eq (.render io deltaTime) trivial hr
  have reported (events : List Event) : Pass.Onward ⟨p, h⟩ ⟨p, h.report events⟩ :=
    Pass.onward_report ⟨p, h⟩ events
  cases outcome with
  | skipped _ => exact reported _
  | depth _ _ _ _ hr => exact trans_of Pass.Onward (rendered hr) (Pass.onward_report _ _)
  | color _ _ hr =>
    exact trans_of Pass.Onward (reported _) (trans_of Pass.Onward (rendered hr) (Pass.onward_report _ _))
  | failed _ hr => exact trans_of Pass.Onward (reported _) (rendered hr)

theorem Runs.onwards {deltaTime : Binary32} {depthNeeded : Bool} {f : FrameState} {r : Except Error FrameState}
    (runs : Runs deltaTime depthNeeded es f h r es' k) : Onwards es es' h k := by
  induction runs with
  | nil => exact .of_later [] (refl_of Host.Later _)
  | next outcome _ ih => exact .cons outcome.onward ih
  | failed outcome => exact .head outcome.onward

theorem onwards_resizeEntries (width height : Nat) (es : List PipelineEntry) (h : Host) :
    Onwards es (resizeEntries width height es h).1 h (resizeEntries width height es h).2.2 := by
  induction es generalizing h with
  | nil => exact .of_later [] (refl_of Host.Later h)
  | cons e es ih =>
    have onward : Pass.Onward ⟨e.pass, h⟩ (Pass.resize width height ⟨e.pass, h⟩).2 :=
      Pass.onward_run (.resize width height) trivial
    rw [resizeEntries]
    rcases hr : Pass.resize width height ⟨e.pass, h⟩ with ⟨err | _, t⟩ <;> rw [hr] at onward
    · have reported := trans_of Pass.Onward onward (Pass.onward_report t [.resizeFailed t.stage.name width height err])
      have told := Onwards.cons reported (ih _)
      exact told
    · exact .cons onward (ih t.host)

theorem later_disposeEntries (es : List PipelineEntry) (h : Host) : h.Later (disposeEntries es h) := by
  induction es generalizing h with
  | nil => exact refl_of Host.Later h
  | cons e es ih => exact trans_of Host.Later (Pass.onward_dispose ⟨e.pass, h⟩).later (ih _)

/-! ## Operations -/

/-- The passes of the second pipeline are what may become of those of the first. -/
def Onward (s t : Staged Pipeline) : Prop := Onwards s.stage.entries t.stage.entries s.host t.host

instance : IsPreorder (Staged Pipeline) Onward where
  refl s := Onwards.of_later s.stage.entries (refl_of Host.Later s.host)
  trans _ _ _ st tu := ⟨trans_of Host.Later st.later tu.later, tu.used ∘ st.used⟩

theorem onward_onHost {α : Type} {x : Act Host α} (hx : Confined Host.Later x) :
    Confined Onward (Staged.onHost x) := fun s => Onwards.of_later s.stage.entries (hx s.host)

theorem onward_report (events : List Event) : Confined Onward (Staged.report events : Act (Staged Pipeline) Unit) :=
  fun s => Onwards.of_later s.stage.entries (Host.later_report s.host events)

theorem onward_runOn {α : Type} {x : Act (Staged Pass) α} (hx : Confined Pass.Onward x) (p : Pass) :
    Confined Onward (runOn p x) := fun s => Onwards.of_later s.stage.entries (hx ⟨p, s.host⟩).later

theorem onward_liveBuffers : Confined Onward liveBuffers := by
  intro s
  rw [liveBuffers_apply]
  cases s.stage.buffers <;> exact refl_of Onward s

theorem onward_resize (width height : Nat) : Confined Onward (resize width height) := by
  refine .bind onward_liveBuffers fun buffers => .ite (.fail _) ?_
  refine .bind (onward_onHost (Host.later_issue _ _ (Device.later_setOutputSize _ _))) fun _ => ?_
  refine .bind (onward_onHost (Host.serving_later.resizeTarget _ _ _)) fun _ => ?_
  refine .bind (onward_onHost (Host.serving_later.resizeTarget _ _ _)) fun _ => ?_
  refine .bind (fun s => onwards_resizeEntries width height s.stage.entries s.host) fun error => ?_
  refine .bind (onward_report _) fun _ => ?_
  cases error with
  | none => exact .pure ()
  | some e => exact .fail e

theorem onward_render (deltaTime : Binary32) : Confined Onward (render deltaTime) := by
  refine .bind onward_liveBuffers fun buffers => .bind ?_ fun _ => .bind ?_ fun _ => .bind (refl_of Onward) fun p => ?_
  · exact fun s => (readies_prepareEntries s.stage.entries s.host).onwards
  · exact fun s => refl_of Onward s
  · refine .bind ?_ fun f s => refl_of Onward s
    exact fun s => (runs_runEntries deltaTime _ s.stage.entries _ s.host).onwards

theorem onward_removePass (id : Nat) : Confined Onward (removePass id) := by
  refine .bind (refl_of Onward) fun p => ?_
  cases p.pass? id with
  | none => exact .pure none
  | some pass =>
    have removed (pass : Pass) : Confined Onward (do
        Staged.report [.passRemoved pass.name]
        return some pass) := .bind (onward_report _) fun _ => .pure _
    refine .bind (fun s => .of_sublist List.eraseP_sublist (refl_of Host.Later s.host)) fun _ => ?_
    refine .bind (onward_runOn Pass.onward_dispose pass) fun r => ?_
    obtain ⟨outcome, pass⟩ := r
    rcases outcome with e | _ | _
    · exact .bind (onward_report _) fun _ => removed pass
    · exact .bind (onward_report _) fun _ => removed pass
    · exact removed pass

theorem onward_dispose : Confined Onward dispose := by
  refine .bind (refl_of Onward) fun p => ?_
  cases p.buffers with
  | none => exact .pure false
  | some buffers =>
    have released (target : Nat) : Confined Onward (Staged.release (Host.releaseTarget target)) := fun s =>
      Onwards.of_later s.stage.entries (Host.serving_later.releaseTarget target s.host)
    refine .bind (fun s => .of_sublist (List.nil_sublist _) (refl_of Host.Later s.host)) fun _ => ?_
    refine .bind (onward_onHost fun h => later_disposeEntries p.entries h) fun _ => ?_
    exact .bind (released _) fun _ => .bind (released _) fun _ => .bind (onward_report _) fun _ => .pure true

/-- Passes of which some are changed, each into what may become of it. -/
theorem onward_modifyPass {p : Pipeline} {id : Nat} {f : Pass → Pass} (l : h.Later k)
    (hf : ∀ e ∈ p.entries, e.id = id → Pass.Used ⟨e.pass, h⟩ → Pass.Used ⟨f e.pass, k⟩) :
    Onward ⟨p, h⟩ ⟨p.modifyPass id f, k⟩ := by
  refine ⟨l, fun used e' he' => ?_⟩
  obtain ⟨e, he, rfl⟩ := List.mem_map.1 he'
  by_cases hid : e.id = id
  · rw [if_pos hid]
    exact hf e he hid (used e he)
  · rw [if_neg hid]
    exact (used e he).elsewhere l

theorem onward_setEnabled (p : Pipeline) (id : Nat) (enabled : Bool) (h : Host) :
    Onward ⟨p, h⟩ ⟨(p.setEnabled id enabled).2, h⟩ := by
  refine onward_modifyPass (refl_of Host.Later h) fun e _ _ used => ?_
  have settled (settings : PassSettings) : Pass.Used ⟨e.pass.withSettings settings, h⟩ :=
    used.used (.change (.settings settings)) ⟨trivial, fun _ _ hs => nomatch hs⟩
  exact settled _

theorem onward_changePass {id : Nat} {setter : PassSetter}
    (hs : ∀ pass, s.stage.pass? id = some pass → setter.Suits pass) : Onward s (changePass id setter s).2 := by
  obtain ⟨p, h⟩ := s
  unfold changePass
  rw [Act.bind_of_ok (get_apply _)]
  dsimp only
  cases hp : p.pass? id with
  | none => exact refl_of Onward _
  | some pass =>
    have suits : (PassUse.change setter).Suits pass := hs pass hp
    obtain ⟨e, he, rfl⟩ := Option.map_eq_some_iff.1 hp
    have onward := Pass.onward_run (s := ⟨e.pass, h⟩) (.change setter) suits
    refine ⟨onward.later, fun used => ?_⟩
    have changed := onward.used (used e (List.mem_of_find?_eq_some he))
    exact (onward_modifyPass onward.later fun _ _ _ _ => changed).used used

theorem onward_addPass {pass : Pass} (hpass : Pass.Used ⟨pass, s.host⟩) (index : Option Nat) :
    Onward s (addPass pass index s).2 := by
  have fitted : Confined Pass.Onward (fitOut s.stage.setup s.stage.size) :=
    .bind (fun _ => Pass.onward_run (.configure _) trivial) fun _ _ => Pass.onward_run (.resize _ _) trivial
  have onward := fitted ⟨pass, s.host⟩
  rw [addPass_eq]
  cases s.stage.buffers with
  | none => exact refl_of Onward s
  | some buffers =>
    dsimp only
    rcases hf : fitOut s.stage.setup s.stage.size ⟨pass, s.host⟩ with ⟨e | _, q⟩ <;> rw [hf] at onward
    · -- a pass that cannot be set up is disposed of, and only the host changes
      exact Onwards.of_later s.stage.entries (trans_of Host.Later onward.later (Pass.onward_dispose q).later)
    · have reported := Pass.onward_report q [.passAdded q.stage.name
        (min (index.getD s.stage.entries.length) s.stage.entries.length)]
      have l := trans_of Host.Later onward.later reported.later
      refine ⟨l, fun used e he => ?_⟩
      rcases List.eq_or_mem_of_mem_insertIdx he with rfl | he
      · exact reported.used (onward.used hpass)
      · exact (used e he).elsewhere l

end Pipeline

/-! ## Uses -/

/-- What else may be done with a device leaves to the number of a program what it stood for. -/
theorem HostUse.later_run (u : HostUse) (h : Host) : h.Later (u.run h) := by
  cases u with
  | arm name after => exact refl_of Device.Later h.device
  | addScene scene => exact Device.later_of_programs_eq rfl (Nat.le_succ h.device.nextId)
  | removeScene scene => exact Device.later_of_programs_eq rfl (Nat.le_refl _)
  | upload target pixels => exact Device.later_upload target pixels h.device
  | setOutputSize width height => exact Host.later_issue _ _ (Device.later_setOutputSize width height) h
  | resizeTarget target width height => exact Host.serving_later.resizeTarget target width height h
  | clear target color depth => exact Host.later_clear target color depth h
  | renderScene draw => exact Host.later_renderScene draw h
  | drawFullscreen draw => exact Host.later_drawFullscreen draw h

namespace Pipeline

variable {s : Staged Pipeline}

/-- A pass that is added is one that can be had by itself, and a change suits the pass that it changes. -/
def PipelineOp.Suits (s : Staged Pipeline) : PipelineOp → Prop
  | addPass pass _ => Pass.Used ⟨pass, s.host⟩
  | changePass id setter => ∀ pass, s.stage.pass? id = some pass → setter.Suits pass
  | _ => True

theorem PipelineOp.onward_run {op : PipelineOp} (ha : op.Suits s) : Onward s (op.run s) := by
  cases op with
  | addPass pass index => exact onward_addPass ha index
  | removePass id => exact onward_removePass id s
  | setEnabled id enabled => exact onward_setEnabled s.stage id enabled s.host
  | changePass id setter => exact onward_changePass ha
  | resize width height => exact onward_resize width height s
  | render deltaTime => exact onward_render deltaTime s
  | dispose => exact onward_dispose s
  | useHost u => exact Onwards.of_later s.stage.entries (u.later_run s.host)

/-- The pipelines that have been made and used in any order, each with the host that it works on.  In between others may
use the host. -/
inductive Used : Staged Pipeline → Prop where
  | created {options : PipelineOptions} {h k : Host} {p : Pipeline} : create options h = (.ok p, k) → Used ⟨p, k⟩
  | used {s : Staged Pipeline} (op : PipelineOp) : Used s → op.Suits s → Used (op.run s)
  | elsewhere {p : Pipeline} {h k : Host} : Used ⟨p, h⟩ → h.Later k → Used ⟨p, k⟩

theorem entries_of_create {options : PipelineOptions} {h k : Host} {p : Pipeline}
    (hc : create options h = (.ok p, k)) : p.entries = [] := by
  have gives : Gives (fun p : Pipeline => p.entries = []) (create options) :=
    .bind fun _ => .bind fun _ => .bind fun _ => .bind fun _ => .pure rfl
  exact gives h p k hc

/-- The passes of a pipeline that can be had are passes that can be had by themselves. -/
theorem Used.pass (used : Used s) : AllUsed s.stage.entries s.host := by
  induction used with
  | created hc =>
    rw [entries_of_create hc]
    exact fun e he => absurd he List.not_mem_nil
  | used op _ suits ih => exact (PipelineOp.onward_run suits).used ih
  | elsewhere _ l ih => exact ih.later l

end Pipeline

end ScreenFusion
