import ScreenFusion.Proofs.Device.Later
import ScreenFusion.Proofs.Pass.Setter
import ScreenFusion.Proofs.Pass.Writes

/-!
# ScreenFusion.Proofs.Pass.Along — what passes do to a host, act by act

All that a pass does to its host are reports and a few commands.  So a relation of hosts to which these keep is one to
which every act of a pass keeps.

* `Host.Serving`: relations to which the commands of passes keep.
* `Pass.along_configure`, `Pass.along_render`, `Pass.along_resize`, `Pass.along_dispose`, `PassSetter.along_run`: the
  acts of a pass.
* `Host.serving_later`: none of them changes what the number of a program stands for.
* `Host.Draws`, `Host.serving_draws`: none but renders runs a program.
-/

namespace ScreenFusion

open Act (Confined)

open Staged

namespace Host

/-- Reports, and the commands that passes give, keep to the relation; draws of programs need not. -/
structure Serving (R : Host → Host → Prop) : Prop extends Building R where
  clear : ∀ target color depth, Confined R (Host.clear target color depth)
  renderScene : ∀ draw, Confined R (Host.renderScene draw)
  createTarget : ∀ spec, Confined R (Host.createTarget spec)
  resizeTarget : ∀ target width height, Confined R (Host.resizeTarget target width height)
  releaseTarget : ∀ target h, R h (h.releaseTarget target).2

/-- What a number of a program stands for is left by all of them. -/
theorem serving_later : Serving Later where
  toBuilding := building_later
  clear := later_clear
  renderScene := later_renderScene
  createTarget spec := later_issue _ _ (Device.later_createTarget spec)
  resizeTarget target width height := later_issue _ _ (Device.later_resizeTarget target width height)
  releaseTarget target h := Device.later_releaseTarget target h.device

end Host

/-! ## Draws -/

/-- The draw that a command is. -/
def Command.draw? : Command → Option FullscreenDraw
  | drawFullscreen draw => some draw
  | _ => none

namespace Host

variable {h k l : Host} {draws draws' : List FullscreenDraw}

/-- The draws that a host has been given since. -/
def drawsSince (h k : Host) : List FullscreenDraw := (h.issuedSince k).filterMap (·.command.draw?)

/-- Between the two states of a host these draws were given. -/
def Draws (h : Host) (draws : List FullscreenDraw) (k : Host) : Prop :=
  ∃ calls events, h.Advanced calls events k ∧ calls.filterMap (·.command.draw?) = draws

theorem Draws.refl (h : Host) : h.Draws [] h := ⟨[], [], .refl h, rfl⟩

theorem Draws.trans (hk : h.Draws draws k) (kl : k.Draws draws' l) : h.Draws (draws ++ draws') l := by
  obtain ⟨calls, events, adv, rfl⟩ := hk
  obtain ⟨calls', events', adv', rfl⟩ := kl
  exact ⟨_, _, adv.trans adv', List.filterMap_append⟩

theorem Draws.drawsSince_eq (hk : h.Draws draws k) : h.drawsSince k = draws := by
  obtain ⟨calls, events, adv, rfl⟩ := hk
  rw [drawsSince, adv.issuedSince_eq]

instance : IsPreorder Host (Draws · []) where
  refl := Draws.refl
  trans _ _ _ := Draws.trans

theorem draws_issue {α : Type} {command : Command} (answer : α → Answer) (run : Act Device α) (h : Host) :
    h.Draws command.draw?.toList (issue command answer run h).2 := by
  refine ⟨_, _, advanced_issue command answer run h, ?_⟩
  cases hd : command.draw? with
  | none => exact List.filterMap_cons_none hd
  | some draw => exact List.filterMap_cons_some hd

theorem draws_drawFullscreen (draw : FullscreenDraw) (h : Host) : h.Draws [draw] (drawFullscreen draw h).2 :=
  draws_issue _ _ h

/-- No report and no other command runs a program. -/
theorem serving_draws : Serving (Draws · []) where
  report h events := ⟨[], events, advanced_report h events, rfl⟩
  compile _ h := draws_issue _ _ h
  release _ h := ⟨_, _, advanced_recordCall h _ h.armed _ _, rfl⟩
  clear _ _ _ h := draws_issue _ _ h
  renderScene _ h := draws_issue _ _ h
  createTarget _ h := draws_issue _ _ h
  resizeTarget _ _ _ h := draws_issue _ _ h
  releaseTarget _ h := ⟨_, _, advanced_recordCall h _ h.armed _ _, rfl⟩

end Host

variable {R : Host → Host → Prop} [IsPreorder Host R]

/-! ## Passes without a program -/

theorem ClearPass.along_render (serving : Host.Serving R) (io : PassIo) : Confined (Along R) (ClearPass.render io) :=
  .bind along_get fun _ => .ite (.pure ()) (along_onHost (serving.clear _ _ _))

theorem ScenePass.along_render (serving : Host.Serving R) (io : PassIo) : Confined (Along R) (ScenePass.render io) :=
  .bind along_get fun _ => along_onHost (serving.renderScene _)

namespace DepthPass

theorem size_pos (p : DepthPass) : 0 < p.size.1 ∧ 0 < p.size.2 := p.resolution.params.effectiveSize_pos

theorem along_render (hclear : ∀ target color depth, Confined R (Host.clear target color depth))
    (hscene : ∀ draw, Confined R (Host.renderScene draw)) : Confined (Along R) render := by
  refine .bind (along_modify _) fun _ => .bind along_get fun p => ?_
  cases p.target with
  | none => exact .fail _
  | some target =>
    exact .bind (along_onHost (hclear _ _ _)) fun _ => .bind (along_onHost (hscene _)) fun _ => along_modify _

theorem along_configure (hr : ∀ h events, R h (h.report events))
    (hcreate : ∀ spec, 0 < spec.width → 0 < spec.height → Confined R (Host.createTarget spec)) :
    Confined (Along R) configure := by
  refine .bind along_get fun p => .ite (.fail _) (.ite (.pure ()) (.bind along_device fun d => ?_))
  refine .bind (along_modify _) fun _ => .bind (along_onHost (hcreate _ (size_pos _).1 (size_pos _).2)) fun _ => ?_
  exact .bind (along_modify _) fun _ => along_report hr _

theorem along_refit (hr : ∀ h events, R h (h.report events))
    (hresize : ∀ target width height, 0 < width → 0 < height → Confined R (Host.resizeTarget target width height))
    (p : DepthPass) : Confined (Along R) (refit p) := by
  unfold refit
  cases p.target with
  | none => exact .pure ()
  | some target =>
    refine .bind along_device fun d => .ite (.pure ()) (.bind (along_modify _) fun _ => ?_)
    exact .bind (along_onHost (hresize _ _ _ p.size_pos.1 p.size_pos.2)) fun _ => along_report hr _

theorem along_resize (hr : ∀ h events, R h (h.report events))
    (hresize : ∀ target width height, 0 < width → 0 < height → Confined R (Host.resizeTarget target width height))
    (width height : Nat) : Confined (Along R) (resize width height) := by
  intro s
  let p := (s.stage.rebased width height).2
  let p' : DepthPass := { p with rendered := p.rendered && !(s.stage.rebased width height).1 }
  exact along_refit hr hresize p ⟨p', s.host⟩

theorem along_dispose (hrelease : ∀ target h, R h (h.releaseTarget target).2) : Confined (Along R) dispose := by
  refine .bind along_get fun p => .ite (.pure false) (.bind (along_modify _) fun _ => ?_)
  have hrest : Confined (Along R) (do
      Staged.modify fun p : DepthPass => { p with resolution := p.resolution.unsubscribe p.watcher }
      return true : Act (Staged DepthPass) Bool) := .bind (along_modify _) fun _ => .pure true
  cases p.target with
  | none => exact hrest
  | some target => exact .bind (along_release (hrelease target)) fun _ => hrest

end DepthPass

/-! ## Passes that run programs -/

theorem MaterialPass.along_dispose (building : Host.Building R) : Confined (Along R) MaterialPass.dispose := by
  refine .bind along_get fun p => .ite (.pure false) (.bind (along_modify _) fun _ => ?_)
  cases p.compiled with
  | none => exact .pure true
  | some compiled => exact .bind (along_release (building.release _)) fun _ => .pure true

theorem EffectPass.along_dispose (building : Host.Building R) : Confined (Along R) EffectPass.dispose := by
  refine .bind along_get fun p => .ite (.pure false) (.bind (along_modify _) fun _ => ?_)
  have hrest : Confined (Along R) (do
      Staged.modify fun q : EffectPass => { q with effects := (disposeEffects p.effects).2 }
      Staged.report ((disposeEffects p.effects).1 ++ [.passDisposed p.name])
      return true : Act (Staged EffectPass) Bool) :=
    .bind (along_modify _) fun _ => .bind (along_report building.report _) fun _ => .pure true
  cases p.compiled with
  | none => exact hrest
  | some compiled => exact .bind (along_release (building.release _)) fun _ => hrest

open EffectPass in
theorem EffectPassOp.along_setter (hr : ∀ h events, R h (h.report events)) {op : EffectPassOp} (hs : op.isSetter = true) :
    Confined (Along R) op.run := by
  have insertion (index : Nat) (e : Effect) : Confined (Along R) (insertEffect index e) :=
    .bind along_get fun _ => .bind (.ofExcept _) fun _ => .bind (along_report hr _) fun _ => along_modify _
  have change (id : Nat) (c : EffectChange) : Confined (Along R) (changeEffect id c) := by
    refine .bind along_get fun p => ?_
    cases p.effect? id with
    | none => exact .pure ()
    | some e => exact .bind (along_report hr _) fun _ => along_modify _
  cases op with
  | insert index e => exact insertion index e
  | add e => exact .bind along_get fun p => insertion _ e
  | remove id => exact along_modify _
  | replace effects =>
    exact .bind along_get fun p => .bind (.ofExcept _) fun _ => along_modify _
  | attributes id a =>
    refine .bind along_get fun p => ?_
    cases p.effect? id with
    | none => exact .fail _
    | some e =>
      refine .bind (along_modify _) fun _ => .bind along_get fun q => ?_
      cases checkMembers p.name q.effects with
      | ok _ => exact .pure ()
      | error err => exact .bind (along_modify _) fun _ => .fail err
  | change id c => exact change id c
  | changeNamed name c =>
    refine .bind along_get fun p => ?_
    cases p.effectByName? name with
    | none => exact .pure ()
    | some e => exact change e.id c
  | camera planes => exact along_modify _
  | settings s => exact along_modify _
  | configure setup => cases hs
  | commit => cases hs
  | render io deltaTime => cases hs
  | dispose => cases hs

open EffectPass in
theorem EffectPassOp.along_run (serving : Host.Serving R) (drawing : ∀ draw, Confined R (Host.drawFullscreen draw))
    (op : EffectPassOp) : Confined (Along R) op.run := by
  cases hs : op.isSetter with
  | true => exact along_setter serving.report hs
  | false =>
    cases op with
    | configure setup => exact along_modify _
    | commit => exact .bind (along_commit serving.toBuilding) fun _ => .pure ()
    | render io deltaTime => exact EffectPass.along_render serving.toBuilding (fun _ _ => drawing _) _
    | dispose => exact .bind (EffectPass.along_dispose serving.toBuilding) fun _ => .pure ()
    | _ => cases hs

/-! ## Passes of any kind -/

theorem PassSetter.along_run (hr : ∀ h events, R h (h.report events)) {setter : PassSetter} (ha : setter.Admissible) :
    Confined (Along R) setter.run := by
  cases setter with
  | effects op =>
    refine .bind along_get fun p => ?_
    cases p with
    | effect p => exact Pass.along_within _ p (EffectPassOp.along_setter hr ha)
    | _ => exact .pure ()
  | _ => exact along_modify _

namespace Pass

theorem along_configure (serving : Host.Serving R) (setup : Setup) : Confined (Along R) (configure setup) := by
  refine .bind along_get fun p => ?_
  cases p with
  | clear p => exact .pure ()
  | scene p => exact .pure ()
  | depth p => exact along_within _ p (DepthPass.along_configure serving.report fun spec _ _ => serving.createTarget spec)
  | material p => exact along_within _ p (along_modify _)
  | effect p => exact along_within _ p (along_modify _)

theorem along_render (serving : Host.Serving R) (drawing : ∀ draw, Confined R (Host.drawFullscreen draw)) (io : PassIo)
    (deltaTime : Binary32) : Confined (Along R) (render io deltaTime) := by
  refine .bind along_get fun p => ?_
  cases p with
  | clear p => exact along_within _ p (ClearPass.along_render serving io)
  | scene p => exact along_within _ p (ScenePass.along_render serving io)
  | depth p => exact along_within _ p (DepthPass.along_render serving.clear serving.renderScene)
  | material p =>
    exact along_within _ p (MaterialPass.along_render serving.toBuilding (fun _ _ => drawing _) _)
  | effect p =>
    exact along_within _ p (EffectPass.along_render serving.toBuilding (fun _ _ => drawing _) _)

theorem along_resize (hr : ∀ h events, R h (h.report events))
    (hresize : ∀ target width height, Confined R (Host.resizeTarget target width height)) (width height : Nat) :
    Confined (Along R) (resize width height) := by
  refine .bind along_get fun p => ?_
  cases p with
  | depth p => exact along_within _ p (DepthPass.along_resize hr (fun _ _ _ _ _ => hresize _ _ _) width height)
  | _ => exact .pure ()

theorem along_dispose (serving : Host.Serving R) : Confined (Along R) dispose := by
  refine .bind along_get fun p => ?_
  cases p with
  | clear p => exact along_within _ p (.bind along_get fun _ => .bind (along_modify _) fun _ => .pure _)
  | scene p => exact along_within _ p (.bind along_get fun _ => .bind (along_modify _) fun _ => .pure _)
  | depth p => exact along_within _ p (DepthPass.along_dispose serving.releaseTarget)
  | material p => exact along_within _ p (MaterialPass.along_dispose serving.toBuilding)
  | effect p => exact along_within _ p (EffectPass.along_dispose serving.toBuilding)

end Pass

end ScreenFusion
