import ScreenFusion.Proofs.Pass.Builder

/-!
# ScreenFusion.Proofs.Pass.Writes — where passes write

A pass that draws colours writes to one place, that a pass gets from the buffers it sees; a depth pass fills its own
target.

* `Pass.destination`: where a pass writes.
* `Command.Paints`: the commands of a pass that draws colours.
* `DepthPass.commands`, `Pass.render_depth_ok`: those of a depth pass, in order.
* `Pass.Issues`, `Pass.only_render`: the commands of a pass of any kind.
-/

namespace ScreenFusion

open Act (Confined)

open Staged

variable {io : PassIo} {deltaTime : Binary32} {h k : Host}

/-! ## Passes that draw colours -/

/-- The commands of a pass that draws colours, with the buffers that it sees and the place where it writes. -/
inductive Command.Paints (io : PassIo) (destination : Option Nat) : Command → Prop where
  | program {c : Command} : c.isAboutProgram = true → Paints io destination c
  | clear (color : Option (Rgba Float32)) (depth : Option Float32) :
      Paints io destination (.clear destination color depth)
  | scene {draw : SceneDraw} : draw.mode = .color → draw.target = destination →
      Paints io destination (.renderScene draw)
  | fullscreen {draw : FullscreenDraw} : draw.input = some io.input → draw.depth = io.depth → draw.output = io.output →
      io.output = destination → Paints io destination (.drawFullscreen draw)

namespace Command

/-- Whether the command renders the depth of a scene. -/
def rendersDepth : Command → Bool
  | renderScene draw => draw.mode == .depth
  | _ => false

theorem rendersDepth_of_isAboutProgram {c : Command} (hc : c.isAboutProgram = true) : c.rendersDepth = false := by
  cases c <;> first | rfl | cases hc

theorem ne_releaseTarget_of_isAboutProgram {c : Command} (hc : c.isAboutProgram = true) (n : Nat) :
    c ≠ .releaseTarget n := by
  rintro rfl
  cases hc

namespace Paints

variable {destination : Option Nat} {c : Command}

theorem eq_destination (paints : Paints io destination c) {b : Option Nat} (hb : c.buffer? = some b) :
    b = destination := by
  cases paints with
  | program hc =>
    rw [buffer?_of_isAboutProgram hc] at hb
    cases hb
  | clear color depth => exact (Option.some.inj hb).symm
  | scene _ ht => exact (Option.some.inj hb).symm.trans ht
  | fullscreen _ _ ho hd => exact (Option.some.inj hb).symm.trans (ho.trans hd)

theorem ne_releaseTarget (paints : Paints io destination c) (n : Nat) : c ≠ .releaseTarget n := by
  cases paints with
  | program hc => exact ne_releaseTarget_of_isAboutProgram hc n
  | clear color depth => exact nofun
  | scene _ _ => exact nofun
  | fullscreen _ _ _ _ => exact nofun

theorem rendersDepth (paints : Paints io destination c) : c.rendersDepth = false := by
  cases paints with
  | program hc => exact rendersDepth_of_isAboutProgram hc
  | clear color depth => rfl
  | @scene draw hm _ =>
    show (draw.mode == .depth) = false
    rw [hm]
    rfl
  | fullscreen _ _ _ _ => rfl

end Paints

end Command

open Command (Paints)

theorem ClearPass.only_render (io : PassIo) : Confined (Only (Paints io io.inPlaceTarget)) (ClearPass.render io) :=
  .bind only_get fun _ => .ite (.pure ()) (only_onHost (Host.only_clear (.clear _ _)))

theorem ScenePass.only_render (io : PassIo) : Confined (Only (Paints io io.inPlaceTarget)) (ScenePass.render io) :=
  .bind only_get fun _ => only_onHost (Host.only_renderScene (.scene rfl rfl))

section Along

variable {R : Host → Host → Prop} [IsPreorder Host R]

/-- A render of a pass with a program is a build, if one is due, and a draw. -/
theorem MaterialPass.along_render (building : Host.Building R)
    (drawing : ∀ program block, Confined R (Host.drawFullscreen ⟨program, block, some io.input, io.depth, io.output⟩))
    (deltaTime : Binary32) : Confined (Along R) (MaterialPass.render io deltaTime) := by
  refine .bind (along_prepare building) fun _ => .bind (along_modify _) fun _ => .bind along_get fun p => ?_
  cases p.compiled with
  | none => exact .fail _
  | some compiled => exact .bind along_device fun _ => along_onHost (drawing _ _)

theorem EffectPass.along_render (building : Host.Building R)
    (drawing : ∀ program block, Confined R (Host.drawFullscreen ⟨program, block, some io.input, io.depth, io.output⟩))
    (deltaTime : Binary32) : Confined (Along R) (EffectPass.render io deltaTime) := by
  refine .bind (along_commit building) fun _ => .bind (along_modify _) fun _ => .bind along_get fun p => ?_
  cases p.compiled with
  | none => exact .fail _
  | some compiled => exact .bind along_device fun _ => along_onHost (drawing _ _)

end Along

theorem Host.building_paints (io : PassIo) (destination : Option Nat) :
    Host.Building (Host.Only (Paints io destination)) :=
  ⟨Host.Only.report, fun source h => (Host.building_only.compile source h).weaken fun _ => .program,
    fun program h => (Host.building_only.release program h).weaken fun _ => .program⟩

theorem MaterialPass.only_render (io : PassIo) (deltaTime : Binary32) :
    Confined (Only (Paints io io.output)) (MaterialPass.render io deltaTime) :=
  along_render (Host.building_paints io io.output) (fun _ _ => Host.only_drawFullscreen (.fullscreen rfl rfl rfl rfl))
    deltaTime

theorem EffectPass.only_render (io : PassIo) (deltaTime : Binary32) :
    Confined (Only (Paints io io.output)) (EffectPass.render io deltaTime) :=
  along_render (Host.building_paints io io.output) (fun _ _ => Host.only_drawFullscreen (.fullscreen rfl rfl rfl rfl))
    deltaTime

/-! ## Depth passes -/

theorem Host.advanced_of_issue_ok {α : Type} {command : Command} {answer : α → Answer} {run : Act Device α} {a : α}
    (hi : issue command answer run h = (.ok a, k)) : h.Advanced [⟨command, answer a⟩] [] k := by
  have adv := advanced_issue command answer run h
  rw [hi] at adv
  exact adv

namespace DepthPass

variable {p q : DepthPass}

/-- What a depth pass with a target gives the device to do, in order: it clears the target, and draws depth into it. -/
def commands (p : DepthPass) (target : Nat) : List Command :=
  [.clear (some target) none (some 1), .renderScene ⟨p.scene, p.layers, .depth, some target, none⟩]

theorem buffer?_of_mem_commands {target : Nat} {c : Command} (hc : c ∈ p.commands target) :
    c.buffer? = some (some target) := by
  rcases List.mem_cons.1 hc with rfl | hc
  · rfl
  · rw [List.mem_singleton.1 hc]
    rfl

theorem ne_releaseTarget_of_mem_commands {target : Nat} {c : Command} (hc : c ∈ p.commands target) (n : Nat) :
    c ≠ .releaseTarget n := by
  rcases List.mem_cons.1 hc with rfl | hc
  · exact nofun
  · rw [List.mem_singleton.1 hc]
    exact nofun

/-- A depth pass gives only these commands, and none without a target. -/
theorem only_render (p : DepthPass) (h : Host) :
    h.Only (fun c => ∃ target, p.target = some target ∧ c ∈ p.commands target) (render ⟨p, h⟩).2.host := by
  unfold render
  rw [Act.bind_of_ok (modify_apply _ _), Act.bind_of_ok (get_apply _)]
  dsimp only
  cases ht : p.target with
  | none => exact .refl h
  | some target =>
    have only : Confined (Only (· ∈ p.commands target)) (do
        Staged.onHost (Host.clear (some target) none (some 1))
        Staged.onHost (Host.renderScene ⟨p.scene, p.layers, .depth, some target, none⟩)
        Staged.modify fun p => { p with rendered := true } : Act (Staged DepthPass) Unit) := by
      refine .bind (only_onHost (Host.only_clear List.mem_cons_self)) fun _ => ?_
      refine .bind (only_onHost (Host.only_renderScene ?_)) fun _ => only_modify _
      exact List.mem_cons_of_mem _ List.mem_cons_self
    exact Host.Only.weaken (only ⟨{ p with rendered := false, target := some target }, h⟩) fun c hc => ⟨target, rfl, hc⟩

/-- A depth pass that has run has a target, has cleared it and has drawn depth into it. -/
theorem render_ok (hr : render ⟨p, h⟩ = (.ok (), ⟨q, k⟩)) : ∃ target, p.target = some target ∧
    q = { p with rendered := true } ∧ h.Advanced ((p.commands target).map fun c => ⟨c, .done⟩) [] k := by
  unfold render at hr
  rw [Act.bind_of_ok (modify_apply _ _), Act.bind_of_ok (get_apply _)] at hr
  dsimp only at hr
  cases ht : p.target with
  | none =>
    rw [ht] at hr
    cases hr
  | some target =>
    rw [ht] at hr
    dsimp only at hr
    rw [Act.bind_apply, onHost_apply] at hr
    rcases hc : Host.clear (some target) none (some 1) h with ⟨e | _, l⟩ <;> rw [hc] at hr
    · cases hr
    · dsimp only at hr
      rw [Act.bind_apply, onHost_apply] at hr
      rcases hs : Host.renderScene ⟨p.scene, p.layers, .depth, some target, none⟩ l with ⟨e | _, k'⟩ <;> rw [hs] at hr
      · cases hr
      · cases hr
        exact ⟨target, rfl, rfl, (Host.advanced_of_issue_ok hc).trans (Host.advanced_of_issue_ok hs)⟩

end DepthPass

/-! ## Passes of any kind -/

namespace Pass

variable {p : Pass}

/-- Where a pass writes, with the buffers that it sees: in place, into the write buffer, or into its own target. -/
def destination (io : PassIo) : Pass → Option Nat
  | clear _ | scene _ => io.inPlaceTarget
  | material _ | effect _ => io.output
  | depth p => p.target

theorem destination_of_isDepthProducer (hp : p.isDepthProducer = true) (io : PassIo) :
    p.destination io = Holder.target? p := by
  cases p with
  | depth p => rfl
  | _ => cases hp

/-- The commands of a pass in its render. -/
inductive Issues (io : PassIo) : Pass → Command → Prop where
  | paints {p : Pass} {c : Command} : p.isDepthProducer = false → Paints io (p.destination io) c → Issues io p c
  | depth {p : DepthPass} {target : Nat} {c : Command} : p.target = some target → c ∈ p.commands target →
      Issues io (.depth p) c

/-- A pass gives only these commands in its render. -/
theorem only_render (io : PassIo) (deltaTime : Binary32) (p : Pass) (h : Host) :
    h.Only (p.Issues io) (render io deltaTime ⟨p, h⟩).2.host := by
  have painting {k : Host} (hp : p.isDepthProducer = false) (only : h.Only (Paints io (p.destination io)) k) :
      h.Only (p.Issues io) k := only.weaken fun _ => .paints hp
  cases p with
  | clear p => exact painting rfl (ClearPass.only_render io ⟨p, h⟩)
  | scene p => exact painting rfl (ScenePass.only_render io ⟨p, h⟩)
  | depth p =>
    refine Host.Only.weaken (DepthPass.only_render p h) fun c hc => ?_
    obtain ⟨target, ht, hc⟩ := hc
    exact .depth ht hc
  | material p => exact painting rfl (MaterialPass.only_render io deltaTime ⟨p, h⟩)
  | effect p => exact painting rfl (EffectPass.only_render io deltaTime ⟨p, h⟩)

namespace Issues

variable {c : Command}

theorem eq_destination (issues : p.Issues io c) {b : Option Nat} (hb : c.buffer? = some b) : b = p.destination io := by
  cases issues with
  | paints _ paints => exact paints.eq_destination hb
  | depth ht hc =>
    rw [DepthPass.buffer?_of_mem_commands hc] at hb
    exact (Option.some.inj hb).symm.trans ht.symm

theorem ne_releaseTarget (issues : p.Issues io c) (n : Nat) : c ≠ .releaseTarget n := by
  cases issues with
  | paints _ paints => exact paints.ne_releaseTarget n
  | depth _ hc => exact DepthPass.ne_releaseTarget_of_mem_commands hc n

theorem rendersDepth (issues : p.Issues io c) (hp : p.isDepthProducer = false) : c.rendersDepth = false := by
  cases issues with
  | paints _ paints => exact paints.rendersDepth
  | depth _ _ => cases hp

end Issues

theorem render_depth_ok {p : DepthPass} {s : Staged Pass} (hr : render io deltaTime ⟨.depth p, h⟩ = (.ok (), s)) :
    ∃ target, p.target = some target ∧ s.stage = .depth { p with rendered := true } ∧
      h.Advanced ((p.commands target).map fun c => ⟨c, .done⟩) [] s.host := by
  have hr : within .depth p DepthPass.render ⟨.depth p, h⟩ = (.ok (), s) := hr
  unfold within at hr
  rcases hp : DepthPass.render ⟨p, h⟩ with ⟨r, q, k⟩
  rw [hp] at hr
  cases hr
  obtain ⟨target, ht, hq, adv⟩ := DepthPass.render_ok hp
  exact ⟨target, ht, congrArg depth hq, adv⟩

end Pass

end ScreenFusion
