import ScreenFusion.Pass
import ScreenFusion.Proofs.Host.Alike

/-!
# ScreenFusion.Proofs.Pass.Alike — no pass reads what was reported

Making a pass ready and running it give the same result, the same pass and alike hosts on hosts that differ at most in
what was reported.

* `Pass.respects_prepare`, `Pass.respects_render`: the two acts of a frame, for a pass of any kind.
-/

namespace ScreenFusion

open Act Staged

/-! ## Clear, scene and depth passes -/

theorem ClearPass.respects_render (io : PassIo) : Respects Staged.Alike (ClearPass.render io) := by
  refine .bind respects_get fun p => .ite (.pure ()) (respects_onHost (Host.respects_issue _ _ _))

theorem ScenePass.respects_render (io : PassIo) : Respects Staged.Alike (ScenePass.render io) :=
  .bind respects_get fun _ => respects_onHost (Host.respects_issue _ _ _)

theorem DepthPass.respects_render : Respects Staged.Alike DepthPass.render := by
  refine .bind (respects_modify _) fun _ => .bind respects_get fun p => ?_
  cases p.target with
  | none => exact .fail _
  | some target =>
    exact .bind (respects_onHost (Host.respects_issue _ _ _)) fun _ =>
      .bind (respects_onHost (Host.respects_issue _ _ _)) fun _ => respects_modify _

/-! ## Material passes -/

namespace MaterialPass

theorem respects_build : Respects Staged.Alike build :=
  .bind respects_get fun _ => .bind (respects_report _) fun _ => .bind (.ofExcept _) fun _ =>
    .bind (respects_onHost (Host.respects_issue _ _ _)) fun _ => .pure _

theorem respects_rebuild : Respects Staged.Alike rebuild := by
  refine .bind (.attempt respects_build) fun result => .bind (respects_modify _) fun _ => .bind respects_get fun p => ?_
  cases result with
  | ok compiled =>
    refine .bind (respects_modify _) fun _ => ?_
    cases p.compiled with
    | some old =>
      exact .bind (respects_releaseProgram _) fun _ => .bind (respects_modify _) fun _ => respects_report _
    | none => exact .bind (respects_modify _) fun _ => respects_report _
  | error e =>
    refine .ite ?_ ?_
    · exact .bind (respects_report _) fun _ => .bind (respects_modify _) fun _ => .fail e
    · exact .bind (respects_report _) fun _ => .bind (respects_modify _) fun _ => .bind (respects_modify _) fun _ =>
        .fail e

theorem respects_prepare : Respects Staged.Alike prepare := by
  refine .bind respects_get fun p => .ite (.fail _) (.ite respects_rebuild ?_)
  cases p.compiled with
  | some compiled => exact .pure ()
  | none =>
    cases p.lastError with
    | some e => exact .fail e
    | none => exact respects_rebuild

theorem respects_render (io : PassIo) (deltaTime : Binary32) : Respects Staged.Alike (render io deltaTime) := by
  refine .bind respects_prepare fun _ => .bind (respects_modify _) fun _ => .bind respects_get fun p => ?_
  cases p.compiled with
  | none => exact .fail _
  | some compiled => exact .bind respects_device fun _ => respects_onHost (Host.respects_issue _ _ _)

end MaterialPass

/-! ## Effect passes -/

namespace EffectPass

theorem respects_build (key : ProgramKey) : Respects Staged.Alike (build key) :=
  .bind respects_get fun _ => .bind (.ofExcept _) fun _ => .bind (respects_report _) fun _ =>
    .bind (.ofExcept _) fun _ => .bind (respects_onHost (Host.respects_issue _ _ _)) fun _ => .pure _

theorem respects_rebuild (key : ProgramKey) : Respects Staged.Alike (rebuild key) := by
  refine .bind (.attempt (respects_build key)) fun result => .bind (respects_modify _) fun _ =>
    .bind respects_get fun p => ?_
  cases result with
  | ok compiled =>
    refine .bind (respects_modify _) fun _ => ?_
    cases p.compiled with
    | some old =>
      exact .bind (respects_releaseProgram _) fun _ => .bind (respects_modify _) fun _ => respects_report _
    | none => exact .bind (respects_modify _) fun _ => respects_report _
  | error e =>
    refine .ite ?_ ?_
    · exact .bind (respects_report _) fun _ => .bind (respects_modify _) fun _ => .fail e
    · exact .bind (respects_report _) fun _ => .bind (respects_modify _) fun _ => .bind (respects_modify _) fun _ =>
        .fail e

theorem respects_commit : Respects Staged.Alike commit := by
  refine .bind respects_get fun p => .ite (.fail _) (.ite (.pure false) ?_)
  cases (if p.isDirty then none else p.lastError) with
  | some e => exact .fail e
  | none =>
    refine .ite ?_ ?_
    · exact .bind (respects_modify _) fun _ => .pure false
    · exact .bind (respects_rebuild p.key) fun _ => .pure true

theorem respects_render (io : PassIo) (deltaTime : Binary32) : Respects Staged.Alike (render io deltaTime) := by
  refine .bind respects_commit fun _ => .bind (respects_modify _) fun _ => .bind respects_get fun p => ?_
  cases p.compiled with
  | none => exact .fail _
  | some compiled => exact .bind respects_device fun _ => respects_onHost (Host.respects_issue _ _ _)

end EffectPass

/-! ## Passes of any kind -/

namespace Pass

theorem respects_within {P α : Type} {x : Act (Staged P) α} (wrap : P → Pass) (p : P)
    (hx : Respects Staged.Alike x) : Respects Staged.Alike (within wrap p x) := by
  intro s t h
  obtain ⟨hr, hs⟩ := hx ⟨p, s.host⟩ ⟨p, t.host⟩ ⟨rfl, h.host⟩
  exact ⟨hr, congrArg wrap hs.stage, hs.host⟩

theorem respects_prepare : Respects Staged.Alike prepare := by
  refine .bind respects_get fun p => ?_
  cases p with
  | clear p => exact .pure ()
  | scene p => exact .pure ()
  | depth p => exact .pure ()
  | material p => exact respects_within _ p MaterialPass.respects_prepare
  | effect p => exact respects_within _ p (.bind EffectPass.respects_commit fun _ => .pure ())

theorem respects_render (io : PassIo) (deltaTime : Binary32) : Respects Staged.Alike (render io deltaTime) := by
  refine .bind respects_get fun p => ?_
  cases p with
  | clear p => exact respects_within _ p (ClearPass.respects_render io)
  | scene p => exact respects_within _ p (ScenePass.respects_render io)
  | depth p => exact respects_within _ p DepthPass.respects_render
  | material p => exact respects_within _ p (MaterialPass.respects_render io deltaTime)
  | effect p => exact respects_within _ p (EffectPass.respects_render io deltaTime)

end Pass

end ScreenFusion
