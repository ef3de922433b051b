import ScreenFusion.Pass.Basic

/-!
# ScreenFusion.Proofs.Host.Failure — what commands to a device fail for

Only the making of a program fails for a configuration or a program.  Whatever else a device is told fails for a
resource.

* `Act.NoBuildError`: acts that do not fail for a configuration or a program.
* `Host.noBuildError_clear`, `Host.noBuildError_renderScene`, `Host.noBuildError_drawFullscreen`: the commands of a
  frame.
-/

namespace ScreenFusion

open Act

namespace Act

variable {σ α β : Type}

/-- The act does not fail for a configuration or a program. -/
def NoBuildError (x : Act σ α) : Prop := ∀ s e t, x s = (.error e, t) → e.isBuildError = false

namespace NoBuildError

theorem of_ok {x : Act σ α} {f : σ → α} (hx : ∀ s, (x s).1 = .ok (f s)) : NoBuildError x := by
  intro s e t h
  have hs := hx s
  rw [h] at hs
  cases hs

theorem pure (a : α) : NoBuildError (Pure.pure a : Act σ α) := .of_ok fun _ => rfl

theorem fail (cause : ResourceCause) : NoBuildError (Act.fail (.resource cause) : Act σ α) := by
  rintro s e t ⟨⟩
  rfl

theorem bind {x : Act σ α} {f : α → Act σ β} (hx : NoBuildError x) (hf : ∀ a, NoBuildError (f a)) :
    NoBuildError (x >>= f) := by
  intro s e u h
  rw [bind_apply] at h
  rcases hr : x s with ⟨e' | a, t⟩ <;> rw [hr] at h
  · cases h
    exact hx s e u hr
  · exact hf a t e u h

theorem ite {p : Prop} [Decidable p] {x y : Act σ α} (hx : NoBuildError x) (hy : NoBuildError y) :
    NoBuildError (if p then x else y) := by
  split
  · exact hx
  · exact hy

theorem get : NoBuildError (Act.get : Act σ σ) := .of_ok fun _ => rfl

theorem modify (f : σ → σ) : NoBuildError (Act.modify f) := .of_ok fun _ => rfl

end NoBuildError

end Act

namespace Device

theorem noBuildError_findPlane (target : Option Nat) : NoBuildError (findPlane target) := by
  refine .bind .get fun d => ?_
  intro s e t h
  cases target with
  | none => cases h
  | some n =>
    unfold plane at h
    cases hn : d.targets.get? n with
    | none =>
      simp only [hn] at h
      cases h
      rfl
    | some p =>
      simp only [hn] at h
      cases h

theorem noBuildError_clear (target : Option Nat) (color : Option (Rgba Float32)) (depth : Option Float32) :
    NoBuildError (clear target color depth) := .bind (noBuildError_findPlane target) fun _ => .modify _

theorem noBuildError_renderScene (draw : SceneDraw) : NoBuildError (renderScene draw) := by
  refine .bind .get fun d => ?_
  cases d.scenes.get? draw.scene with
  | none => exact .fail _
  | some scene =>
    refine .bind (noBuildError_findPlane draw.target) fun p => ?_
    cases draw.mode with
    | color => exact .modify _
    | depth => exact .bind (.ite (.pure ()) (.fail _)) fun _ => .modify _

theorem noBuildError_drawFullscreen (draw : FullscreenDraw) : NoBuildError (drawFullscreen draw) := by
  have find : NoBuildError (findProgram draw.program) := by
    refine .bind .get fun d => ?_
    cases d.programs.get? draw.program with
    | none => exact .fail _
    | some p => exact .pure p
  have bound (t : Option Nat) : NoBuildError (findBound t) := by
    cases t with
    | none => exact .pure none
    | some t => exact .bind (noBuildError_findPlane (some t)) fun p => .pure (some p)
  refine .bind find fun program => ?_
  cases unpackBlock? program.kinds draw.block with
  | none => exact .fail _
  | some values =>
    exact .bind (bound draw.input) fun _ => .bind (bound draw.depth) fun _ =>
      .bind (noBuildError_findPlane draw.output) fun _ => .modify _

end Device

theorem Host.noBuildError_issue {α : Type} (command : Command) (answer : α → Answer) {run : Act Device α}
    (hr : NoBuildError run) : NoBuildError (issue command answer run) := by
  intro h e k hk
  unfold issue at hk
  rcases hc : countDown command.name h.armed with ⟨fires, armed⟩
  rw [hc] at hk
  cases fires with
  | true =>
    cases hk
    rfl
  | false =>
    simp only [Bool.false_eq_true, if_false] at hk
    rcases hx : run h.device with ⟨e' | a, d⟩ <;> rw [hx] at hk
    · cases hk
      exact hr _ _ _ hx
    · cases hk

theorem Host.noBuildError_clear (target : Option Nat) (color : Option (Rgba Float32)) (depth : Option Float32) :
    NoBuildError (clear target color depth) := noBuildError_issue _ _ (Device.noBuildError_clear target color depth)

theorem Host.noBuildError_renderScene (draw : SceneDraw) : NoBuildError (renderScene draw) :=
  noBuildError_issue _ _ (Device.noBuildError_renderScene draw)

theorem Host.noBuildError_drawFullscreen (draw : FullscreenDraw) : NoBuildError (drawFullscreen draw) :=
  noBuildError_issue _ _ (Device.noBuildError_drawFullscreen draw)

theorem Staged.noBuildError_onHost {P α : Type} {x : Act Host α} (hx : NoBuildError x) :
    NoBuildError (Staged.onHost x : Act (Staged P) α) := by
  intro s e t h
  rcases hr : x s.host with ⟨r, k⟩
  rw [Staged.onHost_apply, hr] at h
  cases h
  exact hx _ _ _ hr

theorem Staged.noBuildError_get {P : Type} : NoBuildError (Staged.get : Act (Staged P) P) := .of_ok fun _ => rfl

theorem Staged.noBuildError_modify {P : Type} (f : P → P) : NoBuildError (Staged.modify f) := .of_ok fun _ => rfl

end ScreenFusion
