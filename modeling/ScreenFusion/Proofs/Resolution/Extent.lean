import ScreenFusion.Proofs.Pass.Along

/-!
# ScreenFusion.Proofs.Resolution.Extent — sizes are never empty

A resolution treats width and height alike, and whatever its parameters are, its size is at least one by one.  So a depth
pass asks its device for buffers that have texels, whatever is done to the pass and to its resolution meanwhile.

* `Command.HasExtent`: a command asks for no buffer without texels.
* `DepthPassOp`: what can happen to a depth pass, as data.
* `effectiveSize_symmetric_pos`: sizes, and what depth passes ask for.
-/

namespace ScreenFusion

open Act (Confined)

open Staged

/-- A command that asks for a buffer asks for one with texels. -/
def Command.HasExtent : Command → Prop
  | createTarget spec => 0 < spec.width ∧ 0 < spec.height
  | resizeTarget _ width height => 0 < width ∧ 0 < height
  | _ => True

namespace Host

/-- All commands between two states of a host ask for buffers with texels. -/
def AsksExtent (h k : Host) : Prop := ∃ calls events, h.Advanced calls events k ∧ ∀ c ∈ calls, c.command.HasExtent

instance : IsPreorder Host AsksExtent where
  refl h := ⟨[], [], .refl h, nofun⟩
  trans := by
    rintro _ _ _ ⟨calls, events, adv, hcalls⟩ ⟨calls', events', adv', hcalls'⟩
    exact ⟨_, _, adv.trans adv', List.forall_mem_append.2 ⟨hcalls, hcalls'⟩⟩

theorem AsksExtent.issuedSince {h k : Host} (asks : h.AsksExtent k) :
    ∀ call ∈ h.issuedSince k, call.command.HasExtent := by
  obtain ⟨calls, events, adv, hcalls⟩ := asks
  rw [adv.issuedSince_eq]
  exact hcalls

theorem asksExtent_report (h : Host) (events : List Event) : h.AsksExtent (h.report events) :=
  ⟨[], events, advanced_report h events, nofun⟩

theorem asksExtent_issue {α : Type} (command : Command) (hc : command.HasExtent) (answer : α → Answer)
    (run : Act Device α) : Confined AsksExtent (issue command answer run) := fun h =>
  ⟨_, _, advanced_issue command answer run h, List.forall_mem_singleton.2 hc⟩

theorem asksExtent_createTarget (spec : TargetSpec) (hw : 0 < spec.width) (hh : 0 < spec.height) :
    Confined AsksExtent (createTarget spec) := asksExtent_issue (.createTarget spec) ⟨hw, hh⟩ _ _

theorem asksExtent_resizeTarget (target width height : Nat) (hw : 0 < width) (hh : 0 < height) :
    Confined AsksExtent (resizeTarget target width height) :=
  asksExtent_issue (.resizeTarget target width height) ⟨hw, hh⟩ _ _

theorem asksExtent_releaseTarget (target : Nat) (h : Host) : h.AsksExtent (h.releaseTarget target).2 :=
  ⟨_, _, advanced_recordCall h _ h.armed _ _, List.forall_mem_singleton.2 trivial⟩

end Host

/-- What can happen to a depth pass: that it is used, and that its fields or its resolution change in any way. -/
inductive DepthPassOp where
  | configure
  | resize (width height : Nat)
  | render
  | dispose
  | change (f : DepthPass → DepthPass)

namespace DepthPassOp

/-- One operation. -/
def run : DepthPassOp → Act (Staged DepthPass) Unit
  | configure => DepthPass.configure
  | resize width height => DepthPass.resize width height
  | render => DepthPass.render
  | dispose => do let _ ← DepthPass.dispose
  | change f => Staged.modify f

theorem asksExtent_run (op : DepthPassOp) : Confined (Along Host.AsksExtent) op.run := by
  cases op with
  | configure => exact DepthPass.along_configure Host.asksExtent_report Host.asksExtent_createTarget
  | resize width height =>
    exact DepthPass.along_resize Host.asksExtent_report Host.asksExtent_resizeTarget width height
  | render =>
    exact DepthPass.along_render (fun _ _ _ => Host.asksExtent_issue (.clear ..) trivial _ _)
      fun _ => Host.asksExtent_issue (.renderScene _) trivial _ _
  | dispose => exact .bind (DepthPass.along_dispose Host.asksExtent_releaseTarget) fun _ => .pure ()
  | change f => exact along_modify f

/-- Operations one after another, also after one that failed. -/
def runAll (ops : List DepthPassOp) (s : Staged DepthPass) : Staged DepthPass := ops.foldl (fun s op => (op.run s).2) s

theorem asksExtent_runAll (ops : List DepthPassOp) (s : Staged DepthPass) :
    s.host.AsksExtent (runAll ops s).host := by
  induction ops generalizing s with
  | nil => exact refl_of Host.AsksExtent s.host
  | cons op ops ih => exact trans_of Host.AsksExtent (asksExtent_run op s) (ih (op.run s).2)

end DepthPassOp

/-- The size of a resolution is at least one by one, exchanging width and height of the parameters exchanges them in the
size, and a depth pass never asks for a buffer without texels. -/
theorem effectiveSize_symmetric_pos :
    (∀ p : ResolutionParams, 1 ≤ p.effectiveSize.1 ∧ 1 ≤ p.effectiveSize.2 ∧
      p.swap.effectiveSize = p.effectiveSize.swap) ∧
    ∀ (ops : List DepthPassOp) (s : Staged DepthPass),
      ∀ call ∈ s.host.issuedSince (DepthPassOp.runAll ops s).host, call.command.HasExtent := by
  refine ⟨fun p => ?_, fun ops s => (DepthPassOp.asksExtent_runAll ops s).issuedSince⟩
  obtain ⟨hw, hh⟩ := p.effectiveSize_pos
  exact ⟨UInt32.le_iff_toNat_le.2 hw, UInt32.le_iff_toNat_le.2 hh, p.effectiveSize_swap⟩

end ScreenFusion
