import ScreenFusion.Proofs.Pass.Lasting

/-!
# ScreenFusion.Proofs.Pass.Resizing — what becomes of a pass that is told a size

The size that a pass is told matters only to depth passes: it becomes the base of the pass's resolution, and the buffer
of the pass is given the size that follows from it, whether or not the resolution was that before.  A buffer that the
device has lost makes the pass fail, and the next time the pass tries again.

* `Fitting`: a target and the size that is wanted of it.
* `Host.Fitted`: what targets that were to be given sizes have, and the calls that were made for it.
* `DepthPass.sizeFor`, `Pass.fitting?`: what a pass wants.
* `Pass.Told`, `Pass.resize_outcome`: what becomes of a pass, its target and the host.
-/

namespace ScreenFusion

open Holder Staged

/-! ## Sizes -/

namespace ResolutionParams

/-- The parameters with another base size. -/
def withBase (p : ResolutionParams) (width height : UInt32) : ResolutionParams :=
  { p with baseWidth := width, baseHeight := height }

end ResolutionParams

theorem Resolution.params_setBase (r : Resolution) (width height : UInt32) :
    (r.setBase width height).2.params = r.params.withBase width height := by
  unfold setBase update
  split <;> rfl

namespace DepthPass

/-- The size of the buffer when the pipeline has a size. -/
def sizeFor (p : DepthPass) (width height : UInt32) : Nat × Nat :=
  let (w, h) := (p.resolution.params.withBase width height).effectiveSize
  (w.toNat, h.toNat)

theorem params_rebased (p : DepthPass) (width height : UInt32) :
    (p.rebased width.toNat height.toNat).2.resolution.params = p.resolution.params.withBase width height := by
  show (p.resolution.setBase (UInt32.ofNat width.toNat) (UInt32.ofNat height.toNat)).2.params = _
  rw [UInt32.ofNat_toNat, UInt32.ofNat_toNat, Resolution.params_setBase]

end DepthPass

/-! ## Targets that are to have sizes -/

/-- A target and the size that is wanted of it. -/
structure Fitting where
  target : Nat
  size : Nat × Nat

namespace Fitting

variable {d d' : Device} {f : Fitting} {fs : List Fitting}

/-- The device does not have the target. -/
def isLost (d : Device) (f : Fitting) : Bool := (d.targetSize? f.target).isNone

/-- The call that asks for the size. -/
def call (d : Device) (f : Fitting) : Call :=
  ⟨.resizeTarget f.target f.size.1 f.size.2, if f.isLost d then .failed else .done⟩

/-- The call of a pass, which leaves a target alone that has the size. -/
def call? (d : Device) (f : Fitting) : Option Call :=
  if d.targetSize? f.target = some f.size then none else some (f.call d)

/-- The first failure, if there is one. -/
def fault? (d : Device) (fs : List Fitting) : Option Error :=
  (fs.find? (isLost d)).map fun f => .resource (.unknownTarget f.target)

theorem isLost_congr (hd : d'.targetSize? f.target = d.targetSize? f.target) : f.isLost d' = f.isLost d :=
  congrArg Option.isNone hd

theorem call?_congr (hd : d'.targetSize? f.target = d.targetSize? f.target) : f.call? d' = f.call? d := by
  unfold call? call
  rw [hd, isLost_congr hd]

theorem fault?_congr (hd : ∀ f ∈ fs, f.isLost d' = f.isLost d) : fault? d' fs = fault? d fs := by
  induction fs with
  | nil => rfl
  | cons f fs ih =>
    obtain ⟨hf, hfs⟩ := List.forall_mem_cons.1 hd
    have hrest := ih hfs
    unfold fault? at hrest ⊢
    rw [List.find?_cons, List.find?_cons, hf]
    split
    · rfl
    · exact hrest

theorem fault?_append (d : Device) (fs gs : List Fitting) : fault? d (fs ++ gs) = (fault? d fs).or (fault? d gs) := by
  unfold fault?
  rw [List.find?_append, Option.map_or]

end Fitting

namespace Device

theorem targetSize?_setPlane (d : Device) (target n : Nat) (p : Plane) :
    (d.setPlane (some target) p).targetSize? n = if n = target then some (p.width, p.height) else d.targetSize? n := by
  unfold targetSize? setPlane
  dsimp only
  rw [Table.get?_insert]
  split <;> rfl

theorem checkSize_ok {width height : Nat} (label : String) (hw : 0 < width) (hh : 0 < height) (d : Device) :
    checkSize label width height d = (.ok (), d) := by
  unfold checkSize Act.require
  rw [if_pos (by simp [hw, hh])]
  rfl

/-- A size that a buffer can have is given to a target, if the device has it. -/
theorem resizeTarget_eq {width height : Nat} (hw : 0 < width) (hh : 0 < height) (target : Nat) (d : Device) :
    resizeTarget target width height d = match d.targets.get? target with
      | some p => (.ok (), d.setPlane (some target) (p.resized width height))
      | none => (.error (.resource (.unknownTarget target)), d) := by
  unfold resizeTarget
  rw [Act.bind_of_ok (checkSize_ok "target" hw hh d), Act.bind_apply, findPlane, Act.bind_of_ok (Act.get_apply d),
    Act.ofExcept_apply, plane]
  cases d.targets.get? target <;> rfl

end Device

namespace Host

variable {h k l : Host} {fs gs : List Fitting} {calls calls' : List Call}

/-- A command to a host without armed failures. -/
theorem issue_eq {α : Type} (ha : h.armed = []) (command : Command) (answer : α → Answer) (run : Act Device α) :
    issue command answer run h = match run h.device with
      | (.ok a, device) => (.ok a, { h with device }.recordCall command (answer a))
      | (.error e, device) => (.error e, { h with device }.recordCall command .failed) := by
  obtain ⟨device, calls, events, armed⟩ := h
  cases ha
  rfl

/-- The targets that the device has have the sizes that are wanted of them, those that are lost stay lost, and all else
is as large as before; the calls have been made in between. -/
structure Fitted (fs : List Fitting) (calls : List Call) (h k : Host) : Prop where
  armed : k.armed = []
  outputSize : k.device.outputSize = h.device.outputSize
  own : ∀ f ∈ fs, k.device.targetSize? f.target = (h.device.targetSize? f.target).map fun _ => f.size
  others : ∀ n, n ∉ fs.map Fitting.target → k.device.targetSize? n = h.device.targetSize? n
  advanced : ∃ events, h.Advanced calls events k

namespace Fitted

/-- What leaves all as it is has fitted targets that are lost or have their sizes. -/
theorem of_unchanged (ha : h.armed = [])
    (hfs : ∀ f ∈ fs, h.device.targetSize? f.target = (h.device.targetSize? f.target).map fun _ => f.size) :
    Fitted fs [] h h := ⟨ha, rfl, hfs, fun _ _ => rfl, [], .refl h⟩

theorem report (fitted : Fitted fs calls h k) (events : List Event) : Fitted fs calls h (k.report events) := by
  obtain ⟨armed, outputSize, own, others, earlier, adv⟩ := fitted
  have both := adv.trans (advanced_report k events)
  rw [List.append_nil] at both
  exact ⟨armed, outputSize, own, others, _, both⟩

/-- A target that was not to be given a size is as large as before. -/
theorem elsewhere (fitted : Fitted fs calls h k) {g : Fitting} (hne : ∀ f ∈ fs, f.target ≠ g.target) :
    k.device.targetSize? g.target = h.device.targetSize? g.target := by
  refine fitted.others g.target fun hin => ?_
  obtain ⟨f, hf, hsame⟩ := List.mem_map.1 hin
  exact hne f hf hsame

/-- Some targets and then others. -/
theorem append (first : Fitted fs calls h k) (second : Fitted gs calls' k l)
    (hne : ∀ f ∈ fs, ∀ g ∈ gs, f.target ≠ g.target) : Fitted (fs ++ gs) (calls ++ calls') h l := by
  obtain ⟨events, adv⟩ := first.advanced
  obtain ⟨events', adv'⟩ := second.advanced
  refine ⟨second.armed, second.outputSize.trans first.outputSize, fun f hf => ?_, fun n hn => ?_, _, adv.trans adv'⟩
  · rcases List.mem_append.1 hf with hf | hf
    · rw [second.elsewhere fun g hg => (hne f hf g hg).symm, first.own f hf]
    · rw [second.own f hf, first.elsewhere fun g hg => hne g hg f hf]
  · rw [List.map_append, List.mem_append, not_or] at hn
    rw [second.others n hn.2, first.others n hn.1]

end Fitted

/-- The screen gets a size that it can have, and all targets keep theirs. -/
theorem setOutputSize_outcome {width height : Nat} (ha : h.armed = []) (hw : 0 < width) (hh : 0 < height) :
    ∃ k, setOutputSize width height h = (.ok (), k) ∧ k.armed = [] ∧ k.device.outputSize = (width, height) ∧
      (∀ n, k.device.targetSize? n = h.device.targetSize? n) ∧
      h.Advanced [⟨.setOutputSize width height, .done⟩] [] k := by
  unfold setOutputSize
  rw [issue_eq ha, Device.setOutputSize, Act.bind_of_ok (Device.checkSize_ok "display" hw hh h.device),
    Act.modify_apply]
  refine ⟨_, rfl, ha, ?_, fun n => ?_, advanced_recordCall h _ h.armed _ _⟩
  · show (if h.device.outputSize = (width, height) then h.device else _ : Device).outputSize = _
    split
    · assumption
    · exact Prod.ext (Nat.max_eq_left hw) (Nat.max_eq_left hh)
  · show (if h.device.outputSize = (width, height) then h.device else _ : Device).targetSize? n = _
    split <;> rfl

/-- A call for a size, and its outcome. -/
theorem fitted_resizeTarget (ha : h.armed = []) (f : Fitting) (hw : 0 < f.size.1) (hh : 0 < f.size.2) :
    (resizeTarget f.target f.size.1 f.size.2 h).1 = (Fitting.fault? h.device [f]).elim (.ok ()) .error ∧
      Fitted [f] [f.call h.device] h (resizeTarget f.target f.size.1 f.size.2 h).2 := by
  have hsize : h.device.targetSize? f.target = (h.device.targets.get? f.target).map fun p => (p.width, p.height) := rfl
  unfold resizeTarget
  rw [issue_eq ha, Device.resizeTarget_eq hw hh, Fitting.call, Fitting.fault?, List.find?_singleton, Fitting.isLost,
    hsize]
  cases hp : h.device.targets.get? f.target with
  | none =>
    refine ⟨rfl, ha, rfl, fun g hg => ?_, fun n _ => rfl, [], advanced_recordCall h _ h.armed _ _⟩
    rw [List.mem_singleton.1 hg]
    show h.device.targetSize? f.target = (h.device.targetSize? f.target).map _
    rw [hsize, hp]
    rfl
  | some p =>
    refine ⟨rfl, ha, rfl, fun g hg => ?_, fun n hn => ?_, [], advanced_recordCall h _ h.armed _ _⟩
    · rw [List.mem_singleton.1 hg]
      show (h.device.setPlane (some f.target) (p.resized f.size.1 f.size.2)).targetSize? f.target = _
      rw [Device.targetSize?_setPlane, if_pos rfl, hsize, hp]
      exact congrArg some (Prod.ext (Nat.max_eq_left hw) (Nat.max_eq_left hh))
    · have hn : n ≠ f.target := fun hsame => hn (hsame ▸ List.mem_cons_self)
      show (h.device.setPlane (some f.target) (p.resized f.size.1 f.size.2)).targetSize? n = _
      rw [Device.targetSize?_setPlane, if_neg hn]

end Host

/-! ## Passes -/

namespace DepthPass

variable {p q : DepthPass} {h : Host} {s : Staged DepthPass} {d : Device} {n : Nat} {width height : UInt32}

/-- The target of the pass and the size that the pass wants it to have. -/
def fitting? (p : DepthPass) (width height : UInt32) : Option Fitting :=
  p.target.map fun target => ⟨target, p.sizeFor width height⟩

/-- The second pass is the first after it has been told a size.  It says that its buffer holds what was drawn only if
that was so, and the buffer had the right size already. -/
structure Retold (width height : UInt32) (d : Device) (p q : DepthPass) : Prop where
  params : q.resolution.params = p.resolution.params.withBase width height
  others : q = { p with resolution := q.resolution, rendered := q.rendered }
  rendered : q.rendered = true → p.rendered = true ∧ ∀ n, p.target = some n → d.targetSize? n = some q.size

theorem Retold.target_eq (told : Retold width height d p q) : q.target = p.target := by rw [told.others]

/-- The size of the pass is the one that it wants. -/
theorem Retold.sizeFor_eq (told : Retold width height d p q) : q.sizeFor width height = q.size := by
  have hbase : q.resolution.params.withBase width height = q.resolution.params := by
    rw [told.params]
    rfl
  unfold sizeFor
  rw [hbase]
  rfl

theorem Retold.congr {d' : Device} (told : Retold width height d p q)
    (hd : ∀ f, p.fitting? width height = some f → d'.targetSize? f.target = d.targetSize? f.target) :
    Retold width height d' p q := by
  refine ⟨told.params, told.others, fun hr => ⟨(told.rendered hr).1, fun n hn => ?_⟩⟩
  have hf : p.fitting? width height = some ⟨n, p.sizeFor width height⟩ := by
    rw [fitting?, hn]
    rfl
  rw [hd _ hf]
  exact (told.rendered hr).2 n hn

/-- The pass wants the same when it is told the size again. -/
theorem Retold.fitting?_eq (told : Retold width height d p q) : q.fitting? width height = p.fitting? width height := by
  have hsize : q.sizeFor width height = p.sizeFor width height := by
    unfold sizeFor
    rw [told.params]
    rfl
  unfold fitting?
  rw [told.target_eq, hsize]

/-- The pass after it has taken the size as its base, and before it looks at its buffer. -/
def followed (p : DepthPass) (width height : UInt32) : DepthPass :=
  let (changed, q) := p.rebased width.toNat height.toNat
  { q with rendered := q.rendered && !changed }

theorem resize_eq (p : DepthPass) (width height : UInt32) (h : Host) :
    resize width.toNat height.toNat ⟨p, h⟩ =
      refit (p.rebased width.toNat height.toNat).2 ⟨p.followed width height, h⟩ := rfl

theorem rendered_of_followed (h : (p.followed width height).rendered = true) : p.rendered = true :=
  (Bool.and_eq_true_iff.1 h).1

theorem refit_of_none (ht : p.target = none) (s : Staged DepthPass) : refit p s = (.ok (), s) := by
  unfold refit
  rw [ht]
  rfl

theorem refit_of_fits (ht : p.target = some n) (hf : s.host.device.targetSize? n = some p.size) :
    refit p s = (.ok (), s) := by
  unfold refit
  rw [ht]
  dsimp only
  rw [Act.bind_of_ok (device_apply s), if_pos hf]
  rfl

theorem refit_of_not_fits (ht : p.target = some n) (hf : s.host.device.targetSize? n ≠ some p.size) :
    refit p s = match Host.resizeTarget n p.size.1 p.size.2 s.host with
      | (.ok (), k) => (.ok (), ⟨{ s.stage with rendered := false }, k.report [.depthResized name p.size.1 p.size.2]⟩)
      | (.error e, k) => (.error e, ⟨{ s.stage with rendered := false }, k⟩) := by
  unfold refit
  rw [ht]
  dsimp only
  rw [Act.bind_of_ok (device_apply s), if_neg hf, Act.bind_of_ok (modify_apply _ s), Act.bind_apply, onHost_apply]
  rcases Host.resizeTarget n p.size.1 p.size.2 s.host with ⟨e | _, k⟩ <;> rfl

/-- What becomes of a target that is to have the size of a pass, and of the image in it. -/
theorem refit_outcome (ha : s.host.armed = []) (ht : p.target = some n) :
    let f : Fitting := ⟨n, p.size⟩
    let r := refit p s
    r.2.stage = { s.stage with rendered := s.stage.rendered && s.host.device.targetSize? n == some p.size } ∧
      s.host.Fitted [f] ([f].filterMap (Fitting.call? s.host.device)) r.2.host ∧
      r.1 = (Fitting.fault? s.host.device [f]).elim (.ok ()) .error := by
  dsimp only
  rw [List.filterMap_cons, List.filterMap_nil]
  -- a target that has the size is left alone; otherwise the call is made, also if the base size was the same before
  by_cases hf : s.host.device.targetSize? n = some p.size
  · have hcall : Fitting.call? s.host.device ⟨n, p.size⟩ = none := if_pos hf
    have hfault : Fitting.fault? s.host.device [⟨n, p.size⟩] = none := by
      rw [Fitting.fault?, List.find?_singleton, Fitting.isLost, hf]
      rfl
    rw [refit_of_fits ht hf, hcall, hfault, hf, beq_self_eq_true, Bool.and_true]
    refine ⟨rfl, .of_unchanged ha fun f hmem => ?_, rfl⟩
    rw [List.mem_singleton.1 hmem, hf]
    rfl
  · have hcall : Fitting.call? s.host.device ⟨n, p.size⟩ = some (Fitting.call s.host.device ⟨n, p.size⟩) := if_neg hf
    have hpos := p.resolution.params.effectiveSize_pos
    obtain ⟨hout, fitted⟩ := Host.fitted_resizeTarget ha ⟨n, p.size⟩ hpos.1 hpos.2
    rw [refit_of_not_fits ht hf, hcall, beq_false_of_ne hf, Bool.and_false]
    rcases hr : Host.resizeTarget n p.size.1 p.size.2 s.host with ⟨e | _, k⟩ <;> rw [hr] at hout fitted
    · exact ⟨rfl, fitted, hout⟩
    · exact ⟨rfl, fitted.report _, hout⟩

/-- What becomes of a pass that is told a size, of its target and of the host, and when that fails. -/
theorem resize_outcome (ha : h.armed = []) (p : DepthPass) (width height : UInt32) :
    let fs := (p.fitting? width height).toList
    let r := resize width.toNat height.toNat ⟨p, h⟩
    Retold width height h.device p r.2.stage ∧ h.Fitted fs (fs.filterMap (Fitting.call? h.device)) r.2.host ∧
      r.1 = (Fitting.fault? h.device fs).elim (.ok ()) .error := by
  have hparams := params_rebased p width height
  dsimp only
  rw [resize_eq]
  cases ht : p.target with
  | none =>
    have hnone : p.fitting? width height = none := by rw [fitting?, ht]; rfl
    have hq : (p.rebased width.toNat height.toNat).2.target = none := ht
    rw [refit_of_none hq, hnone]
    refine ⟨⟨hparams, rfl, fun h => ⟨rendered_of_followed h, fun n hn => ?_⟩⟩, ?_, rfl⟩
    · cases ht.symm.trans hn
    · exact .of_unchanged ha fun f hf => absurd hf List.not_mem_nil
  | some n =>
    have hq : (p.rebased width.toNat height.toNat).2.target = some n := ht
    have hsize : (p.rebased width.toNat height.toNat).2.size = p.sizeFor width height := by
      unfold size Resolution.size sizeFor
      rw [hparams]
    have hsome : p.fitting? width height = some ⟨n, p.sizeFor width height⟩ := by rw [fitting?, ht]; rfl
    obtain ⟨hstage, fitted, hout⟩ := refit_outcome (s := ⟨p.followed width height, h⟩) ha hq
    rw [hsize] at hstage fitted hout
    rw [hsome]
    refine ⟨?_, fitted, hout⟩
    rw [hstage]
    refine ⟨hparams, rfl, fun hr => ?_⟩
    obtain ⟨hfollowed, hfits⟩ := Bool.and_eq_true_iff.1 hr
    refine ⟨rendered_of_followed hfollowed, fun m hm => ?_⟩
    cases ht.symm.trans hm
    rw [beq_iff_eq.1 hfits, ← hsize]
    rfl

end DepthPass

namespace Pass

variable {p q : Pass} {h : Host} {d : Device} {width height : UInt32}

/-- The target of a pass and the size that the pass wants it to have. -/
def fitting? (width height : UInt32) : Pass → Option Fitting
  | depth p => p.fitting? width height
  | _ => none

theorem target?_eq_fitting? (width height : UInt32) (p : Pass) :
    target? p = (p.fitting? width height).map Fitting.target := by
  cases p with
  | depth p =>
    show p.target = (p.target.map _).map _
    cases p.target <;> rfl
  | _ => rfl

/-- The second pass is the first after it has been told a size. -/
inductive Told (width height : UInt32) (d : Device) : Pass → Pass → Prop where
  | depth {p q : DepthPass} : p.Retold width height d q → Told width height d (.depth p) (.depth q)
  | other {p : Pass} : p.isDepthProducer = false → Told width height d p p

theorem Told.congr {d' : Device} (told : Told width height d p q)
    (hd : ∀ f, p.fitting? width height = some f → d'.targetSize? f.target = d.targetSize? f.target) :
    Told width height d' p q := by
  cases told with
  | depth told => exact .depth (told.congr hd)
  | other hk => exact .other hk

theorem Told.fitting?_eq (told : Told width height d p q) : q.fitting? width height = p.fitting? width height := by
  cases told with
  | depth told => exact told.fitting?_eq
  | other _ => rfl

theorem Told.sizeFor_eq {q : DepthPass} (told : Told width height d p (.depth q)) :
    q.sizeFor width height = q.size := by
  cases told with
  | depth told => exact told.sizeFor_eq
  | other hk => cases hk

theorem resize_outcome (ha : h.armed = []) (p : Pass) (width height : UInt32) :
    let fs := (p.fitting? width height).toList
    let r := resize width.toNat height.toNat ⟨p, h⟩
    Told width height h.device p r.2.stage ∧ h.Fitted fs (fs.filterMap (Fitting.call? h.device)) r.2.host ∧
      r.1 = (Fitting.fault? h.device fs).elim (.ok ()) .error := by
  cases p with
  | depth p =>
    obtain ⟨told, fitted, hout⟩ := DepthPass.resize_outcome ha p width height
    exact ⟨.depth told, fitted, hout⟩
  | _ => exact ⟨.other rfl, .of_unchanged ha fun f hf => absurd hf List.not_mem_nil, rfl⟩

end Pass

end ScreenFusion
