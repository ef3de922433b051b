import ScreenFusion.Proofs.Effect.Compatible
import ScreenFusion.Proofs.Pass.Along
import ScreenFusion.Proofs.Pass.ProgramCache

/-!
# ScreenFusion.Proofs.Pass.Vetting — programs are made of effects that can share them

The members of a pass are checked when they are put in, and again by a build.  A change of a member through a reference is
not checked at once, and a commit that builds nothing checks nothing: what holds of the members then is what the key of
the program says.  A device takes no stage without a kernel, an effect that is disposed of has none, and a kernel that is
set is a new one; so no key of a program is one of members that cannot share it.

* `Altered`, `altered_run`: what a use that builds nothing makes of a pass.
* `Vetted`, `Vetted.used`: what the key of a program says of the members, and that every use keeps it.
* `compatible_of_commit_ok`: what that means for commits that succeed.
* `vouched_run`: programs are asked for only if the members can share them.
-/

namespace ScreenFusion

/-! ## Changes of effects -/

namespace EffectChange

/-- All changes but those of the kernel leave it, and leave an effect live or disposed of. -/
theorem kernel_cases (c : EffectChange) (e : Effect) :
    c = .dispose ∨ (∃ k, c = .kernel k) ∨ (c.apply e).disposed = e.disposed ∧ (c.apply e).kernel = e.kernel := by
  cases c with
  | dispose => exact .inl rfl
  | kernel k => exact .inr (.inl ⟨k, rfl⟩)
  | uniform name value =>
    refine .inr (.inr ?_)
    unfold apply Effect.setUniform
    dsimp only
    split
    · split <;> exact ⟨rfl, rfl⟩
    · exact ⟨rfl, rfl⟩
  | define name value =>
    refine .inr (.inr ?_)
    unfold apply Effect.setDefine
    dsimp only
    split <;> exact ⟨rfl, rfl⟩
  | undefine name =>
    refine .inr (.inr ?_)
    unfold apply Effect.removeDefine
    dsimp only
    split <;> exact ⟨rfl, rfl⟩
  | attributes a =>
    refine .inr (.inr ?_)
    unfold apply Effect.setAttributes
    dsimp only
    split <;> exact ⟨rfl, rfl⟩
  | _ => exact .inr (.inr ⟨rfl, rfl⟩)

/-- A change that raises no version leaves an effect live or disposed of. -/
theorem disposed_of_version {c : EffectChange} {e : Effect} (h : (c.apply e).version = e.version) :
    (c.apply e).disposed = e.disposed := by
  rcases c.kernel_cases e with rfl | ⟨k, rfl⟩ | hkept
  · revert h
    show e.dispose.2.2.version = e.version → e.dispose.2.2.disposed = e.disposed
    unfold Effect.dispose
    split
    · exact fun _ => rfl
    · exact fun h => absurd h (Nat.succ_ne_self _)
  · rfl
  · exact hkept.1

/-- The kernel of an effect that is disposed of is none, the one it had then, or one that was set after. -/
theorem kernel_of_disposed {c : EffectChange} {e : Effect} (h : (c.apply e).disposed = true) :
    (c.apply e).kernel = none ∨ e.disposed = true ∧ (c.apply e).kernel = e.kernel ∨
      ∃ k, c = .kernel k ∧ (c.apply e).kernel = some k := by
  rcases c.kernel_cases e with rfl | ⟨k, rfl⟩ | ⟨hdisposed, hkernel⟩
  · show e.dispose.2.2.kernel = none ∨ e.disposed = true ∧ e.dispose.2.2.kernel = e.kernel ∨ _
    unfold Effect.dispose
    split
    · next hd => exact .inr (.inl ⟨hd, rfl⟩)
    · exact .inl rfl
  · exact .inr (.inr ⟨k, rfl, rfl⟩)
  · exact .inr (.inl ⟨hdisposed ▸ h, hkernel⟩)

end EffectChange

/-! ## Kernels that are new -/

/-- The kernel that a use gives a member. -/
def EffectPassOp.kernel? : EffectPassOp → Option Kernel
  | change _ (.kernel k) | changeNamed _ (.kernel k) => some k
  | _ => none

/-- The kernel that a use gives a member is none of those of the program that the pass has: a program holds on to its
kernels, so that no other one is taken for one of them. -/
def EffectPassOp.Novel (p : EffectPass) (op : EffectPassOp) : Prop :=
  ∀ k, op.kernel? = some k → ∀ c, p.compiled = some c → some k.serial ∉ c.key.effects.map EffectKey.kernel

namespace EffectPass

open Fusion

/-- Uses of a pass, one after another: what is put in can be had, and kernels that are set are new. -/
def FairRun : EffectPass → List (EffectPassOp × Host) → Prop
  | _, [] => True
  | p, (op, h) :: rest => op.Admissible p ∧ op.Novel p ∧ FairRun (op.run ⟨p, h⟩).2.stage rest

/-- What the key of a program says of the members of the pass. -/
structure Vetted (p : EffectPass) : Prop where
  kernels : ∀ c, p.compiled = some c → none ∉ c.key.effects.map EffectKey.kernel
  exclusive : ∀ c, p.compiled = some c → c.key.effects.countP (·.attributes.includes .convolution) ≤ 1
  /-- No member that is disposed of has a kernel of the program. -/
  apart : ∀ c, p.compiled = some c → ∀ e ∈ p.effects, e.disposed = true →
    e.kernel.map Kernel.serial ∉ c.key.effects.map EffectKey.kernel

variable {p q : EffectPass} {h k : Host} {c : CompiledEffects}

theorem Vetted.of_none (hp : p.compiled = none) : Vetted p := by
  constructor <;> (intro c hc; rw [hp] at hc; cases hc)

/-- Members with the key of the program can share one. -/
theorem Vetted.compatible (v : Vetted p) (hc : p.compiled = some c) (hk : c.key = p.key) : Compatible p.effects := by
  have hkernels : c.key.effects.map EffectKey.kernel = p.effects.map fun e => e.kernel.map Kernel.serial := by
    rw [hk]
    exact List.map_map
  refine ⟨fun e he => ?_, ?_⟩
  · rw [← Bool.not_eq_true]
    intro hd
    refine v.apart c hc e he hd ?_
    rw [hkernels]
    exact List.mem_map_of_mem he
  · have hcount := v.exclusive c hc
    rw [hk] at hcount
    rwa [key, List.countP_map] at hcount

/-- A pass with the same program keeps what its key says, if its members that are disposed of have no other kernels. -/
theorem Vetted.mono (v : Vetted p) (hc : q.compiled = p.compiled ∨ q.compiled = none)
    (he : ∀ c, p.compiled = some c → ∀ e' ∈ q.effects, e'.disposed = true → e'.kernel = none ∨
      (∃ e ∈ p.effects, e.disposed = true ∧ e'.kernel = e.kernel) ∨
      e'.kernel.map Kernel.serial ∉ c.key.effects.map EffectKey.kernel) : Vetted q := by
  rcases hc with hc | hc
  · refine ⟨fun c hq => v.kernels c (hc ▸ hq), fun c hq => v.exclusive c (hc ▸ hq), fun c hq e' he' hd => ?_⟩
    have hq := hc ▸ hq
    rcases he c hq e' he' hd with hnone | ⟨e, hmem, hdisposed, hsame⟩ | hother
    · rw [hnone]
      exact v.kernels c hq
    · rw [hsame]
      exact v.apart c hq e hmem hdisposed
    · exact hother
  · exact .of_none hc

/-- Members that are kept, or put in live. -/
theorem Vetted.members (v : Vetted p) (hc : q.compiled = p.compiled ∨ q.compiled = none)
    (he : ∀ e ∈ q.effects, e ∈ p.effects ∨ e.disposed = false) : Vetted q := by
  refine v.mono hc fun c _ e hmem hd => ?_
  rcases he e hmem with hold | hlive
  · exact .inr (.inl ⟨e, hold, hd, rfl⟩)
  · rw [hd] at hlive
    cases hlive

/-- A member changed in place. -/
theorem Vetted.modifyEffect (v : Vetted p) (id : Nat) (change : EffectChange)
    (hnew : ∀ k, change = .kernel k → ∀ c, p.compiled = some c → some k.serial ∉ c.key.effects.map EffectKey.kernel) :
    Vetted (p.modifyEffect id change.apply) := by
  refine v.mono (.inl rfl) fun c hc e' he' hd => ?_
  obtain ⟨e, he, rfl⟩ := List.mem_map.1 he'
  by_cases hid : e.id = id
  · rw [if_pos hid] at hd ⊢
    rcases EffectChange.kernel_of_disposed hd with hnone | ⟨hdisposed, hsame⟩ | ⟨k, hk, hset⟩
    · exact .inl hnone
    · exact .inr (.inl ⟨e, he, hdisposed, hsame⟩)
    · refine .inr (.inr ?_)
      rw [hset]
      exact hnew k hk c hc
  · rw [if_neg hid] at hd ⊢
    exact .inr (.inl ⟨e, he, hd, rfl⟩)

/-! ## Uses that build nothing -/

/-- What a use that builds nothing can make of a pass. -/
inductive Altered (op : EffectPassOp) (p : EffectPass) : EffectPass → Prop where
  | kept : Altered op p p
  /-- Other members or options, with the mark that says so.  What was no member is live. -/
  | marked {effects : List Effect} {options : FuseOptions} : (∀ e ∈ effects, e ∈ p.effects ∨ e.disposed = false) →
      Altered op p { p with effects, options, membersChanged := true }
  | changed (id : Nat) (c : EffectChange) : (∀ k, c = .kernel k → op.kernel? = some k) →
      Altered op p (p.modifyEffect id c.apply)
  /-- Attributes that a member is given, and others that it is given after them. -/
  | restored (id : Nat) (a b : Attributes) :
      Altered op p ((p.modifyEffect id (·.setAttributes a)).modifyEffect id (·.setAttributes b))
  | dressed (settings : PassSettings) (camera : CameraPlanes) : Altered op p { p with settings, camera }
  | disposed : Altered op p
      { p with disposed := true, compiled := none, effects := p.effects.map EffectChange.dispose.apply }

theorem altered_insertEffect (op : EffectPassOp) (index : Nat) (e : Effect) (p : EffectPass) (h : Host) :
    Altered op p (insertEffect index e ⟨p, h⟩).2.stage := by
  rw [insertEffect_eq]
  cases hm : checkMembers p.name (p.effects ++ [e]) with
  | error err => exact .kept
  | ok a =>
    have hlive : e.disposed = false :=
      (checkMembers_ok_iff.1 ⟨a, hm⟩).live e (List.mem_append_right _ (List.mem_singleton.2 rfl))
    refine .marked fun e' he' => ?_
    have hperm := List.perm_insertIdx e p.effects (Nat.min_le_right index p.effects.length)
    rcases List.mem_cons.1 (hperm.mem_iff.1 he') with rfl | he'
    · exact .inr hlive
    · exact .inl he'

theorem altered_changeEffect {op : EffectPassOp} (id : Nat) {c : EffectChange}
    (hc : ∀ k, c = .kernel k → op.kernel? = some k) (p : EffectPass) (h : Host) :
    Altered op p (changeEffect id c ⟨p, h⟩).2.stage := by
  rw [changeEffect_eq]
  cases p.effect? id with
  | none => exact .kept
  | some e => exact .changed id c hc

theorem altered_run {op : EffectPassOp} (hb : op.builds = false) (p : EffectPass) (h : Host) :
    Altered op p (op.run ⟨p, h⟩).2.stage := by
  cases op with
  | insert index e => exact altered_insertEffect _ index e p h
  | add e => exact altered_insertEffect _ p.effects.length e p h
  | remove id =>
    show Altered _ p (p.removeEffect id).2
    unfold removeEffect
    cases p.effect? id with
    | none => exact .kept
    | some e => exact .marked fun e' he' => .inl (List.mem_of_mem_eraseP he')
  | replace effects =>
    rw [run_replace]
    cases hm : checkMembers p.name effects with
    | error e => exact .kept
    | ok a => exact .marked fun e he => .inr ((checkMembers_ok_iff.1 ⟨a, hm⟩).live e he)
  | attributes id a =>
    show Altered _ p (setEffectAttributes id a ⟨p, h⟩).2.stage
    rw [setEffectAttributes_eq]
    cases p.effect? id with
    | none => exact .kept
    | some e =>
      dsimp only
      cases checkMembers p.name (p.modifyEffect id (·.setAttributes a)).effects with
      | ok _ => exact .changed id (.attributes a) nofun
      | error err => exact .restored id a e.attributes
  | change id c => exact altered_changeEffect id (by rintro k rfl; rfl) p h
  | changeNamed name c =>
    rw [EffectPassOp.run_changeNamed]
    cases p.effectByName? name with
    | none => exact .kept
    | some e => exact altered_changeEffect e.id (by rintro k rfl; rfl) p h
  | camera planes => exact .dressed p.settings planes
  | settings s => exact .dressed s p.camera
  | configure setup =>
    show Altered _ p (if p.options = _ then p else _)
    split
    · exact .kept
    · exact .marked fun e he => .inl he
  | dispose =>
    rw [EffectPassOp.run_dispose]
    cases hd : p.disposed with
    | true =>
      rw [dispose_of_disposed hd]
      exact .kept
    | false =>
      rw [dispose_of_live hd]
      exact .disposed
  | commit => cases hb
  | render io deltaTime => cases hb

theorem Vetted.altered (v : Vetted p) {op : EffectPassOp} (hn : op.Novel p) (a : Altered op p q) : Vetted q := by
  cases a with
  | kept => exact v
  | marked he => exact v.members (.inl rfl) he
  | changed id c hc => exact v.modifyEffect id c fun k hk => hn k (hc k hk)
  | restored id a b => exact (v.modifyEffect id (.attributes a) nofun).modifyEffect id (.attributes b) nofun
  | dressed s planes => exact v.members (.inl rfl) fun e he => .inl he
  | disposed => exact .of_none rfl

/-! ## Commits -/

/-- A device makes no program of a stage without a kernel. -/
theorem kernels_of_compileProgram_ok {source : ProgramSource} {id : Nat}
    (hc : Host.compileProgram source h = (.ok id, k)) : none ∉ source.stages.map ProgramStage.kernel := by
  have hrun : Device.compileProgram source h.device = (.ok id, k.device) := Host.run_of_issue_ok hc
  unfold Device.compileProgram at hrun
  rw [Act.bind_of_ok (Act.get_apply _)] at hrun
  cases hf : h.device.programFault? source with
  | some cause =>
    rw [hf] at hrun
    cases hrun
  | none =>
    intro hmem
    obtain ⟨s, hs, hnone⟩ := List.mem_map.1 hmem
    unfold Device.programFault? at hf
    split at hf
    · cases hf
    · rw [Option.map_eq_none_iff, List.find?_eq_none] at hf
      exact hf s hs (by rw [hnone]; rfl)

/-- The kernels of the stages are those of the members. -/
theorem kernels_of_fusedSource {source : ProgramSource} (hs : p.fusedSource = .ok source) :
    source.stages.map ProgramStage.kernel = p.effects.map Effect.kernel := by
  let units := p.effects.map FuseUnit.ofEffect
  have hunits : (units.zip (layoutFrom 3 units)).map Prod.fst = units :=
    List.map_fst_zip (Nat.le_of_eq (length_layoutFrom 3 units).symm)
  calc source.stages.map ProgramStage.kernel
      = (units.zip (layoutFrom 3 units)).map (fun u => u.1.kernel) := by
        rw [(fuse_source hs).stages_eq, List.map_map]
        rfl
    _ = ((units.zip (layoutFrom 3 units)).map Prod.fst).map FuseUnit.kernel := by
        rw [List.map_map]
        rfl
    _ = p.effects.map Effect.kernel := by
        rw [hunits, List.map_map]
        rfl

theorem compatible_acknowledgeAll (hp : Compatible p.effects) : Compatible p.acknowledgeAll.effects := by
  refine ⟨fun e' he' => ?_, ?_⟩
  · obtain ⟨e, he, rfl⟩ := List.mem_map.1 he'
    exact hp.live e he
  · show (p.effects.map Effect.acknowledge).countP Effect.convolves ≤ 1
    rw [List.countP_map]
    exact hp.exclusive

theorem Vetted.acknowledgeAll (v : Vetted p) : Vetted p.acknowledgeAll := by
  refine v.mono (.inl rfl) fun c _ e' he' hd => ?_
  obtain ⟨e, he, rfl⟩ := List.mem_map.1 he'
  exact .inr (.inl ⟨e, he, hd, rfl⟩)

/-- Whatever is built is built of members that can share a program. -/
theorem Builds.compatible (b : Builds p h c k) : Compatible p.effects := checkMembers_ok_iff.1 b.fits

theorem Builds.vetted (b : Builds p h c k) : Vetted (p.adopt c) := by
  have hcompatible := b.compatible
  obtain ⟨-, source, hsource, hmade, hc⟩ := b
  have hkey : c.key = p.key := by rw [hc]
  have hkernels := kernels_of_compileProgram_ok hmade
  rw [kernels_of_fusedSource hsource] at hkernels
  constructor
  · intro x hx
    cases hx
    rw [hkey]
    intro hmem
    obtain ⟨l, hl, hnone⟩ := List.mem_map.1 hmem
    obtain ⟨e, he, rfl⟩ := List.mem_map.1 hl
    exact hkernels (List.mem_map.2 ⟨e, he, Option.map_eq_none_iff.1 hnone⟩)
  · intro x hx
    cases hx
    rw [hkey, key, List.countP_map]
    exact hcompatible.exclusive
  · intro x _ e he hd
    have hlive := (compatible_acknowledgeAll hcompatible).live e he
    rw [hd] at hlive
    cases hlive

theorem Vetted.commit (v : Vetted p) (h : Host) : Vetted (EffectPass.commit ⟨p, h⟩).2.stage := by
  rcases hc : EffectPass.commit ⟨p, h⟩ with ⟨r, q, l⟩
  cases outcome_of_commit hc with
  | disposed _ => exact v
  | clean _ _ _ => exact v
  | failedBefore _ _ _ _ => exact v
  | takenBack _ _ _ _ => exact v.acknowledgeAll.members (.inl rfl) fun e he => .inl he
  | built _ _ b => exact b.vetted
  | failed _ _ _ => exact v.acknowledgeAll.members (.inl rfl) fun e he => .inl he

theorem Vetted.used (v : Vetted p) {op : EffectPassOp} (hn : op.Novel p) (h : Host) :
    Vetted (op.run ⟨p, h⟩).2.stage := by
  cases op with
  | commit =>
    rw [EffectPassOp.run_commit]
    exact v.commit h
  | render io deltaTime =>
    show Vetted (EffectPass.render io deltaTime ⟨p, h⟩).2.stage
    obtain ⟨elapsed, hstage⟩ := stage_render io deltaTime p h
    rw [hstage]
    exact (v.commit h).members (.inl rfl) fun e he => .inl he
  | _ => exact v.altered hn (altered_run rfl p h)

/-- A commit that succeeds, while no error is kept, leaves members that can share a program. -/
theorem compatible_of_commit_ok {calls : List Call} (i : Invariant p calls) (v : Vetted p) {b : Bool}
    (hc : EffectPass.commit ⟨p, h⟩ = (.ok b, ⟨q, k⟩)) (hl : q.lastError = none) : Compatible q.effects := by
  have ic := i.commit h
  have vc := v.commit h
  rw [hc] at ic vc
  obtain ⟨c, hq⟩ := compiled_of_commit_ok hc
  exact vc.compatible hq (ic.fresh (isDirty_of_commit_ok (outcome_of_commit hc)) hl c hq)

/-! ## What is asked of the device -/

/-- The command asks for no program, or for the one of the members, and they can share one. -/
def Vouched (p : EffectPass) (command : Command) : Prop :=
  ∀ label slots, command = .compileProgram label slots → Compatible p.effects ∧
    ∃ source, p.fusedSource = .ok source ∧ label = source.label ∧ slots = source.slots.map Prod.fst

theorem only_build (key : ProgramKey) (p : EffectPass) (h : Host) : h.Only (Vouched p) (build key ⟨p, h⟩).2.host := by
  rw [build_eq]
  cases hm : checkMembers p.name p.effects with
  | error e => exact .refl h
  | ok a =>
    cases hf : p.fusedSource with
    | error e => exact .report h _
    | ok source =>
      have hvouched : Vouched p (.compileProgram source.label (source.slots.map Prod.fst)) := by
        intro label slots hcommand
        cases hcommand
        exact ⟨checkMembers_ok_iff.1 ⟨a, hm⟩, source, hf, rfl, rfl⟩
      have honly := Host.only_compileProgram hvouched (h.report p.fusingEvents)
      dsimp only
      rcases hc : Host.compileProgram source (h.report p.fusingEvents) with ⟨e | program, l⟩ <;> rw [hc] at honly
      · exact (Host.Only.report h p.fusingEvents).trans honly
      · exact (Host.Only.report h p.fusingEvents).trans honly

theorem only_retire (p : EffectPass) (h : Host) : h.Only (Vouched p) (p.retire h) := by
  unfold retire
  cases p.compiled with
  | none => exact .refl h
  | some old => exact Host.only_releaseProgram (Q := Vouched p) nofun h

theorem only_rebuild (p : EffectPass) (h : Host) : h.Only (Vouched p) (rebuild p.key ⟨p, h⟩).2.host := by
  have honly := only_build p.key p h
  have hstage := stage_build p.key p h
  rcases hb : build p.key ⟨p, h⟩ with ⟨e | c, q, l⟩ <;> rw [hb] at honly hstage <;> cases hstage
  · rw [rebuild_of_error hb]
    exact honly.trans (.report l _)
  · rw [rebuild_of_ok hb]
    exact (honly.trans (only_retire _ l)).trans (.report _ _)

/-- A commit of a settled pass asks nothing of the device and reports nothing. -/
theorem host_of_settled (hs : p.Settled) (h : Host) : (EffectPass.commit ⟨p, h⟩).2.host = h := by
  rcases hc : EffectPass.commit ⟨p, h⟩ with ⟨r, q, l⟩
  cases outcome_of_commit hc with
  | built hd hw _ => exact absurd ⟨hd, hw⟩ hs
  | failed hd hw _ => exact absurd ⟨hd, hw⟩ hs
  | _ => rfl

theorem vouched_commit (p : EffectPass) (h : Host) : h.Only (Vouched p) (EffectPass.commit ⟨p, h⟩).2.host := by
  by_cases hs : p.Settled
  · rw [host_of_settled hs h]
    exact .refl h
  · obtain ⟨hd, hw⟩ := not_not.1 hs
    rw [commit_of_wantsBuild hd hw]
    exact only_rebuild p h

/-- Whatever use is made of a pass, programs are asked for only if its members can share one. -/
theorem vouched_run (op : EffectPassOp) (p : EffectPass) (h : Host) : h.Only (Vouched p) (op.run ⟨p, h⟩).2.host := by
  cases hsetter : op.isSetter with
  | true => exact EffectPassOp.along_setter (R := Host.Only (Vouched p)) Host.Only.report hsetter ⟨p, h⟩
  | false =>
    cases op with
    | configure setup => exact .refl h
    | dispose =>
      rw [EffectPassOp.run_dispose]
      cases hd : p.disposed with
      | true =>
        rw [dispose_of_disposed hd]
        exact .refl h
      | false =>
        rw [dispose_of_live hd]
        exact (only_retire p h).trans (.report _ _)
    | commit =>
      rw [EffectPassOp.run_commit]
      exact vouched_commit p h
    | render io deltaTime =>
      show h.Only (Vouched p) (EffectPass.render io deltaTime ⟨p, h⟩).2.host
      have honly := vouched_commit p h
      rcases hc : EffectPass.commit ⟨p, h⟩ with ⟨e | b, q, l⟩ <;> rw [hc] at honly
      · rw [render_of_commit_error hc]
        exact honly
      · obtain ⟨c, hq⟩ := compiled_of_commit_ok hc
        rw [render_of_commit_ok hc hq]
        exact honly.trans (Host.only_drawFullscreen (Q := Vouched p) nofun l)
    | _ => cases hsetter

end EffectPass

end ScreenFusion
