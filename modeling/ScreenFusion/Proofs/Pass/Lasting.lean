import ScreenFusion.Proofs.Pass.Use

/-!
# ScreenFusion.Proofs.Pass.Lasting — what only setting up and disposal change

A pass is of one kind for ever.  The options of its program are those that it was last set up with, and it is live until
it is disposed of.  A pass that has been disposed of holds nothing and gets nothing, though not every kind refuses to be
used.

* `Staged.Fixes`: acts that leave a part of their stage.
* `Pass.Lasting`, `Pass.lasting_prepare`, `Pass.lasting_render`, `Pass.lasting_resize`: what the uses of a pass in frames
  leave.
* `DepthPass.Configured`, `Pass.configure_eq`: what setting up does.
* `Pass.Used.holdings_eq_zero`: a pass that has been disposed of holds nothing.
-/

namespace ScreenFusion

open Act (Confined)

open Fusion Holder Staged

/-! ## Acts that leave a part of their stage -/

namespace Staged

variable {P α β : Type} {g : P → β}

/-- A part of the second stage is that of the first. -/
def Fixes (g : P → β) (s t : Staged P) : Prop := g t.stage = g s.stage

instance : IsPreorder (Staged P) (Fixes g) where
  refl _ := rfl
  trans _ _ _ st tu := Eq.trans tu st

theorem fixes_get : Confined (Fixes g) (get : Act (Staged P) P) := refl_of (Fixes g)

theorem fixes_device : Confined (Fixes g) (device : Act (Staged P) Device) := refl_of (Fixes g)

theorem fixes_onHost (x : Act Host α) : Confined (Fixes g) (onHost x : Act (Staged P) α) := fun _ => rfl

theorem fixes_report (events : List Event) : Confined (Fixes g) (report events : Act (Staged P) Unit) := fun _ => rfl

theorem fixes_modify {f : P → P} (hf : ∀ p, g (f p) = g p) : Confined (Fixes g) (modify f) := fun s => hf s.stage

end Staged

/-! ## The options of programs -/

theorem MaterialPass.fixes_options_prepare : Confined (Fixes MaterialPass.options) MaterialPass.prepare := by
  rintro ⟨p, h⟩
  have out := MaterialPass.prepared_prepare p h
  rcases hp : MaterialPass.prepare ⟨p, h⟩ with ⟨r, q, k⟩
  rw [hp] at out
  dsimp only at out
  cases out <;> exact refl_of (Fixes MaterialPass.options) _

theorem MaterialPass.fixes_options_render (io : PassIo) (deltaTime : Binary32) :
    Confined (Fixes MaterialPass.options) (MaterialPass.render io deltaTime) := by
  refine .bind fixes_options_prepare fun _ => .bind (fixes_modify fun _ => rfl) fun _ => .bind fixes_get fun p => ?_
  cases p.compiled with
  | none => exact .fail _
  | some compiled => exact .bind fixes_device fun _ => fixes_onHost _

theorem EffectPass.fixes_options_commit : Confined (Fixes EffectPass.options) EffectPass.commit := by
  rintro ⟨p, h⟩
  have out := EffectPass.commit_outcome p h
  rcases hc : EffectPass.commit ⟨p, h⟩ with ⟨r, q, k⟩
  rw [hc] at out
  dsimp only at out
  cases out <;> exact refl_of (Fixes EffectPass.options) _

theorem EffectPass.fixes_options_render (io : PassIo) (deltaTime : Binary32) :
    Confined (Fixes EffectPass.options) (EffectPass.render io deltaTime) := by
  refine .bind fixes_options_commit fun _ => .bind (fixes_modify fun _ => rfl) fun _ => .bind fixes_get fun p => ?_
  cases p.compiled with
  | none => exact .fail _
  | some compiled => exact .bind fixes_device fun _ => fixes_onHost _

open EffectPass in
theorem EffectPassOp.fixes_options {op : EffectPassOp} (hs : op.isSetter = true) :
    Confined (Fixes EffectPass.options) op.run := by
  have insertion (index : Nat) (e : Effect) : Confined (Fixes EffectPass.options) (insertEffect index e) :=
    .bind fixes_get fun _ => .bind (.ofExcept _) fun _ => .bind (fixes_report _) fun _ => fixes_modify fun _ => rfl
  have change (id : Nat) (c : EffectChange) : Confined (Fixes EffectPass.options) (changeEffect id c) := by
    refine .bind fixes_get fun p => ?_
    cases p.effect? id with
    | none => exact .pure ()
    | some e => exact .bind (fixes_report _) fun _ => fixes_modify fun _ => rfl
  cases op with
  | insert index e => exact insertion index e
  | add e => exact .bind fixes_get fun p => insertion _ e
  | remove id =>
    refine fixes_modify fun p => ?_
    unfold removeEffect
    split <;> rfl
  | replace effects =>
    rintro ⟨p, h⟩
    rw [run_replace]
    cases checkMembers p.name effects <;> rfl
  | attributes id a =>
    refine .bind fixes_get fun p => ?_
    cases p.effect? id with
    | none => exact .fail _
    | some e =>
      refine .bind (fixes_modify fun _ => rfl) fun _ => .bind fixes_get fun q => ?_
      cases checkMembers p.name q.effects with
      | ok _ => exact .pure ()
      | error err => exact .bind (fixes_modify fun _ => rfl) fun _ => .fail err
  | change id c => exact change id c
  | changeNamed name c =>
    refine .bind fixes_get fun p => ?_
    cases p.effectByName? name with
    | none => exact .pure ()
    | some e => exact change e.id c
  | camera planes => exact fixes_modify fun _ => rfl
  | settings s => exact fixes_modify fun _ => rfl
  | configure setup => cases hs
  | commit => cases hs
  | render io deltaTime => cases hs
  | dispose => cases hs

/-- The options that passes are set up with. -/
def Setup.options (setup : Setup) : FuseOptions := ⟨setup.precision, setup.alpha⟩

namespace Pass

variable {p q : Pass} {h k : Host}

/-- The options of the program of the pass, if it runs one. -/
def options? : Pass → Option FuseOptions
  | material p => some p.options
  | effect p => some p.options
  | _ => none

/-- The second pass is of the same kind, has the same options, and is as live as the first. -/
structure Lasting (p q : Pass) : Prop where
  disposed : disposed q = disposed p
  options : q.options? = p.options?
  kind : q.isDepthProducer = p.isDepthProducer

instance : IsPreorder Pass Lasting where
  refl _ := ⟨rfl, rfl, rfl⟩
  trans _ _ _ pq qr := ⟨qr.disposed.trans pq.disposed, qr.options.trans pq.options, qr.kind.trans pq.kind⟩

theorem lasting_of_conserved {s t : Staged Pass} (c : Conserved s t) (ho : t.stage.options? = s.stage.options?) :
    s.stage.Lasting t.stage := ⟨c.disposed, ho, c.needsTarget⟩

/-- An act of one kind of pass that leaves its options does so as an act of any pass. -/
theorem options?_within {P α : Type} {x : Act (Staged P) α} {g : P → FuseOptions} (hx : Confined (Fixes g) x)
    {wrap : P → Pass} (hwrap : ∀ q, (wrap q).options? = some (g q)) (p : P) (h : Host) :
    (within wrap p x ⟨wrap p, h⟩).2.stage.options? = (wrap p).options? := by
  have hfixed : g (x ⟨p, h⟩).2.stage = g p := hx ⟨p, h⟩
  show (wrap (x ⟨p, h⟩).2.stage).options? = _
  rw [hwrap, hwrap, hfixed]

theorem options?_prepare (p : Pass) (h : Host) : (prepare ⟨p, h⟩).2.stage.options? = p.options? := by
  cases p with
  | material p => exact options?_within MaterialPass.fixes_options_prepare (fun _ => rfl) p h
  | effect p =>
    have fixed : Confined (Fixes EffectPass.options) (do let _ ← EffectPass.commit) :=
      .bind EffectPass.fixes_options_commit fun _ => .pure ()
    exact options?_within fixed (fun _ => rfl) p h
  | _ => rfl

theorem options?_render (io : PassIo) (deltaTime : Binary32) (p : Pass) (h : Host) :
    (render io deltaTime ⟨p, h⟩).2.stage.options? = p.options? := by
  cases p with
  | material p => exact options?_within (MaterialPass.fixes_options_render io deltaTime) (fun _ => rfl) p h
  | effect p => exact options?_within (EffectPass.fixes_options_render io deltaTime) (fun _ => rfl) p h
  | _ => rfl

theorem options?_resize (width height : Nat) (p : Pass) (h : Host) :
    (resize width height ⟨p, h⟩).2.stage.options? = p.options? := by
  cases p <;> rfl

theorem options?_withSettings (settings : PassSettings) (p : Pass) :
    (p.withSettings settings).options? = p.options? := by
  cases p <;> rfl

end Pass

theorem PassSetter.options?_run {setter : PassSetter} (ha : setter.Admissible) (p : Pass) (h : Host) :
    (setter.run ⟨p, h⟩).2.stage.options? = p.options? := by
  cases setter with
  | settings s => exact Pass.options?_withSettings s p
  | effects op =>
    cases p with
    | effect p => exact Pass.options?_within (EffectPassOp.fixes_options ha) (fun _ => rfl) p h
    | _ => rfl
  | _ => cases p <;> rfl

/-! ## Uses -/

theorem Pass.lasting_setter {setter : PassSetter} (ha : setter.Admissible) (p : Pass) (h : Host) :
    p.Lasting (setter.run ⟨p, h⟩).2.stage :=
  lasting_of_conserved (PassSetter.idle_run ha ⟨p, h⟩).1 (setter.options?_run ha p h)

namespace Pass

variable {p q : Pass} {h k : Host}

theorem lasting_prepare (p : Pass) (h : Host) : p.Lasting (prepare ⟨p, h⟩).2.stage :=
  lasting_of_conserved (conserves_prepare ⟨p, h⟩) (options?_prepare p h)

theorem lasting_render (io : PassIo) (deltaTime : Binary32) (p : Pass) (h : Host) :
    p.Lasting (render io deltaTime ⟨p, h⟩).2.stage :=
  lasting_of_conserved (conserves_render io deltaTime ⟨p, h⟩) (options?_render io deltaTime p h)

theorem lasting_resize (width height : Nat) (p : Pass) (h : Host) : p.Lasting (resize width height ⟨p, h⟩).2.stage :=
  lasting_of_conserved (conserves_resize width height ⟨p, h⟩) (options?_resize width height p h)

theorem lasting_setEnabled (p : Pass) (enabled : Bool) : p.Lasting (p.setEnabled enabled) := by
  cases p <;> exact ⟨rfl, rfl, rfl⟩

end Pass

/-! ## Setting up -/

namespace DepthPass

variable {p : DepthPass} {h : Host}

/-- The pass with the size of the output as its base. -/
def based (p : DepthPass) (d : Device) : DepthPass := (p.rebased d.outputSize.1 d.outputSize.2).2

/-- The buffer that the pass asks for. -/
def spec (p : DepthPass) : TargetSpec := ⟨name ++ ".depth", p.size.1, p.size.2, .full, false, true⟩

/-- The ways in which a depth pass is set up, or is not. -/
inductive Configured (p : DepthPass) (h : Host) : Except Error Unit → Staged DepthPass → Prop where
  | disposed : p.disposed = true → Configured p h (.error (.resource (.disposedPass name))) ⟨p, h⟩
  | kept {target : Nat} : p.disposed = false → p.target = some target → Configured p h (.ok ()) ⟨p, h⟩
  | refused {e : Error} {k : Host} : p.disposed = false → p.target = none →
      Host.createTarget (p.based h.device).spec h = (.error e, k) →
      Configured p h (.error e) ⟨p.based h.device, k⟩
  | allocated {target : Nat} {k : Host} {events : List Event} : p.disposed = false → p.target = none →
      Host.createTarget (p.based h.device).spec h = (.ok target, k) →
      Configured p h (.ok ()) ⟨{ p.based h.device with target := some target }, k.report events⟩

theorem configure_of_disposed (hd : p.disposed = true) (h : Host) :
    configure ⟨p, h⟩ = (.error (.resource (.disposedPass name)), ⟨p, h⟩) := by
  unfold configure
  rw [Act.bind_of_ok (get_apply _), if_pos hd]
  rfl

theorem configured_configure (p : DepthPass) (h : Host) :
    Configured p h (configure ⟨p, h⟩).1 (configure ⟨p, h⟩).2 := by
  unfold configure
  rw [Act.bind_of_ok (get_apply _)]
  dsimp only
  cases hd : p.disposed with
  | true => exact .disposed hd
  | false =>
    cases ht : p.target with
    | some target => exact .kept hd ht
    | none =>
      let allocate : Act (Staged DepthPass) Unit := do
        let target ← Staged.onHost (Host.createTarget (p.based h.device).spec)
        Staged.modify fun p => { p with target := some target }
        Staged.report [.depthAllocated name (p.based h.device).size.1 (p.based h.device).size.2]
      show Configured p h (allocate ⟨p.based h.device, h⟩).1 (allocate ⟨p.based h.device, h⟩).2
      unfold allocate
      rw [Act.bind_apply, onHost_apply]
      rcases hc : Host.createTarget (p.based h.device).spec h with ⟨e | target, k⟩
      · exact .refused hd ht hc
      · exact .allocated hd ht hc

end DepthPass

theorem MaterialPass.options_configure (setup : Setup) (p : MaterialPass) (h : Host) :
    (configure setup ⟨p, h⟩).2.stage.options = setup.options := by
  show (if p.options = setup.options then p else _).options = _
  split
  · assumption
  · rfl

theorem EffectPass.options_configure (setup : Setup) (p : EffectPass) (h : Host) :
    (configure setup ⟨p, h⟩).2.stage.options = setup.options := by
  show (if p.options = setup.options then p else _).options = _
  split
  · assumption
  · rfl

namespace Pass

variable {p q : Pass} {h k : Host}

/-- Setting a pass up gives it the options of the setup, if it runs a program, and leaves it as live as it was. -/
theorem configure_eq (setup : Setup) (p : Pass) (h : Host) :
    let t := (configure setup ⟨p, h⟩).2
    disposed t.stage = disposed p ∧ t.stage.isDepthProducer = p.isDepthProducer ∧
      t.stage.options? = p.options?.map fun _ => setup.options := by
  cases p with
  | clear p => exact ⟨rfl, rfl, rfl⟩
  | scene p => exact ⟨rfl, rfl, rfl⟩
  | depth p =>
    have out := DepthPass.configured_configure p h
    have hdisposed : (DepthPass.configure ⟨p, h⟩).2.stage.disposed = p.disposed := by
      generalize DepthPass.configure ⟨p, h⟩ = r at out
      obtain ⟨r, t⟩ := r
      dsimp only at out
      cases out <;> rfl
    exact ⟨hdisposed, rfl, rfl⟩
  | material p =>
    have c := MaterialPass.conserves_configure setup ⟨p, h⟩
    exact ⟨c.disposed, rfl, congrArg some (MaterialPass.options_configure setup p h)⟩
  | effect p =>
    have c := EffectPass.conserves_configure setup ⟨p, h⟩
    exact ⟨c.disposed, rfl, congrArg some (EffectPass.options_configure setup p h)⟩

/-- Only a depth pass asks the device for something when it is set up, and may fail. -/
theorem configure_ok (hk : p.isDepthProducer = false) (setup : Setup) (h : Host) :
    ∃ q, configure setup ⟨p, h⟩ = (.ok (), ⟨q, h⟩) := by
  cases p with
  | depth p => cases hk
  | _ => exact ⟨_, rfl⟩

/-! ## Disposal -/

/-- Nothing becomes of a pass that is disposed of again. -/
theorem dispose_of_disposed (hd : disposed p = true) (h : Host) : (dispose ⟨p, h⟩).2 = ⟨p, h⟩ := by
  cases p with
  | clear p =>
    have hd : p.disposed = true := hd
    have same : { p with disposed := true } = p := by rw [← hd]
    exact congrArg (fun p => (⟨.clear p, h⟩ : Staged Pass)) same
  | scene p =>
    have hd : p.disposed = true := hd
    have same : { p with disposed := true } = p := by rw [← hd]
    exact congrArg (fun p => (⟨.scene p, h⟩ : Staged Pass)) same
  | depth p =>
    have hd : p.disposed = true := hd
    have same : DepthPass.dispose ⟨p, h⟩ = (.ok false, ⟨p, h⟩) := by
      unfold DepthPass.dispose
      rw [Act.bind_of_ok (get_apply _), if_pos hd]
      rfl
    exact congrArg (fun r => (⟨.depth r.2.stage, r.2.host⟩ : Staged Pass)) same
  | material p =>
    have hd : p.disposed = true := hd
    have same : MaterialPass.dispose ⟨p, h⟩ = (.ok false, ⟨p, h⟩) := by
      unfold MaterialPass.dispose
      rw [Act.bind_of_ok (get_apply _), if_pos hd]
      rfl
    exact congrArg (fun r => (⟨.material r.2.stage, r.2.host⟩ : Staged Pass)) same
  | effect p =>
    have hd : p.disposed = true := hd
    exact congrArg (fun r => (⟨.effect r.2.stage, r.2.host⟩ : Staged Pass)) (EffectPass.dispose_of_disposed hd h)

/-- A live pass that is disposed of holds nothing any more. -/
theorem holdings_dispose (hd : disposed p = false) (h : Host) : holdings (dispose ⟨p, h⟩).2.stage = 0 := by
  cases p with
  | clear p => rfl
  | scene p => rfl
  | depth p =>
    have hd : p.disposed = false := hd
    have dropped : target? (DepthPass.dispose ⟨p, h⟩).2.stage = none := by
      unfold DepthPass.dispose
      rw [Act.bind_of_ok (get_apply _), if_neg (by simp [hd]), Act.bind_of_ok (modify_apply _ _)]
      cases p.target <;> rfl
    exact holdings_of_none dropped rfl
  | material p =>
    have hd : p.disposed = false := hd
    have dropped : program? (MaterialPass.dispose ⟨p, h⟩).2.stage = none := by
      unfold MaterialPass.dispose
      rw [Act.bind_of_ok (get_apply _), if_neg (by simp [hd]), Act.bind_of_ok (modify_apply _ _)]
      cases p.compiled <;> rfl
    exact holdings_of_none rfl dropped
  | effect p =>
    have dropped : program? (EffectPass.dispose ⟨p, h⟩).2.stage = none := by
      rw [EffectPass.dispose_of_live hd]
      rfl
    exact holdings_of_none rfl dropped

end Pass

theorem MaterialPass.prepare_of_disposed {p : MaterialPass} (hd : p.disposed = true) (h : Host) :
    prepare ⟨p, h⟩ = (.error (.resource (.disposedPass p.name)), ⟨p, h⟩) := by
  unfold prepare
  rw [Act.bind_of_ok (get_apply _), if_pos hd]
  rfl

namespace Pass

variable {p : Pass} {s : Staged Pass}

theorem program?_prepare_of_disposed (hd : disposed p = true) (h : Host) :
    program? (prepare ⟨p, h⟩).2.stage = program? p := by
  cases p with
  | material p =>
    exact congrArg (fun r => program? r.2.stage) (MaterialPass.prepare_of_disposed hd h)
  | effect p =>
    have same : prepare ⟨.effect p, h⟩ = within .effect p (do let _ ← EffectPass.commit) ⟨.effect p, h⟩ := rfl
    rw [same, within, Act.drop_apply, EffectPass.commit_of_disposed hd]
  | _ => rfl

theorem program?_render_of_disposed (io : PassIo) (deltaTime : Binary32) (hd : disposed p = true) (h : Host) :
    program? (render io deltaTime ⟨p, h⟩).2.stage = program? p := by
  cases p with
  | material p =>
    have failed := MaterialPass.render_of_prepare_error (MaterialPass.prepare_of_disposed hd h) io deltaTime
    exact congrArg (fun r => program? r.2.stage) failed
  | effect p =>
    have failed := EffectPass.render_of_commit_error (EffectPass.commit_of_disposed hd h) io deltaTime
    exact congrArg (fun r => program? r.2.stage) failed
  | _ => rfl

theorem program?_configure (setup : Setup) (p : Pass) (h : Host) :
    program? (configure setup ⟨p, h⟩).2.stage = program? p := by
  cases p with
  | material p =>
    show program? (if p.options = setup.options then p else _) = _
    split <;> rfl
  | effect p =>
    show program? (if p.options = setup.options then p else _) = _
    split <;> rfl
  | _ => rfl

theorem target?_configure_of_disposed (setup : Setup) (hd : disposed p = true) (h : Host) :
    target? (configure setup ⟨p, h⟩).2.stage = target? p := by
  cases p with
  | depth p =>
    have hd : p.disposed = true := hd
    have failed := DepthPass.configure_of_disposed hd h
    exact congrArg (fun r => target? r.2.stage) failed
  | _ => rfl

/-- A pass that has been disposed of gets nothing. -/
theorem holdings_run_of_disposed {use : PassUse} (ha : use.Suits s.stage) (hd : disposed s.stage = true) :
    holdings (use.run s).2.stage = holdings s.stage := by
  have same {t : Staged Pass} (ht : target? t.stage = target? s.stage) (hp : program? t.stage = program? s.stage) :
      holdings t.stage = holdings s.stage := by
    unfold holdings
    rw [ht, hp]
  obtain ⟨p, h⟩ := s
  cases use with
  | change setter =>
    obtain ⟨c, hp⟩ := PassSetter.idle_run ha.admissible ⟨p, h⟩
    exact same c.target hp
  | configure setup => exact same (target?_configure_of_disposed setup hd h) (program?_configure setup p h)
  | prepare => exact same (conserves_prepare ⟨p, h⟩).target (program?_prepare_of_disposed hd h)
  | render io deltaTime =>
    exact same (conserves_render io deltaTime ⟨p, h⟩).target (program?_render_of_disposed io deltaTime hd h)
  | resize width height =>
    refine same (conserves_resize width height ⟨p, h⟩).target ?_
    cases p <;> rfl
  | dispose => rw [PassUse.run_dispose, dispose_of_disposed hd]

/-- Only a disposal disposes of a pass. -/
theorem disposed_run {use : PassUse} (ha : use.Suits s.stage) (hu : use ≠ .dispose) :
    disposed (use.run s).2.stage = disposed s.stage := by
  obtain ⟨p, h⟩ := s
  cases use with
  | change setter => exact (lasting_setter ha.admissible p h).disposed
  | configure setup => exact (configure_eq setup p h).1
  | prepare => exact (lasting_prepare p h).disposed
  | render io deltaTime => exact (lasting_render io deltaTime p h).disposed
  | resize width height => exact (lasting_resize width height p h).disposed
  | dispose => exact absurd rfl hu

/-- A pass that has been disposed of holds nothing. -/
theorem Used.holdings_eq_zero (used : Used s) (hd : disposed s.stage = true) : holdings s.stage = 0 := by
  induction used with
  | made h m => exact m.fresh.holdings_eq
  | @used s use _ suits ih =>
    cases hbefore : disposed s.stage with
    | true =>
      rw [holdings_run_of_disposed suits hbefore]
      exact ih hbefore
    | false =>
      by_cases hu : use = .dispose
      · rw [hu, PassUse.run_dispose]
        exact holdings_dispose hbefore s.host
      · rw [disposed_run suits hu, hbefore] at hd
        cases hd
  | elsewhere _ _ ih => exact ih hd

end Pass

end ScreenFusion
