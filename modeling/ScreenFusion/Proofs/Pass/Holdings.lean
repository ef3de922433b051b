import ScreenFusion.Pass
import ScreenFusion.Proofs.Device.Holdings
import ScreenFusion.Proofs.Pass.EffectHistory

/-!
# ScreenFusion.Proofs.Pass.Holdings — what passes hold of a device

A depth pass holds a target, a pass that runs a program holds that.  Whatever a pass does, the device has what the pass
holds and what others held before: a new program is taken into use before the old one is released, and a failure leaves
what there was.

* `Holder`: what may hold something, and whether it has been disposed of.
* `Equipped`: what is live and has the target that it needs.
* `Staged.Conserves`: an act after which the device has what its stage holds and the rest.
* `Pass.conserves_prepare`, `Pass.conserves_render`, `Pass.conserves_resize`: the acts of a pass in a pipeline.
* `Pass.configure_holds`, `Pass.dispose_holds`: the first and the last act.
-/

namespace ScreenFusion

/-- What may hold a target and a program of a device. -/
class Holder (P : Type) where
  disposed : P → Bool
  /-- Whether it can run only with a target of its own. -/
  needsTarget : P → Bool
  target? : P → Option Nat
  program? : P → Option Nat

open Holder

/-- What is held. -/
def holdings {P : Type} [Holder P] (p : P) : Holdings := ((target? p).toList, (program? p).toList)

theorem holdings_of_none {P : Type} [Holder P] {p : P} (ht : target? p = none) (hp : program? p = none) :
    holdings p = 0 := by
  unfold holdings
  rw [ht, hp]
  rfl

/-- The second is as live as the first, and has the same needs, target and program. -/
structure SameHolder {P Q : Type} [Holder P] [Holder Q] (p : P) (q : Q) : Prop where
  disposed : disposed q = disposed p
  needsTarget : needsTarget q = needsTarget p
  target : target? q = target? p
  program : program? q = program? p

theorem SameHolder.holdings {P Q : Type} [Holder P] [Holder Q] {p : P} {q : Q} (h : SameHolder p q) :
    holdings q = holdings p := by
  unfold ScreenFusion.holdings
  rw [h.target, h.program]

/-- It is live, and has a target if it needs one. -/
structure Equipped {P : Type} [Holder P] (p : P) : Prop where
  live : disposed p = false
  target : needsTarget p = true → (target? p).isSome = true

namespace Staged

variable {P α β : Type} [Holder P] {s t u : Staged P}

/-- The stage is as live as it was and has the same target, and the device has what the stage holds and the rest. -/
structure Conserved (s t : Staged P) : Prop where
  disposed : disposed t.stage = disposed s.stage
  needsTarget : needsTarget t.stage = needsTarget s.stage
  target : target? t.stage = target? s.stage
  holds : ∀ rest, s.host.Holds (holdings s.stage + rest) → t.host.Holds (holdings t.stage + rest)

theorem Conserved.equipped (c : Conserved s t) (e : Equipped s.stage) : Equipped t.stage := by
  refine ⟨c.disposed.trans e.live, fun hneeds => ?_⟩
  rw [c.target]
  exact e.target (c.needsTarget ▸ hneeds)

theorem Conserved.refl (s : Staged P) : Conserved s s := ⟨rfl, rfl, rfl, fun _ => id⟩

theorem Conserved.trans (h : Conserved s t) (h' : Conserved t u) : Conserved s u :=
  ⟨h'.disposed.trans h.disposed, h'.needsTarget.trans h.needsTarget, h'.target.trans h.target,
    fun rest hs => h'.holds rest (h.holds rest hs)⟩

/-- An act that conserves what its stage and others hold. -/
def Conserves (x : Act (Staged P) α) : Prop := ∀ s, Conserved s (x s).2

namespace Conserves

theorem pure (a : α) : Conserves (Pure.pure a : Act (Staged P) α) := .refl

theorem fail (e : Error) : Conserves (Act.fail e : Act (Staged P) α) := .refl

theorem ofExcept (r : Except Error α) : Conserves (Act.ofExcept r : Act (Staged P) α) := .refl

theorem get : Conserves (Staged.get : Act (Staged P) P) := .refl

theorem device : Conserves (Staged.device : Act (Staged P) Device) := .refl

theorem bind {x : Act (Staged P) α} {f : α → Act (Staged P) β} (hx : Conserves x) (hf : ∀ a, Conserves (f a)) :
    Conserves (x >>= f) := by
  intro s
  have h := hx s
  rw [Act.bind_apply]
  rcases hr : x s with ⟨e | a, t⟩ <;> rw [hr] at h
  · exact h
  · exact h.trans (hf a t)

theorem ite {p : Prop} [Decidable p] {x y : Act (Staged P) α} (hx : Conserves x) (hy : Conserves y) :
    Conserves (if p then x else y) := by
  split
  · exact hx
  · exact hy

theorem report (events : List Event) : Conserves (Staged.report events : Act (Staged P) Unit) :=
  fun _ => ⟨rfl, rfl, rfl, fun _ h => h.report events⟩

theorem onHost {x : Act Host α} (hx : Host.Steady x) : Conserves (Staged.onHost x : Act (Staged P) α) :=
  fun s => ⟨rfl, rfl, rfl, fun _ h => hx s.host _ h⟩

theorem modify {f : P → P} (hf : ∀ p, SameHolder p (f p)) : Conserves (Staged.modify f) := by
  intro s
  obtain ⟨hd, hn, ht, hp⟩ := hf s.stage
  refine ⟨hd, hn, ht, fun rest h => ?_⟩
  have hsame : holdings (f s.stage) = holdings s.stage := by
    unfold holdings
    rw [ht, hp]
  exact hsame ▸ h

end Conserves

end Staged

open Staged

/-! ## Clear and scene passes -/

instance : Holder ClearPass := ⟨ClearPass.disposed, fun _ => false, fun _ => none, fun _ => none⟩

instance : Holder ScenePass := ⟨ScenePass.disposed, fun _ => false, fun _ => none, fun _ => none⟩

theorem ClearPass.conserves_render (io : PassIo) : Conserves (ClearPass.render io) :=
  .bind .get fun _ => .ite (.pure ()) (.onHost (Host.steady_clear _ _ _))

theorem ScenePass.conserves_render (io : PassIo) : Conserves (ScenePass.render io) :=
  .bind .get fun _ => .onHost (Host.steady_renderScene _)

/-! ## Depth passes -/

namespace DepthPass

instance : Holder DepthPass := ⟨DepthPass.disposed, fun _ => true, DepthPass.target, fun _ => none⟩

theorem conserves_render : Conserves render := by
  refine .bind (.modify fun _ => ⟨rfl, rfl, rfl, rfl⟩) fun _ => .bind .get fun p => ?_
  cases p.target with
  | none => exact .fail _
  | some target =>
    exact .bind (.onHost (Host.steady_clear _ _ _)) fun _ =>
      .bind (.onHost (Host.steady_renderScene _)) fun _ =>
        .modify fun _ => ⟨rfl, rfl, rfl, rfl⟩

/-- Gives the target the size of a pass, if it has another one. -/
def refit (p : DepthPass) : Act (Staged DepthPass) Unit :=
  match p.target with
  | none => return ()
  | some target => do
    if (← Staged.device).targetSize? target = some p.size then return ()
    else
      Staged.modify fun p => { p with rendered := false }
      Staged.onHost (Host.resizeTarget target p.size.1 p.size.2)
      Staged.report [.depthResized name p.size.1 p.size.2]

theorem conserves_refit (p : DepthPass) : Conserves (refit p) := by
  unfold refit
  cases p.target with
  | none => exact .pure ()
  | some target =>
    refine .bind .device fun _ => .ite (.pure ()) ?_
    exact .bind (.modify fun _ => ⟨rfl, rfl, rfl, rfl⟩) fun _ =>
      .bind (.onHost (Host.steady_resizeTarget _ _ _)) fun _ => .report _

theorem conserves_resize (width height : Nat) : Conserves (resize width height) := by
  intro s
  let p := (s.stage.rebased width height).2
  let p' : DepthPass := { p with rendered := p.rendered && !(s.stage.rebased width height).1 }
  have hrebased : Conserved s ⟨p', s.host⟩ := ⟨rfl, rfl, rfl, fun _ => id⟩
  exact hrebased.trans (conserves_refit p _)

/-- A new depth pass that is set up has a target, which is new; one for which that fails has none. -/
theorem configure_holds {s : Staged DepthPass} {rest : Holdings} (hd : s.stage.disposed = false)
    (hs : s.host.Holds (holdings s.stage + rest)) :
    (configure s).2.stage.disposed = false ∧ (configure s).2.host.Holds (holdings (configure s).2.stage + rest) ∧
      ((configure s).1 = .ok () → (configure s).2.stage.target.isSome = true) := by
  obtain ⟨p, h⟩ := s
  dsimp only at hd hs
  unfold configure
  rw [Act.bind_of_ok (get_apply _), if_neg (by simp [hd])]
  cases ht : p.target with
  | some t => exact ⟨hd, hs, fun _ => by simp [ht]⟩
  | none =>
    let q := (p.rebased h.device.outputSize.1 h.device.outputSize.2).2
    let spec : TargetSpec := ⟨name ++ ".depth", q.size.1, q.size.2, .full, false, true⟩
    have hnone : q.target = none := ht
    have hq : h.Holds rest := by rwa [holdings_of_none ht rfl, zero_add] at hs
    show let r := (do
        let target ← Staged.onHost (Host.createTarget spec)
        Staged.modify fun p : DepthPass => { p with target := some target }
        Staged.report [.depthAllocated name q.size.1 q.size.2] : Act (Staged DepthPass) Unit) ⟨q, h⟩
      r.2.stage.disposed = false ∧ r.2.host.Holds (holdings r.2.stage + rest) ∧
        (r.1 = .ok () → r.2.stage.target.isSome = true)
    have hmade := hq.createTarget spec
    rw [Act.bind_apply, onHost_apply]
    rcases hc : Host.createTarget spec h with ⟨e | t, k⟩ <;> rw [hc] at hmade
    · have hk : k.Holds (holdings q + rest) := by
        rw [holdings_of_none hnone rfl, zero_add]
        exact hmade
      exact ⟨hd, hk, nofun⟩
    · exact ⟨hd, hmade.report _, fun _ => rfl⟩

theorem dispose_holds {s : Staged DepthPass} {rest : Holdings} (hd : s.stage.disposed = false)
    (hs : s.host.Holds (holdings s.stage + rest)) : (dispose s).2.host.Holds rest := by
  obtain ⟨p, h⟩ := s
  dsimp only at hd hs
  unfold dispose
  rw [Act.bind_of_ok (get_apply _), if_neg (by simp [hd])]
  cases ht : p.target with
  | none => rwa [holdings_of_none ht rfl, zero_add] at hs
  | some t =>
    have hone : holdings p = .target t := by
      unfold holdings
      show ((p.target.toList : Multiset Nat), _) = _
      rw [ht]
      rfl
    rw [hone] at hs
    exact hs.releaseTarget

end DepthPass

/-! ## Passes that run programs -/

namespace Staged

variable {P C α : Type}

/-- A part of a build: the stage stays, and if the part succeeds there is a new program. -/
def Compiles (program : C → Nat) (x : Act (Staged P) C) : Prop :=
  ∀ s, (x s).2.stage = s.stage ∧ ∀ m, s.host.Holds m →
    match x s with
    | (.ok c, t) => t.host.Holds (.program (program c) + m)
    | (.error _, t) => t.host.Holds m

namespace Compiles

variable {program : C → Nat}

theorem bind_get {f : P → Act (Staged P) C} (hf : ∀ p, Compiles program (f p)) : Compiles program (Staged.get >>= f) :=
  fun s => hf s.stage s

theorem bind_report {events : List Event} {x : Act (Staged P) C} (hx : Compiles program x) :
    Compiles program (Staged.report events >>= fun _ => x) := by
  intro s
  obtain ⟨hstage, hholds⟩ := hx { s with host := s.host.report events }
  exact ⟨hstage, fun m hm => hholds m (hm.report events)⟩

theorem bind_ofExcept {r : Except Error α} {f : α → Act (Staged P) C} (hf : ∀ a, Compiles program (f a)) :
    Compiles program (Act.ofExcept r >>= f) := by
  intro s
  cases r with
  | error e => exact ⟨rfl, fun _ => id⟩
  | ok a => exact hf a s

/-- The program is the one that the device makes. -/
theorem compile (source : ProgramSource) {c : Nat → C} (hc : ∀ id, program (c id) = id) :
    Compiles program (do
      let id ← Staged.onHost (Host.compileProgram source)
      return c id : Act (Staged P) C) := by
  intro s
  rw [Act.bind_apply, onHost_apply]
  refine ⟨?_, fun m hm => ?_⟩
  · rcases Host.compileProgram source s.host with ⟨e | id, k⟩ <;> rfl
  · have hmade := hm.compileProgram source
    rcases hk : Host.compileProgram source s.host with ⟨e | id, k⟩ <;> rw [hk] at hmade
    · exact hmade
    · show k.Holds (.program (program (c id)) + m)
      rwa [hc]

end Compiles

/-- Releases a program if there is one. -/
def retire (program : Option Nat) (h : Host) : Host :=
  match program with
  | some id => (h.releaseProgram id).2
  | none => h

theorem retire_holds {program : Option Nat} {h : Host} {rest : Holdings}
    (hh : h.Holds ((0, (program.toList : Multiset Nat)) + rest)) : (retire program h).Holds rest := by
  cases program with
  | none => exact (zero_add rest) ▸ hh
  | some id => exact hh.releaseProgram

end Staged

namespace MaterialPass

instance : Holder MaterialPass :=
  ⟨MaterialPass.disposed, fun _ => false, fun _ => none, fun p => p.compiled.map CompiledMaterial.program⟩

theorem compiles_build : Compiles CompiledMaterial.program build :=
  .bind_get fun _ => .bind_report (.bind_ofExcept fun source => .compile source fun _ => rfl)

theorem conserves_configure (setup : Setup) : Conserves (configure setup) := by
  refine .modify fun p => ?_
  dsimp only
  split
  · exact ⟨rfl, rfl, rfl, rfl⟩
  · exact ⟨rfl, rfl, rfl, rfl⟩

variable {p : MaterialPass} {h k : Host} {c : CompiledMaterial} {e : Error}

/-- The pass with a new program. -/
def adopt (p : MaterialPass) (c : CompiledMaterial) : MaterialPass :=
  { p with dirty := false, compiled := some c, lastError := none }

/-- The pass after a build that failed. -/
def giveUp (p : MaterialPass) (e : Error) : MaterialPass :=
  { p with
    dirty := false
    lastError := some e
    settings := if p.compiled.isSome then p.settings else { p.settings with enabled := false } }

theorem rebuild_of_ok (hb : build ⟨p, h⟩ = (.ok c, ⟨p, k⟩)) :
    rebuild ⟨p, h⟩ = (.ok (), ⟨p.adopt c, (retire (program? p) k).report [.materialBuilt p.name]⟩) := by
  have ha : Act.attempt build ⟨p, h⟩ = (.ok (.ok c), ⟨p, k⟩) := by rw [Act.attempt_apply, hb]
  unfold rebuild
  rw [Act.bind_of_ok ha]
  obtain ⟨_, _, _, _, compiled, _, _, _, _, _⟩ := p
  cases compiled <;> rfl

theorem rebuild_of_error (hb : build ⟨p, h⟩ = (.error e, ⟨p, k⟩)) :
    rebuild ⟨p, h⟩ = (.error e, ⟨p.giveUp e,
      k.report [if p.compiled.isSome then .programKept p.name e else .passDisabled p.name e]⟩) := by
  have ha : Act.attempt build ⟨p, h⟩ = (.ok (.error e), ⟨p, k⟩) := by rw [Act.attempt_apply, hb]
  unfold rebuild
  rw [Act.bind_of_ok ha]
  obtain ⟨_, _, _, _, compiled, _, _, _, _, _⟩ := p
  cases compiled <;> rfl

theorem conserves_rebuild : Conserves rebuild := by
  rintro ⟨p, h⟩
  obtain ⟨hstage, hholds⟩ := compiles_build ⟨p, h⟩
  rcases hb : build ⟨p, h⟩ with ⟨e | c, q, k⟩ <;> rw [hb] at hstage hholds <;>
    (have hq : q = p := hstage) <;> subst hq
  · rw [rebuild_of_error hb]
    exact ⟨rfl, rfl, rfl, fun rest hs => (hholds _ hs).report _⟩
  · rw [rebuild_of_ok hb]
    refine ⟨rfl, rfl, rfl, fun rest hs => Host.Holds.report ?_ _⟩
    refine retire_holds ?_
    have hk : k.Holds (.program c.program + (holdings q + rest)) := hholds _ hs
    rw [add_left_comm] at hk
    exact hk

theorem conserves_prepare : Conserves prepare := by
  refine .bind .get fun p => .ite (.fail _) (.ite conserves_rebuild ?_)
  cases p.compiled with
  | some compiled => exact .pure ()
  | none =>
    cases p.lastError with
    | some e => exact .fail e
    | none => exact conserves_rebuild

theorem conserves_render (io : PassIo) (deltaTime : Binary32) : Conserves (render io deltaTime) := by
  refine .bind conserves_prepare fun _ => .bind (.modify fun _ => ⟨rfl, rfl, rfl, rfl⟩) fun _ => .bind .get fun p => ?_
  cases p.compiled with
  | none => exact .fail _
  | some compiled =>
    exact .bind .device fun _ => .onHost (Host.steady_drawFullscreen _)

theorem dispose_holds {s : Staged MaterialPass} {rest : Holdings} (hd : s.stage.disposed = false)
    (hs : s.host.Holds (holdings s.stage + rest)) : (dispose s).2.host.Holds rest := by
  obtain ⟨p, h⟩ := s
  dsimp only at hd hs
  have hretired := retire_holds hs
  unfold dispose
  rw [Act.bind_of_ok (get_apply _), if_neg (by simp [hd])]
  obtain ⟨_, _, _, _, compiled, _, _, _, _, _⟩ := p
  cases compiled <;> exact hretired

end MaterialPass

namespace EffectPass

instance : Holder EffectPass :=
  ⟨EffectPass.disposed, fun _ => false, fun _ => none, fun p => p.compiled.map CompiledEffects.program⟩

theorem compiles_build (key : ProgramKey) : Compiles CompiledEffects.program (build key) :=
  .bind_get fun _ => .bind_ofExcept fun _ => .bind_report (.bind_ofExcept fun source => .compile source fun _ => rfl)

theorem conserves_configure (setup : Setup) : Conserves (configure setup) := by
  refine .modify fun p => ?_
  dsimp only
  split
  · exact ⟨rfl, rfl, rfl, rfl⟩
  · exact ⟨rfl, rfl, rfl, rfl⟩

theorem retire_eq (p : EffectPass) (h : Host) : p.retire h = Staged.retire (program? p) h := by
  obtain ⟨_, _, _, _, compiled, _, _, _, _, _, _⟩ := p
  cases compiled <;> rfl

theorem conserves_rebuild (key : ProgramKey) : Conserves (rebuild key) := by
  rintro ⟨p, h⟩
  obtain ⟨hstage, hholds⟩ := compiles_build key ⟨p, h⟩
  rcases hb : build key ⟨p, h⟩ with ⟨e | c, q, k⟩ <;> rw [hb] at hstage hholds <;>
    (have hq : q = p := hstage) <;> subst hq
  · rw [rebuild_of_error hb]
    exact ⟨rfl, rfl, rfl, fun rest hs => (hholds _ hs).report _⟩
  · rw [rebuild_of_ok hb, retire_eq]
    refine ⟨rfl, rfl, rfl, fun rest hs => Host.Holds.report ?_ _⟩
    refine retire_holds ?_
    have hk : k.Holds (.program c.program + (holdings q + rest)) := hholds _ hs
    rw [add_left_comm] at hk
    exact hk

theorem conserves_commit : Conserves commit := by
  refine .bind .get fun p => .ite (.fail _) (.ite (.pure false) ?_)
  cases (if p.isDirty then none else p.lastError) with
  | some e => exact .fail e
  | none =>
    refine .ite ?_ ?_
    · exact .bind (.modify fun _ => ⟨rfl, rfl, rfl, rfl⟩) fun _ => .pure false
    · exact .bind (conserves_rebuild p.key) fun _ => .pure true

theorem conserves_render (io : PassIo) (deltaTime : Binary32) : Conserves (render io deltaTime) := by
  refine .bind conserves_commit fun _ => .bind (.modify fun _ => ⟨rfl, rfl, rfl, rfl⟩) fun _ => .bind .get fun p => ?_
  cases p.compiled with
  | none => exact .fail _
  | some compiled =>
    exact .bind .device fun _ => .onHost (Host.steady_drawFullscreen _)

theorem dispose_holds {s : Staged EffectPass} {rest : Holdings} (hd : s.stage.disposed = false)
    (hs : s.host.Holds (holdings s.stage + rest)) : (dispose s).2.host.Holds rest := by
  obtain ⟨p, h⟩ := s
  rw [dispose_of_live hd, retire_eq]
  exact (retire_holds hs).report _

end EffectPass

/-! ## Passes of any kind -/

namespace Pass

instance : Holder Pass where
  disposed
    | clear p => p.disposed
    | scene p => p.disposed
    | depth p => p.disposed
    | material p => p.disposed
    | effect p => p.disposed
  needsTarget := isDepthProducer
  target?
    | depth p => p.target
    | _ => none
  program?
    | material p => program? p
    | effect p => program? p
    | _ => none

/-- An act of one kind of pass that conserves what it holds does so as an act of any pass. -/
theorem conserved_within {P α : Type} [Holder P] {x : Act (Staged P) α} (hx : Conserves x) (wrap : P → Pass) (p : P)
    (h : Host) (hwrap : ∀ q, SameHolder q (wrap q)) : Conserved ⟨wrap p, h⟩ (within wrap p x ⟨wrap p, h⟩).2 := by
  obtain ⟨hd, hn, ht, hh⟩ := hx ⟨p, h⟩
  refine ⟨?_, ?_, ?_, fun rest hs => ?_⟩
  · exact ((hwrap _).disposed.trans hd).trans (hwrap p).disposed.symm
  · exact ((hwrap _).needsTarget.trans hn).trans (hwrap p).needsTarget.symm
  · exact ((hwrap _).target.trans ht).trans (hwrap p).target.symm
  · have hs : h.Holds (holdings (wrap p) + rest) := hs
    rw [(hwrap p).holdings] at hs
    have hk := hh rest hs
    rw [← (hwrap _).holdings] at hk
    exact hk

theorem conserves_prepare : Conserves prepare := by
  rintro ⟨p, h⟩
  cases p with
  | clear p => exact .refl _
  | scene p => exact .refl _
  | depth p => exact .refl _
  | material p => exact conserved_within MaterialPass.conserves_prepare _ p h fun _ => ⟨rfl, rfl, rfl, rfl⟩
  | effect p =>
    exact conserved_within (.bind EffectPass.conserves_commit fun _ => .pure ()) _ p h fun _ => ⟨rfl, rfl, rfl, rfl⟩

theorem conserves_render (io : PassIo) (deltaTime : Binary32) : Conserves (render io deltaTime) := by
  rintro ⟨p, h⟩
  cases p with
  | clear p => exact conserved_within (ClearPass.conserves_render io) _ p h fun _ => ⟨rfl, rfl, rfl, rfl⟩
  | scene p => exact conserved_within (ScenePass.conserves_render io) _ p h fun _ => ⟨rfl, rfl, rfl, rfl⟩
  | depth p => exact conserved_within DepthPass.conserves_render _ p h fun _ => ⟨rfl, rfl, rfl, rfl⟩
  | material p => exact conserved_within (MaterialPass.conserves_render io deltaTime) _ p h fun _ => ⟨rfl, rfl, rfl, rfl⟩
  | effect p => exact conserved_within (EffectPass.conserves_render io deltaTime) _ p h fun _ => ⟨rfl, rfl, rfl, rfl⟩

theorem conserves_resize (width height : Nat) : Conserves (resize width height) := by
  rintro ⟨p, h⟩
  cases p with
  | depth p => exact conserved_within (DepthPass.conserves_resize width height) _ p h fun _ => ⟨rfl, rfl, rfl, rfl⟩
  | clear p => exact .refl _
  | scene p => exact .refl _
  | material p => exact .refl _
  | effect p => exact .refl _

/-- A live pass that is set up is live, and is equipped if that succeeds. -/
theorem configure_holds {s : Staged Pass} {rest : Holdings} (setup : Setup) (hd : disposed s.stage = false)
    (hs : s.host.Holds (holdings s.stage + rest)) :
    disposed (configure setup s).2.stage = false ∧
      (configure setup s).2.host.Holds (holdings (configure setup s).2.stage + rest) ∧
      ((configure setup s).1 = .ok () → Equipped (configure setup s).2.stage) := by
  obtain ⟨p, h⟩ := s
  cases p with
  | clear p => exact ⟨hd, hs, fun _ => ⟨hd, nofun⟩⟩
  | scene p => exact ⟨hd, hs, fun _ => ⟨hd, nofun⟩⟩
  | depth p =>
    obtain ⟨hlive, hheld, htarget⟩ := DepthPass.configure_holds (s := ⟨p, h⟩) hd hs
    exact ⟨hlive, hheld, fun hok => ⟨hlive, fun _ => htarget hok⟩⟩
  | material p =>
    have c := conserved_within (MaterialPass.conserves_configure setup) material p h fun _ => ⟨rfl, rfl, rfl, rfl⟩
    exact ⟨c.disposed.trans hd, c.holds rest hs, fun _ => ⟨c.disposed.trans hd, nofun⟩⟩
  | effect p =>
    have c := conserved_within (EffectPass.conserves_configure setup) effect p h fun _ => ⟨rfl, rfl, rfl, rfl⟩
    exact ⟨c.disposed.trans hd, c.holds rest hs, fun _ => ⟨c.disposed.trans hd, nofun⟩⟩

/-- A live pass that is disposed of gives back what it holds. -/
theorem dispose_holds {s : Staged Pass} {rest : Holdings} (hd : disposed s.stage = false)
    (hs : s.host.Holds (holdings s.stage + rest)) : (dispose s).2.host.Holds rest := by
  obtain ⟨p, h⟩ := s
  cases p with
  | clear p => exact (zero_add rest) ▸ hs
  | scene p => exact (zero_add rest) ▸ hs
  | depth p => exact DepthPass.dispose_holds (s := ⟨p, h⟩) hd hs
  | material p => exact MaterialPass.dispose_holds (s := ⟨p, h⟩) hd hs
  | effect p => exact EffectPass.dispose_holds (s := ⟨p, h⟩) hd hs

end Pass

end ScreenFusion
