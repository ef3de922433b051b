import ScreenFusion.Proofs.Pass.Holdings

/-!
# ScreenFusion.Proofs.Pass.Setter — changes of a pass from outside

Whoever has a pass may change its settings, what it draws, and its effects.  None of these changes reaches the device, so
that a pass that has only been made and changed holds nothing.

* `Staged.Idle`: acts that conserve what the stage holds and leave its program.
* `PassSetter`, `PassSetter.run`: the changes as data.
* `PassSetter.idle_run`: they are idle.
* `Pass.Fresh`: passes that have been made and changed and not used; they hold nothing.
-/

namespace ScreenFusion

open Holder Staged

namespace Staged

variable {P α β : Type} [Holder P]

/-- An act that conserves what its stage holds, and leaves the program that it holds. -/
def Idle (x : Act (Staged P) α) : Prop := ∀ s, Conserved s (x s).2 ∧ program? (x s).2.stage = program? s.stage

namespace Idle

theorem pure (a : α) : Idle (Pure.pure a : Act (Staged P) α) := fun s => ⟨.refl s, rfl⟩

theorem fail (e : Error) : Idle (Act.fail e : Act (Staged P) α) := fun s => ⟨.refl s, rfl⟩

theorem ofExcept (r : Except Error α) : Idle (Act.ofExcept r : Act (Staged P) α) := fun s => ⟨.refl s, rfl⟩

theorem get : Idle (Staged.get : Act (Staged P) P) := fun s => ⟨.refl s, rfl⟩

theorem report (events : List Event) : Idle (Staged.report events : Act (Staged P) Unit) :=
  fun s => ⟨Conserves.report events s, rfl⟩

theorem bind {x : Act (Staged P) α} {f : α → Act (Staged P) β} (hx : Idle x) (hf : ∀ a, Idle (f a)) :
    Idle (x >>= f) := by
  intro s
  obtain ⟨hc, hp⟩ := hx s
  rw [Act.bind_apply]
  rcases hr : x s with ⟨e | a, t⟩ <;> rw [hr] at hc hp
  · exact ⟨hc, hp⟩
  · obtain ⟨hc', hp'⟩ := hf a t
    exact ⟨hc.trans hc', hp'.trans hp⟩

theorem modify {f : P → P} (hf : ∀ p, SameHolder p (f p)) : Idle (Staged.modify f) :=
  fun s => ⟨Conserves.modify hf s, (hf s.stage).program⟩

end Idle

end Staged

/-- A change of a pass from outside.  Changes for other kinds of passes do nothing. -/
inductive PassSetter where
  | settings (settings : PassSettings)
  | camera (planes : CameraPlanes)
  /-- What a clear pass fills the buffer with. -/
  | fill (color : Option (Rgba Float32)) (depth : Bool)
  /-- What a scene pass draws. -/
  | view (scene : Nat) (layers : Layers) (background : Option (Rgba Float32))
  /-- What a depth pass draws. -/
  | depthView (scene : Nat) (layers : Layers)
  /-- Any change of the resolution of a depth pass. -/
  | resolution (f : Resolution → Resolution)
  | material (material : Material)
  | uniform (name : String) (value : UniformValue)
  /-- A use of an effect pass that needs no device. -/
  | effects (op : EffectPassOp)

namespace EffectPassOp

/-- Whether a use of an effect pass needs no device. -/
def isSetter : EffectPassOp → Bool
  | configure _ | commit | render .. | dispose => false
  | _ => true

open EffectPass in
theorem idle_run {op : EffectPassOp} (h : op.isSetter = true) : Idle op.run := by
  have insertion (index : Nat) (e : Effect) : Idle (insertEffect index e) :=
    .bind .get fun _ => .bind (.ofExcept _) fun _ => .bind (.report _) fun _ => .modify fun _ => ⟨rfl, rfl, rfl, rfl⟩
  have change (id : Nat) (c : EffectChange) : Idle (changeEffect id c) := by
    refine .bind .get fun p => ?_
    cases p.effect? id with
    | none => exact .pure ()
    | some e => exact .bind (.report _) fun _ => .modify fun _ => ⟨rfl, rfl, rfl, rfl⟩
  cases op with
  | insert index e => exact insertion index e
  | add e => exact .bind .get fun p => insertion _ e
  | remove id =>
    refine .modify fun p => ?_
    unfold removeEffect
    split <;> exact ⟨rfl, rfl, rfl, rfl⟩
  | replace effects =>
    rintro ⟨p, k⟩
    rw [run_replace]
    cases checkMembers p.name effects with
    | error e => exact ⟨.refl _, rfl⟩
    | ok a => exact ⟨⟨rfl, rfl, rfl, fun _ => id⟩, rfl⟩
  | attributes id a =>
    refine .bind .get fun p => ?_
    cases p.effect? id with
    | none => exact .fail _
    | some e =>
      refine .bind (.modify fun _ => ⟨rfl, rfl, rfl, rfl⟩) fun _ => .bind .get fun q => ?_
      cases checkMembers p.name q.effects with
      | ok _ => exact .pure ()
      | error err => exact .bind (.modify fun _ => ⟨rfl, rfl, rfl, rfl⟩) fun _ => .fail err
  | change id c => exact change id c
  | changeNamed name c =>
    refine .bind .get fun p => ?_
    cases p.effectByName? name with
    | none => exact .pure ()
    | some e => exact change e.id c
  | camera planes => exact .modify fun _ => ⟨rfl, rfl, rfl, rfl⟩
  | settings s => exact .modify fun _ => ⟨rfl, rfl, rfl, rfl⟩
  | configure setup => cases h
  | commit => cases h
  | render io deltaTime => cases h
  | dispose => cases h

end EffectPassOp

namespace PassSetter

/-- Whether a change needs no device. -/
def Admissible : PassSetter → Prop
  | effects op => op.isSetter = true
  | _ => True

/-- What a change does. -/
def run : PassSetter → Act (Staged Pass) Unit
  | settings s => Staged.modify (Pass.withSettings s)
  | camera planes => Staged.modify (Pass.setCamera planes)
  | fill color depth => Staged.modify fun
    | .clear p => .clear { p with color, depth }
    | p => p
  | view scene layers background => Staged.modify fun
    | .scene p => .scene { p with scene, layers, background }
    | p => p
  | depthView scene layers => Staged.modify fun
    | .depth p => .depth { p with scene, layers }
    | p => p
  | resolution f => Staged.modify fun
    | .depth p => .depth { p with resolution := f p.resolution }
    | p => p
  | material m => Staged.modify fun
    | .material p => .material (p.setMaterial m)
    | p => p
  | uniform name value => Staged.modify fun
    | .material p => .material (p.setUniform name value)
    | p => p
  | effects op => do
    match ← Staged.get with
    | .effect p => Pass.within .effect p op.run
    | _ => return ()

theorem idle_run {setter : PassSetter} (h : setter.Admissible) : Idle setter.run := by
  cases setter with
  | effects op =>
    rintro ⟨p, k⟩
    cases p with
    | effect p =>
      obtain ⟨-, hprogram⟩ := EffectPassOp.idle_run h ⟨p, k⟩
      have hop : Conserves op.run := fun s => (EffectPassOp.idle_run h s).1
      exact ⟨Pass.conserved_within hop _ p k fun _ => ⟨rfl, rfl, rfl, rfl⟩, hprogram⟩
    | clear p => exact ⟨.refl _, rfl⟩
    | scene p => exact ⟨.refl _, rfl⟩
    | depth p => exact ⟨.refl _, rfl⟩
    | material p => exact ⟨.refl _, rfl⟩
  | _ => exact .modify fun p => by cases p <;> exact ⟨rfl, rfl, rfl, rfl⟩

end PassSetter

/-- The passes that have been made and changed from outside, and not used. -/
inductive Pass.Fresh : Pass → Prop where
  | clear (color : Option (Rgba Float32)) (depth : Bool) : Fresh (.clear (ClearPass.create color depth))
  | scene (scene : Nat) : Fresh (.scene (ScenePass.create scene))
  | depth (scene : Nat) : Fresh (.depth (DepthPass.create scene))
  | material (m : Material) : Fresh (.material (MaterialPass.create m))
  | effect {name : String} {effects : List Effect} {p : EffectPass} :
      EffectPass.create name effects = .ok p → Fresh (.effect p)
  | changed {p : Pass} (setter : PassSetter) (h : Host) :
      Fresh p → setter.Admissible → Fresh (setter.run ⟨p, h⟩).2.stage

namespace Pass.Fresh

variable {p : Pass}

/-- A new pass is live and has neither a target nor a program. -/
theorem unused (f : Fresh p) : disposed p = false ∧ target? p = none ∧ program? p = none := by
  induction f with
  | clear color depth => exact ⟨rfl, rfl, rfl⟩
  | scene scene => exact ⟨rfl, rfl, rfl⟩
  | depth scene => exact ⟨rfl, rfl, rfl⟩
  | material m => exact ⟨rfl, rfl, rfl⟩
  | effect hp =>
    obtain ⟨_, -, hp⟩ := ok_of_bind hp
    cases hp
    exact ⟨rfl, rfl, rfl⟩
  | @changed p setter h _ ha ih =>
    obtain ⟨hlive, htarget, hprogram⟩ := ih
    obtain ⟨c, hsame⟩ := PassSetter.idle_run ha ⟨p, h⟩
    exact ⟨c.disposed.trans hlive, c.target.trans htarget, hsame.trans hprogram⟩

theorem holdings_eq (f : Fresh p) : holdings p = 0 := holdings_of_none f.unused.2.1 f.unused.2.2

end Pass.Fresh

end ScreenFusion
