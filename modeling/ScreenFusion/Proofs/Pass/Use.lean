import ScreenFusion.Proofs.Pass.Installed

/-!
# ScreenFusion.Proofs.Pass.Use — what becomes of a pass

A pass is made and then changed, set up, made ready, run, resized and disposed of in any order, while others use the
host.  Its program has been made from units that the pass brought, and the device knows it.

* `PassUse`: the uses of a pass as data.
* `Pass.Made`, `Pass.Used`: the passes that can be had, with their hosts.
* `Pass.Used.installed`: the invariant.
-/

namespace ScreenFusion

open Staged

/-! ## Uses -/

/-- A change needs no device, and what it puts into an effect pass can be had and is not yet there. -/
structure PassSetter.Suits (setter : PassSetter) (p : Pass) : Prop where
  admissible : setter.Admissible
  effects : ∀ op q, setter = .effects op → p = .effect q → op.Admissible q

/-- A use of a pass. -/
inductive PassUse where
  | change (setter : PassSetter)
  | configure (setup : Setup)
  | prepare
  | render (io : PassIo) (deltaTime : Binary32)
  | resize (width height : Nat)
  | dispose

namespace PassUse

/-- What a use does. -/
def run : PassUse → Act (Staged Pass) Unit
  | change setter => setter.run
  | configure setup => Pass.configure setup
  | prepare => Pass.prepare
  | render io deltaTime => Pass.render io deltaTime
  | resize width height => Pass.resize width height
  | dispose => do let _ ← Pass.dispose

/-- A change suits the pass that it changes. -/
def Suits (p : Pass) : PassUse → Prop
  | change setter => setter.Suits p
  | _ => True

theorem run_dispose (s : Staged Pass) : (run .dispose s).2 = (Pass.dispose s).2 :=
  congrArg Prod.snd (Act.drop_apply Pass.dispose s)

/-- Every use of an effect pass is a use of its own, or leaves it as it is. -/
theorem run_effect {p : EffectPass} (h : Host) {use : PassUse} (ha : use.Suits (.effect p)) :
    (use.run ⟨.effect p, h⟩).2 = ⟨.effect p, h⟩ ∨ ∃ op : EffectPassOp, op.Admissible p ∧
      (use.run ⟨.effect p, h⟩).2 = ⟨.effect (op.run ⟨p, h⟩).2.stage, (op.run ⟨p, h⟩).2.host⟩ := by
  cases use with
  | change setter =>
    cases setter with
    | settings s => exact .inr ⟨.settings s, trivial, rfl⟩
    | camera planes => exact .inr ⟨.camera planes, trivial, rfl⟩
    | effects op => exact .inr ⟨op, ha.effects op p rfl rfl, rfl⟩
    | _ => exact .inl rfl
  | configure setup => exact .inr ⟨.configure setup, trivial, rfl⟩
  | prepare => exact .inr ⟨.commit, trivial, rfl⟩
  | render io deltaTime => exact .inr ⟨.render io deltaTime, trivial, rfl⟩
  | resize width height => exact .inl rfl
  | dispose =>
    refine .inr ⟨.dispose, trivial, ?_⟩
    rw [run_dispose, EffectPassOp.run_dispose]
    rfl

end PassUse

namespace Pass

/-- Every use of a pass keeps that its program was made from units that it brought. -/
theorem Installed.used {p : Pass} {h : Host} (inst : p.Installed h.device) (use : PassUse) (ha : use.Suits p) :
    (use.run ⟨p, h⟩).2.stage.Installed (use.run ⟨p, h⟩).2.host.device := by
  cases p with
  | material p =>
    have inst : p.Installed h.device := inst
    cases use with
    | change setter =>
      have same : p.Installed h.device := inst.carried rfl rfl (fun hd he => ⟨hd, he, .refl _⟩) (refl_of _ _)
      cases setter with
      | settings s => exact same
      | camera planes => exact same
      | material m => exact inst.setMaterial m
      | uniform name value => exact inst.setUniform name value
      | _ => exact inst
    | configure setup => exact inst.configure setup
    | prepare => exact inst.prepare
    | render io deltaTime => exact inst.render io deltaTime
    | resize width height => exact inst
    | dispose =>
      rw [PassUse.run_dispose]
      exact inst.dispose
  | effect p =>
    rcases PassUse.run_effect h ha with hs | ⟨op, hop, hs⟩ <;> rw [hs]
    · exact inst
    · exact EffectPass.Installed.used inst op hop
  | _ =>
    -- nothing is built for the other kinds
    cases use with
    | change setter => cases setter <;> trivial
    | dispose =>
      rw [PassUse.run_dispose]
      trivial
    | _ => trivial

/-! ## Passes that can be had -/

/-- The passes that can be made, and changed from outside before they are used. -/
inductive Made : Pass → Prop where
  | clear (color : Option (Rgba Float32)) (depth : Bool) : Made (.clear (ClearPass.create color depth))
  | scene (scene : Nat) : Made (.scene (ScenePass.create scene))
  | depth (scene : Nat) : Made (.depth (DepthPass.create scene))
  | material (m : Material) : Made (.material (MaterialPass.create m))
  | effect {name : String} {effects : List Effect} {p : EffectPass} : (∀ e ∈ effects, e.Made) →
      (effects.map Effect.id).Nodup → EffectPass.create name effects = .ok p → Made (.effect p)
  | changed {p : Pass} (setter : PassSetter) (h : Host) :
      Made p → setter.Suits p → Made (setter.run ⟨p, h⟩).2.stage

theorem Made.fresh {p : Pass} (m : Made p) : Fresh p := by
  induction m with
  | clear color depth => exact .clear color depth
  | scene scene => exact .scene scene
  | depth scene => exact .depth scene
  | material m => exact .material m
  | effect _ _ hp => exact .effect hp
  | changed setter h _ suits ih => exact .changed setter h ih suits.admissible

/-- Of a pass without a program it holds with any device. -/
theorem Installed.of_program?_eq_none {p : Pass} {d d' : Device} (inst : p.Installed d)
    (hn : Holder.program? p = none) : p.Installed d' := by
  cases p with
  | material p => exact .of_none (Option.map_eq_none_iff.1 hn)
  | effect p =>
    refine ⟨inst.reached, fun c hc => ?_⟩
    rw [Option.map_eq_none_iff.1 hn] at hc
    cases hc
  | _ => trivial

theorem Made.installed {p : Pass} (m : Made p) (d : Device) : p.Installed d := by
  induction m generalizing d with
  | effect hm hn hp =>
    obtain ⟨_, -, hp'⟩ := ok_of_bind hp
    cases hp'
    exact ⟨⟨_, .created hm hn hp⟩, nofun⟩
  | material m => exact .of_none rfl
  | changed setter h m suits ih =>
    exact ((ih h.device).used (.change setter) suits).of_program?_eq_none
      (Made.changed setter h m suits).fresh.unused.2.2
  | _ => trivial

/-- The passes that have been made and used in any order, each with the host that it works on.  In between others may
use the host. -/
inductive Used : Staged Pass → Prop where
  | made {p : Pass} (h : Host) : p.Made → Used ⟨p, h⟩
  | used {s : Staged Pass} (use : PassUse) : Used s → use.Suits s.stage → Used (use.run s).2
  | elsewhere {p : Pass} {h k : Host} : Used ⟨p, h⟩ → h.Later k → Used ⟨p, k⟩

theorem Installed.later {p : Pass} {d d' : Device} (inst : p.Installed d) (l : d.Later d') : p.Installed d' := by
  cases p with
  | material p => exact MaterialPass.Installed.later inst l
  | effect p => exact EffectPass.Installed.later inst l
  | _ => trivial

/-- The program of a pass that can be had was made from units that it brought. -/
theorem Used.installed {s : Staged Pass} (u : Used s) : s.stage.Installed s.host.device := by
  induction u with
  | made h m => exact m.installed h.device
  | used use _ suits ih => exact ih.used use suits
  | elsewhere _ l ih => exact ih.later l

end Pass

end ScreenFusion
