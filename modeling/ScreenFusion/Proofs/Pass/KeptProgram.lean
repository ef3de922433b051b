import ScreenFusion.Proofs.Pass.QuietRun

/-!
# ScreenFusion.Proofs.Pass.KeptProgram — whose values a kept program gets

A program has a unit for each effect that it was built from.  When a build fails the pass keeps the program, but a draw
pairs the program's units with the present members by position.  So a unit gets the values of the effect that it was
built from exactly as long as the members have not moved: an effect put in front of the others moves them all.

* `Kept.eq_of_draws`: what a pass with a kept program draws.
* `feedsOwn_iff`: when each unit gets the values of its own effect.
-/

namespace ScreenFusion

/-- The ids of the effects that a program was built from, by unit. -/
def CompiledEffects.ids (c : CompiledEffects) : List Nat := c.key.effects.map EffectKey.id

/-- A block holds an effect's present blend mode and values at a unit's slots. -/
structure FedBy (block : List UInt8) (slots : UnitSlots) (e : Effect) : Prop where
  blend : ∀ s, slots.blend = some s → slotBytes block s = (Slot.ofValue e.blend.packed).toBytes
  uniforms : ∀ name s v, (name, s) ∈ slots.uniforms → e.uniforms.get? name = some v →
    slotBytes block s = (Slot.ofValue v).toBytes

theorem Feeds.fedBy {values : List UniformValue} {slots : UnitSlots} {e : Effect} (f : Feeds values slots e) :
    FedBy (packBlock values) slots e :=
  ⟨fun s hs => slotBytes_packBlock (f.blend s hs),
    fun name s v hs hv => slotBytes_packBlock (f.uniforms name s v hs hv)⟩

theorem Host.issuedSince_drawFullscreen (draw : FullscreenDraw) (h : Host) :
    ∃ answer, h.issuedSince (drawFullscreen draw h).2 = [⟨.drawFullscreen draw, answer⟩] :=
  ⟨_, (advanced_issue (.drawFullscreen draw) (fun _ => .done) (Device.drawFullscreen draw) h).issuedSince_eq⟩

/-! ## The slots of a program that was made -/

namespace CompiledEffects.Genuine

open Fusion

variable {name : String} {c : CompiledEffects}

theorem separate (g : c.Genuine name) : Separate c.layout c.slotCount := by
  obtain ⟨effects, source, h, -, hs, -, hlayout, hcount, -⟩ := g
  rw [hlayout, hcount]
  exact (fuse_source hs).separate

/-- Each effect that the program was built from has a unit. -/
theorem layout_of_ids (g : c.Genuine name) {j m : Nat} (hm : c.ids[j]? = some m) :
    ∃ slots, c.layout[j]? = some slots := by
  obtain ⟨effects, source, h, hkey, hs, -, hlayout, -, -⟩ := g
  have hids : j < c.ids.length := (List.getElem?_eq_some_iff.1 hm).1
  have hlength : c.ids.length = c.layout.length := by
    rw [ids, ← hkey, hlayout, (fuse_source hs).layout_eq, length_layoutFrom, List.length_map, List.length_map,
      List.length_map]
  exact ⟨_, List.getElem?_eq_getElem (hlength ▸ hids)⟩

/-- Each unit has a slot for a blend mode. -/
theorem blend (g : c.Genuine name) {j : Nat} {slots : UnitSlots} (hj : c.layout[j]? = some slots) :
    ∃ s, slots.blend = some s := by
  obtain ⟨effects, source, h, -, hs, -, hlayout, -, -⟩ := g
  have fits := (fuse_source hs).fits
  rw [hlayout] at hj
  have hunits : j < (effects.map FuseUnit.ofEffect).length := by
    rw [fits.length_eq]
    exact (List.getElem?_eq_some_iff.1 hj).1
  have hu := List.getElem?_eq_getElem hunits
  have fit := List.forall₂_zip fits (List.mem_of_getElem? (List.getElem?_zip_eq_some.2 ⟨hu, hj⟩))
  obtain ⟨e, -, he⟩ := List.mem_map.1 (List.mem_of_getElem? hu)
  rw [← he] at fit
  exact Option.isSome_iff_exists.1 fit.blended

end CompiledEffects.Genuine

namespace EffectPass

variable {p q : EffectPass} {c : CompiledEffects}

/-! ## Draws -/

/-- A render of the pass, on some host, gives the draw to the device. -/
def Draws (p : EffectPass) (d : FullscreenDraw) : Prop :=
  ∃ (h : Host) (io : PassIo) (deltaTime : Binary32) (answer : Answer),
    ⟨.drawFullscreen d, answer⟩ ∈ h.issuedSince (render io deltaTime ⟨p, h⟩).2.host

/-- The program and the values that a pass with a kept program draws with. -/
theorem Kept.eq_of_draws (k : Kept p c) {d : FullscreenDraw} (hd : Draws p d) :
    ∃ (time deltaTime : Binary32) (size : Nat × Nat), d.program = c.program ∧
      d.block = packBlock (({ p with elapsed := time } : EffectPass).values c deltaTime size) := by
  obtain ⟨h, io, deltaTime, answer, hmem⟩ := hd
  rw [k.render_eq] at hmem
  obtain ⟨answer', hissued⟩ := Host.issuedSince_drawFullscreen
    (({ p with elapsed := p.elapsed + deltaTime } : EffectPass).drawOf c io deltaTime h.device) h
  have hcall := congrArg Call.command (List.mem_singleton.1 (hissued ▸ hmem))
  cases hcall
  exact ⟨p.elapsed + deltaTime, deltaTime, io.outputSize h.device, rfl, rfl⟩

theorem Kept.exists_draws (k : Kept p c) : ∃ d, Draws p d := by
  let p' : EffectPass := { p with elapsed := p.elapsed + .zero }
  let d := p'.drawOf c ⟨0, none, none⟩ .zero (default : Host).device
  obtain ⟨answer, hissued⟩ := Host.issuedSince_drawFullscreen d default
  refine ⟨d, default, ⟨0, none, none⟩, .zero, answer, ?_⟩
  rw [k.render_eq]
  exact hissued ▸ List.mem_singleton.2 rfl

/-! ## Whose values a unit gets -/

/-- In every draw, whatever cheap changes are made before, a unit gets the blend mode and the values of one effect. -/
def Follows (p : EffectPass) (slots : UnitSlots) (id : Nat) : Prop :=
  ∀ uses, QuietRun p uses → ∀ e ∈ (p.after uses).effects, e.id = id → ∀ d, Draws (p.after uses) d →
    FedBy d.block slots e

/-- Each unit of the program gets the values of the effect that it was built from, if that is still a member, and never
those of another. -/
def FeedsOwn (p : EffectPass) (c : CompiledEffects) : Prop :=
  ∀ (j m : Nat) (slots : UnitSlots), c.ids[j]? = some m → c.layout[j]? = some slots →
    (m ∈ p.effects.map Effect.id → p.Follows slots m) ∧
    ∀ m' ∈ p.effects.map Effect.id, m' ≠ m → ¬p.Follows slots m'

/-- Each effect that the program was built from is at its place or is gone, and then nothing is in its place. -/
def Aligned (p : EffectPass) (c : CompiledEffects) : Prop :=
  ∀ j m : Nat, c.ids[j]? = some m →
    (p.effects.map Effect.id)[j]? = some m ∨
      (p.effects.map Effect.id)[j]? = none ∧ m ∉ p.effects.map Effect.id

/-! ## Which effect a unit follows -/

/-- The value of a unit's blend slot is the blend mode of the member at the unit's position. -/
theorem blend_values (sep : Separate c.layout c.slotCount) {j s : Nat} {slots : UnitSlots}
    (hj : c.layout[j]? = some slots) (hs : slots.blend = some s) (deltaTime : Binary32) (size : Nat × Nat) :
    (p.values c deltaTime size)[s]? =
      some (((p.effects[j]?).map fun e => e.blend.packed).getD (.vec4 .zero .zero .zero .zero)) := by
  cases he : p.effects[j]? with
  | some e => exact (feeds_values sep hj he deltaTime size).blend s hs
  | none =>
    refine values_of_no_member sep hj he ?_ deltaTime size
    unfold UnitSlots.all
    rw [hs]
    exact List.mem_cons_self

/-- A use that gives a member another blend function. -/
def blending (id : Nat) (f : BlendFunction) : List (EffectPassOp × Host) := [(.change id (.blendFunction f), default)]

theorem quietRun_blending (p : EffectPass) (id : Nat) (f : BlendFunction) : QuietRun p (blending id f) :=
  ⟨fun _ _ _ => rfl, trivial⟩

theorem effects_after_blending {e : Effect} (he : e ∈ p.effects) (f : BlendFunction) :
    (p.after (blending e.id f)).effects = p.effects.map fun x => if x.id = e.id then x.setBlend f else x := by
  obtain ⟨x, hx⟩ : ∃ x, p.effect? e.id = some x := by
    refine Option.isSome_iff_exists.1 ?_
    rw [effect?, List.find?_isSome]
    exact ⟨e, he, beq_self_eq_true e.id⟩
  show (changeEffect e.id (.blendFunction f) ⟨p, default⟩).2.stage.effects = _
  rw [changeEffect_eq, hx]
  rfl

/-- A unit that follows a member which is not at its position has in its slot whatever function the member gets. -/
theorem Kept.ofValue_of_follows (k : Kept p c) (sep : Separate c.layout c.slotCount) {j s : Nat} {slots : UnitSlots}
    (hj : c.layout[j]? = some slots) (hs : slots.blend = some s) {e : Effect} (he : e ∈ p.effects)
    (hne : (p.effects.map Effect.id)[j]? ≠ some e.id) (follows : p.Follows slots e.id) (f : BlendFunction) :
    Slot.ofValue (e.setBlend f).blend.packed =
      Slot.ofValue (((p.effects[j]?).map fun x => x.blend.packed).getD (.vec4 .zero .zero .zero .zero)) := by
  have hq := quietRun_blending p e.id f
  have heffects := effects_after_blending he f
  have k' := (k.after hq).1
  have hmember : e.setBlend f ∈ (p.after (blending e.id f)).effects := by
    rw [heffects]
    refine List.mem_map.2 ⟨e, he, ?_⟩
    rw [if_pos rfl]
  have hsame : (p.after (blending e.id f)).effects[j]? = p.effects[j]? := by
    rw [heffects, List.getElem?_map]
    cases hjx : p.effects[j]? with
    | none => rfl
    | some x =>
      have hx : x.id ≠ e.id := by
        intro hx
        exact hne (by rw [List.getElem?_map, hjx, Option.map_some, hx])
      rw [Option.map_some, if_neg hx]
  obtain ⟨d, hd⟩ := k'.exists_draws
  obtain ⟨time, deltaTime, size, -, hblock⟩ := k'.eq_of_draws hd
  have hfed := (follows _ hq _ hmember rfl d hd).blend s hs
  rw [hblock, slotBytes_packBlock (blend_values sep hj hs deltaTime size)] at hfed
  have hfed : (Slot.ofValue (((p.after (blending e.id f)).effects[j]?.map fun x => x.blend.packed).getD _)).toBytes =
    _ := hfed
  rw [hsame] at hfed
  exact (Slot.toBytes_inj hfed).symm

/-- A unit follows a member exactly if the member is at the unit's position. -/
theorem Kept.follows_iff (k : Kept p c) (sep : Separate c.layout c.slotCount)
    (hn : (p.effects.map Effect.id).Nodup) {j m s : Nat} {slots : UnitSlots} (hj : c.layout[j]? = some slots)
    (hs : slots.blend = some s) (hm : m ∈ p.effects.map Effect.id) :
    p.Follows slots m ↔ (p.effects.map Effect.id)[j]? = some m := by
  constructor
  · intro follows
    by_contra hne
    obtain ⟨e, he, rfl⟩ := List.mem_map.1 hm
    have hnormal := k.ofValue_of_follows sep hj hs he hne follows .normal
    have hadd := k.ofValue_of_follows sep hj hs he hne follows .add
    cases BlendMode.function_of_ofValue_eq (hnormal.trans hadd.symm)
  · intro hid uses hq e he hem d hd
    obtain ⟨k', tuned⟩ := k.after hq
    obtain ⟨time, deltaTime, size, -, hblock⟩ := k'.eq_of_draws hd
    rw [← map_id_of_tuned tuned] at hid hn
    rw [List.getElem?_map] at hid
    obtain ⟨x, hx, hxm⟩ := Option.map_eq_some_iff.1 hid
    have hex : e = x := List.inj_on_of_nodup_map hn he (List.mem_of_getElem? hx) (hem.trans hxm.symm)
    rw [hex, hblock]
    exact (feeds_values (p := { p.after uses with elapsed := time }) sep hj hx deltaTime size).fedBy

/-- Each unit of a kept program gets the values of its own effect exactly if the members have not moved. -/
theorem Kept.feedsOwn_iff_aligned (k : Kept p c) (g : c.Genuine p.name) (hn : (p.effects.map Effect.id).Nodup) :
    p.FeedsOwn c ↔ p.Aligned c := by
  constructor
  · intro own j m hm
    obtain ⟨slots, hj⟩ := g.layout_of_ids hm
    obtain ⟨s, hs⟩ := g.blend hj
    obtain ⟨hkept, hothers⟩ := own j m slots hm hj
    cases hx : (p.effects.map Effect.id)[j]? with
    | none =>
      refine .inr ⟨rfl, ?_⟩
      intro hmem
      rw [(k.follows_iff g.separate hn hj hs hmem).1 (hkept hmem)] at hx
      cases hx
    | some m' =>
      refine .inl ?_
      by_contra hne
      have hmem : m' ∈ p.effects.map Effect.id := List.mem_of_getElem? hx
      refine hothers m' hmem ?_ ((k.follows_iff g.separate hn hj hs hmem).2 hx)
      rintro rfl
      exact hne rfl
  · intro aligned j m slots hm hj
    obtain ⟨s, hs⟩ := g.blend hj
    refine ⟨?_, ?_⟩
    · intro hmem
      refine (k.follows_iff g.separate hn hj hs hmem).2 ?_
      rcases aligned j m hm with hx | ⟨-, hgone⟩
      · exact hx
      · exact absurd hmem hgone
    · intro m' hmem hne follows
      have hx := (k.follows_iff g.separate hn hj hs hmem).1 follows
      rcases aligned j m hm with hx' | ⟨hx', -⟩
      · rw [hx] at hx'
        exact hne (Option.some.inj hx')
      · rw [hx] at hx'
        cases hx'

/-- When a build of a pass that has a program fails, the pass draws with that program until another is built.  In these
draws, whatever cheap changes are made, each unit gets the blend mode and the values of the effect that it was built
from, if that is still a member, and never those of another, exactly if each of these effects is at its place, or is
gone and nothing is in its place. -/
theorem feedsOwn_iff {calls : List Call} {h k : Host} {e : Error} (r : Reached p calls) (hd : p.disposed = false)
    (hp : p.compiled = some c) (hc : commit ⟨p, h⟩ = (.error e, ⟨q, k⟩)) :
    (∀ uses, QuietRun q uses → (∃ d, Draws (q.after uses) d) ∧
      ∀ d, Draws (q.after uses) d → d.program = c.program) ∧
    (q.FeedsOwn c ↔ q.Aligned c) := by
  have kept := kept_of_commit_error hd hp hc
  have i := r.invariant.commit h
  rw [hc] at i
  refine ⟨?_, kept.feedsOwn_iff_aligned (i.genuine c kept.compiled) i.distinct⟩
  intro uses hq
  have kept' := (kept.after hq).1
  refine ⟨kept'.exists_draws, ?_⟩
  intro d hdraws
  obtain ⟨_, _, _, hprogram, -⟩ := kept'.eq_of_draws hdraws
  exact hprogram

/-! ## An effect in front of another -/

/-- A green effect without a kernel, so that no program can be made of it. -/
def green : Effect := (Effect.create 2 "b" "fn main_image").setUniform "tint" (.ofFloats ⟨0, 1, 0, 1⟩)

/-- The pass with the red effect and its program, after the green effect has been put in front. -/
def grown : Staged EffectPass := ((EffectPassOp.insert 0 green).run (EffectPassOp.commit.run plain).2).2

theorem reached_grown : ∃ calls, Reached grown.stage calls :=
  ⟨_, .used (.insert 0 green) _ (.used .commit plain.host reached_plain trivial)
    ⟨.changed (.uniform "tint" _) (.created 2 "b" "fn main_image"), by decide +kernel⟩⟩

/-- The program of the red effect is kept, and is not fed the values of the red effect. -/
theorem not_feedsOwn_grown : ∃ (c : CompiledEffects) (e : Error) (s : Staged EffectPass),
    grown.stage.compiled = some c ∧ commit grown = (.error e, s) ∧ ¬s.stage.FeedsOwn c := by
  obtain ⟨calls, r⟩ := reached_grown
  obtain ⟨c, hc⟩ : ∃ c, grown.stage.compiled = some c := Option.isSome_iff_exists.1 (by decide +kernel)
  have hids : grown.stage.compiled.map CompiledEffects.ids = some [1] := by decide +kernel
  have hfails : (commit grown).1.toOption = none := by decide +kernel
  have hmembers : (commit grown).2.stage.effects.map Effect.id = [2, 1] := by decide +kernel
  rcases hcommit : commit grown with ⟨e | b, s⟩
  · refine ⟨c, e, s, hc, rfl, ?_⟩
    rw [(feedsOwn_iff r (by decide +kernel) hc hcommit).2]
    intro aligned
    rw [hc] at hids
    rw [hcommit] at hmembers
    have hfirst := aligned 0 1 (by rw [Option.some.inj hids]; rfl)
    rw [hmembers] at hfirst
    revert hfirst
    decide
  · rw [hcommit] at hfails
    cases hfails

/-- What the kept program of the red effect gets in its slot for the tint is the tint of the green effect. -/
theorem green_tint_drawn :
    let p := (commit grown).2.stage
    p.compiled.map CompiledEffects.ids = some [1] ∧ p.effects.map Effect.id = [2, 1] ∧ p.lastError.isSome = true ∧
    ∃ d, Draws p d ∧ slotBytes d.block 4 = (Slot.ofValue (.ofFloats ⟨0, 1, 0, 1⟩)).toBytes ∧
      ¬FedBy d.block ⟨some 3, [("tint", 4)]⟩ red := by
  intro p
  let c : CompiledEffects := p.compiled.getD default
  let d := ({ p with elapsed := p.elapsed + .zero } : EffectPass).drawOf c ⟨0, none, none⟩ .zero (default : Host).device
  have hslot : slotBytes d.block 4 = (Slot.ofValue (.ofFloats ⟨0, 1, 0, 1⟩)).toBytes := by decide +kernel
  refine ⟨by decide +kernel, by decide +kernel, by decide +kernel, d, ?_, hslot, ?_⟩
  · refine ⟨default, ⟨0, none, none⟩, .zero, .failed, ?_⟩
    decide +kernel
  · intro fed
    have htint := fed.uniforms "tint" 4 (.ofFloats ⟨1, 0, 0, 1⟩) (List.mem_singleton.2 rfl) (by decide +kernel)
    rw [hslot] at htint
    revert htint
    decide +kernel

end EffectPass

end ScreenFusion
