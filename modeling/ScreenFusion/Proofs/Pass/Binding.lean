import ScreenFusion.Proofs.Pass.Use

/-!
# ScreenFusion.Proofs.Pass.Binding — what the draws of a pass bind

A use of a pass draws once or not at all.  A draw binds the program that the pass has then, to a block of zeros into which
first the frame and then the pass have written values.

* `frameWrites`, `Pass.slotWrites`: what is written.
* `Pass.Binds`: a draw with its program and its block.
* `PassUse.draws_run`: the draw of a use.
-/

namespace ScreenFusion

open Staged

/-! ## What is written -/

/-- What a slot holds into which nothing is written. -/
def UniformValue.zeros : UniformValue := .vec4 .zero .zero .zero .zero

/-- What the frame writes into the first slots. -/
def frameWrites (time deltaTime : Binary32) (size : Nat × Nat) (camera : CameraPlanes) : List (Nat × UniformValue) :=
  (frameValues 3 time deltaTime size camera).zipIdx.map Prod.swap

theorem frameValues_eq (slots : Nat) (time deltaTime : Binary32) (size : Nat × Nat) (camera : CameraPlanes) :
    frameValues slots time deltaTime size camera =
      (frameWrites time deltaTime size camera).foldl writeSlot (List.replicate (max slots 3) .zeros) := by
  obtain ⟨n, hn⟩ : ∃ n, max slots 3 = n + 3 := ⟨max slots 3 - 3, by omega⟩
  have hrest : slots - 3 = n := by omega
  rw [hn, frameValues, hrest]
  rfl

/-- What values write into the slots with their names. -/
def uniformWrites (uniforms : OrderedMap UniformValue) (slots : List (String × Nat)) : List (Nat × UniformValue) :=
  slots.filterMap fun s => (uniforms.get? s.1).map fun v => (s.2, v)

theorem mem_uniformWrites {uniforms : OrderedMap UniformValue} {slots : List (String × Nat)} {s : Nat}
    {v : UniformValue} :
    (s, v) ∈ uniformWrites uniforms slots ↔ ∃ name, (name, s) ∈ slots ∧ uniforms.get? name = some v := by
  unfold uniformWrites
  rw [List.mem_filterMap]
  constructor
  · rintro ⟨⟨name, s'⟩, hs, hv⟩
    obtain ⟨v', hv', heq⟩ := Option.map_eq_some_iff.1 hv
    cases heq
    exact ⟨name, hs, hv'⟩
  · rintro ⟨name, hs, hv⟩
    refine ⟨(name, s), hs, ?_⟩
    dsimp only
    rw [hv, Option.map_some]

theorem uniformWrites_sublist (uniforms : OrderedMap UniformValue) (slots : List (String × Nat)) :
    ((uniformWrites uniforms slots).map Prod.fst).Sublist (slots.map Prod.snd) := by
  unfold uniformWrites
  induction slots with
  | nil => exact .slnil
  | cons s rest ih =>
    rw [List.filterMap_cons]
    cases uniforms.get? s.1 with
    | none => exact .cons _ ih
    | some v => exact .cons_cons _ ih

/-- What the pass writes: each unit that it brings now into the slots of the unit at its position. -/
def Pass.slotWrites (layout : List UnitSlots) : Pass → List (Nat × UniformValue)
  | material p => ([p.material].zip layout).flatMap fun u => uniformWrites u.1.uniforms u.2.uniforms
  | effect p => (p.effects.zip layout).flatMap EffectPass.unitWrites
  | _ => []

/-! ## Draws -/

theorem MaterialPass.values_eq (p : MaterialPass) (c : CompiledMaterial) (deltaTime : Binary32) (size : Nat × Nat) :
    p.values c deltaTime size =
      (uniformWrites p.material.uniforms c.uniforms).foldl writeSlot
        (frameValues c.slotCount p.elapsed deltaTime size p.camera) := EffectPass.fillUniforms_eq _ _ _

/-- A render draws nothing, or once with the program that the pass has then. -/
theorem MaterialPass.draws_render (io : PassIo) (deltaTime : Binary32) (p : MaterialPass) (h : Host) :
    let s := (render io deltaTime ⟨p, h⟩).2
    h.Draws [] s.host ∨ ∃ c d, s.stage.builder.Ready ∧ s.stage.compiled = some c ∧
      h.Draws [s.stage.drawOf c io deltaTime d] s.host := by
  intro s
  have building : h.Draws [] (prepare ⟨p, h⟩).2.host := along_prepare Host.serving_draws.toBuilding ⟨p, h⟩
  rcases hp : prepare ⟨p, h⟩ with ⟨e | _, q, k⟩ <;> rw [hp] at building
  · have hs : s = ⟨q, k⟩ := congrArg Prod.snd (render_of_prepare_error hp io deltaTime)
    rw [hs]
    exact .inl building
  · obtain ⟨c, hc⟩ := compiled_of_prepare_ok hp
    have ready := ready_of_prepare_ok hp
    have hs := congrArg Prod.snd (render_of_prepare_ok hp hc io deltaTime)
    rw [show s = _ from hs]
    exact .inr ⟨c, k.device, ⟨ready.live, ready.clean, ready.compiled⟩, hc,
      building.trans (Host.draws_drawFullscreen _ k)⟩

theorem EffectPass.draws_render (io : PassIo) (deltaTime : Binary32) (p : EffectPass) (h : Host) :
    let s := (render io deltaTime ⟨p, h⟩).2
    h.Draws [] s.host ∨ ∃ c d, s.stage.builder.Ready ∧ s.stage.compiled = some c ∧
      h.Draws [s.stage.drawOf c io deltaTime d] s.host := by
  intro s
  have building : h.Draws [] (commit ⟨p, h⟩).2.host := along_commit Host.serving_draws.toBuilding ⟨p, h⟩
  rcases hc : commit ⟨p, h⟩ with ⟨e | b, q, k⟩ <;> rw [hc] at building
  · have hs : s = ⟨q, k⟩ := congrArg Prod.snd (render_of_commit_error hc io deltaTime)
    rw [hs]
    exact .inl building
  · obtain ⟨c, kept⟩ := kept_of_commit_ok hc
    have hs := congrArg Prod.snd (render_of_commit_ok hc kept.compiled io deltaTime)
    rw [show s = _ from hs]
    have hcompiled : q.compiled.isSome = true := Option.isSome_iff_exists.2 ⟨c, kept.compiled⟩
    exact .inr ⟨c, k.device, ⟨kept.live, kept.clean, hcompiled⟩, kept.compiled,
      building.trans (Host.draws_drawFullscreen _ k)⟩

namespace Pass

/-- A draw binds the program that a pass has, to what the frame and the pass have written. -/
structure Binds (p : Pass) (i : Installation) (draw : FullscreenDraw) (writes : List (Nat × UniformValue)) : Prop where
  installed : p.installation? = some i
  program : draw.program = i.program
  writes_eq : ∃ time deltaTime size camera,
    writes = frameWrites time deltaTime size camera ++ p.slotWrites i.layout
  block : draw.block = packBlock (writes.foldl writeSlot (List.replicate (max i.slotCount 3) .zeros))

theorem binds_material {p : MaterialPass} {c : CompiledMaterial} (hc : p.compiled = some c) (io : PassIo)
    (deltaTime : Binary32) (d : Device) :
    ∃ writes, (material p).Binds c.installation (p.drawOf c io deltaTime d) writes := by
  refine ⟨frameWrites p.elapsed deltaTime (io.outputSize d) p.camera ++ _, congrArg (Option.map _) hc, rfl,
    ⟨_, _, _, _, rfl⟩, ?_⟩
  show packBlock (p.values c deltaTime (io.outputSize d)) = _
  rw [MaterialPass.values_eq, frameValues_eq, ← List.foldl_append]
  show _ = packBlock ((_ ++ (uniformWrites p.material.uniforms c.uniforms ++ [])).foldl _ _)
  rw [List.append_nil]
  rfl

theorem binds_effect {p : EffectPass} {c : CompiledEffects} (hc : p.compiled = some c) (io : PassIo)
    (deltaTime : Binary32) (d : Device) :
    ∃ writes, (effect p).Binds c.installation (p.drawOf c io deltaTime d) writes := by
  refine ⟨frameWrites p.elapsed deltaTime (io.outputSize d) p.camera ++ _, congrArg (Option.map _) hc, rfl,
    ⟨_, _, _, _, rfl⟩, ?_⟩
  show packBlock (p.values c deltaTime (io.outputSize d)) = _
  rw [EffectPass.values_eq, frameValues_eq, ← List.foldl_append]
  rfl

theorem draws_render (io : PassIo) (deltaTime : Binary32) (p : Pass) (h : Host) :
    let s := (render io deltaTime ⟨p, h⟩).2
    h.Draws [] s.host ∨ ∃ i draw writes, s.stage.builder.Ready ∧ s.stage.Binds i draw writes ∧
      h.Draws [draw] s.host := by
  cases p with
  | material p =>
    refine (MaterialPass.draws_render io deltaTime p h).imp_right ?_
    rintro ⟨c, d, ready, hc, draws⟩
    obtain ⟨writes, binds⟩ := binds_material hc io deltaTime d
    exact ⟨_, _, writes, ready, binds, draws⟩
  | effect p =>
    refine (EffectPass.draws_render io deltaTime p h).imp_right ?_
    rintro ⟨c, d, ready, hc, draws⟩
    obtain ⟨writes, binds⟩ := binds_effect hc io deltaTime d
    exact ⟨_, _, writes, ready, binds, draws⟩
  | clear p => exact .inl (ClearPass.along_render Host.serving_draws io ⟨p, h⟩)
  | scene p => exact .inl (ScenePass.along_render Host.serving_draws io ⟨p, h⟩)
  | depth p => exact .inl (DepthPass.along_render Host.serving_draws.clear Host.serving_draws.renderScene ⟨p, h⟩)

end Pass

/-- A use of a pass draws nothing, or once with the program that the pass has then. -/
theorem PassUse.draws_run {s : Staged Pass} (use : PassUse) (ha : use.Suits s.stage) :
    let t := (use.run s).2
    s.host.Draws [] t.host ∨ ∃ i draw writes, t.stage.builder.Ready ∧ t.stage.Binds i draw writes ∧
      s.host.Draws [draw] t.host := by
  have serving := Host.serving_draws
  cases use with
  | change setter => exact .inl (PassSetter.along_run serving.report ha.admissible s)
  | configure setup => exact .inl (Pass.along_configure serving setup s)
  | prepare => exact .inl (Pass.along_prepare serving.toBuilding s)
  | render io deltaTime => exact Pass.draws_render io deltaTime s.stage s.host
  | resize width height => exact .inl (Pass.along_resize serving.report serving.resizeTarget width height s)
  | dispose =>
    rw [run_dispose]
    exact .inl (Pass.along_dispose serving s)

end ScreenFusion
