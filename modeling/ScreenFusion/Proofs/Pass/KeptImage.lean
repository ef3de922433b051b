import ScreenFusion.Proofs.Pass.Binding

/-!
# ScreenFusion.Proofs.Pass.KeptImage — what a pass shows whose material was rejected

When the program of a new material cannot be built, the pass keeps the program that it has; but it keeps the new material
too, and writes the values of that into the slots of the old program.  So its draws are those that it would have given
without the new material exactly if the two materials write the same into every slot of the program.

* `PassUse.Quiet`, `Pass.SameImage`: two passes that draw the same, however they are used alike.
* `MaterialPass.Twins`, `MaterialPass.Twins.run`: passes with one program that write the same, and one step of both.
* `MaterialPass.sameImage_iff`: when a pass whose material was rejected shows what it would have shown.
-/

namespace ScreenFusion

open Staged

/-! ## Runs of two passes -/

/-- A use after which there is no more to build than before, and which does not change what is shown. -/
def PassUse.Quiet : PassUse → Prop
  | prepare | render .. | resize .. | change (.camera _) | change (.settings _) => True
  | _ => False

/-- The draws of a pass that is used in order, each time on a host of its own. -/
def Pass.drawsOf (p : Pass) : List (PassUse × Host) → List FullscreenDraw
  | [] => []
  | (use, h) :: rest => h.drawsSince (use.run ⟨p, h⟩).2.host ++ drawsOf (use.run ⟨p, h⟩).2.stage rest

/-- A use of two passes, each on a host of its own. -/
structure TwinUse where
  use : PassUse
  first : Host
  second : Host

/-- The use is quiet, and where it draws the outputs have the same size. -/
structure TwinUse.Alike (t : TwinUse) : Prop where
  quiet : t.use.Quiet
  size : ∀ io deltaTime, t.use = .render io deltaTime → io.outputSize t.first.device = io.outputSize t.second.device

/-- However the two passes are used alike, they draw the same. -/
def Pass.SameImage (p q : Pass) : Prop :=
  ∀ uses : List TwinUse, (∀ t ∈ uses, t.Alike) →
    p.drawsOf (uses.map fun t => (t.use, t.first)) = q.drawsOf (uses.map fun t => (t.use, t.second))

theorem packBlock_congr {vs ws : List UniformValue} (h : vs.map Slot.ofValue = ws.map Slot.ofValue) :
    packBlock vs = packBlock ws := by
  have hslots (values : List UniformValue) : packBlock values = (values.map Slot.ofValue).flatMap Slot.toBytes := by
    rw [List.flatMap_map]
    rfl
  rw [hslots, hslots, h]

/-- What the material writes into the slot of a name; nothing leaves zeros. -/
def Material.slotOf (m : Material) (name : String) : Slot := .ofValue ((m.uniforms.get? name).getD .zeros)

namespace MaterialPass

variable {p q : MaterialPass} {c : CompiledMaterial} {h k : Host} {name : String} {s : Nat}

/-! ## The slots of a program -/

theorem flatMap_all (c : CompiledMaterial) :
    c.installation.layout.flatMap UnitSlots.all = c.uniforms.map Prod.snd := List.append_nil _

/-- The slot of a name holds the value of the name, or zeros. -/
theorem values_slot (sep : Separate c.installation.layout c.slotCount) (hs : (name, s) ∈ c.uniforms)
    (deltaTime : Binary32) (size : Nat × Nat) :
    (p.values c deltaTime size)[s]? = some ((p.material.uniforms.get? name).getD .zeros) := by
  have hall : s ∈ c.installation.layout.flatMap UnitSlots.all := by
    rw [flatMap_all]
    exact List.mem_map.2 ⟨(name, s), hs, rfl⟩
  have hleast := sep.least s hall
  have hbound := sep.bound s hall
  have hslots := flatMap_all c ▸ sep.nodup
  have hn := hslots.sublist (uniformWrites_sublist p.material.uniforms c.uniforms)
  rw [values_eq]
  cases hv : p.material.uniforms.get? name with
  | some v =>
    refine foldl_writeSlot_of_mem hn (mem_uniformWrites.2 ⟨name, hs, hv⟩) ?_
    rw [length_frameValues]
    omega
  | none =>
    have hnot : s ∉ (uniformWrites p.material.uniforms c.uniforms).map Prod.fst := by
      intro hmem
      obtain ⟨⟨s', v⟩, hw, rfl⟩ := List.mem_map.1 hmem
      obtain ⟨name', hs', hv'⟩ := mem_uniformWrites.1 hw
      cases List.inj_on_of_nodup_map hslots hs hs' rfl
      cases hv.symm.trans hv'
    rw [foldl_writeSlot_of_not_mem hnot, frameValues, List.getElem?_append_right hleast, List.getElem?_replicate]
    exact if_pos (by show s - 3 < c.slotCount - 3; omega)

/-- All other slots hold what the frame writes. -/
theorem values_other (hs : s ∉ c.uniforms.map Prod.snd) (deltaTime : Binary32) (size : Nat × Nat) :
    (p.values c deltaTime size)[s]? = (frameValues c.slotCount p.elapsed deltaTime size p.camera)[s]? := by
  rw [values_eq]
  exact foldl_writeSlot_of_not_mem fun hmem => hs ((uniformWrites_sublist _ _).subset hmem)

/-! ## Passes that show the same -/

/-- A live pass that has a program and nothing to build. -/
structure Kept (p : MaterialPass) (c : CompiledMaterial) : Prop where
  live : p.disposed = false
  clean : p.dirty = false
  compiled : p.compiled = some c

namespace Kept

theorem ready (kept : Kept p c) : p.builder.Ready := ⟨kept.live, kept.clean, congrArg Option.isSome kept.compiled⟩

theorem carried (kept : Kept p c) (live : q.disposed = p.disposed) (clean : q.dirty = p.dirty)
    (compiled : q.compiled = p.compiled) : Kept q c :=
  ⟨live.trans kept.live, clean.trans kept.clean, compiled.trans kept.compiled⟩

theorem run_prepare (kept : Kept p c) (h : Host) : (PassUse.run .prepare ⟨.material p, h⟩).2 = ⟨.material p, h⟩ := by
  show (Pass.within .material p prepare ⟨.material p, h⟩).2 = _
  unfold Pass.within
  rw [prepare_of_ready kept.ready]

theorem run_render (kept : Kept p c) (io : PassIo) (deltaTime : Binary32) (h : Host) :
    (PassUse.run (.render io deltaTime) ⟨.material p, h⟩).2 =
      let p' := { p with elapsed := p.elapsed + deltaTime }
      ⟨.material p', (Host.drawFullscreen (p'.drawOf c io deltaTime h.device) h).2⟩ := by
  show (Pass.within .material p (render io deltaTime) ⟨.material p, h⟩).2 = _
  unfold Pass.within
  rw [render_of_ready kept.ready kept.compiled]

end Kept

/-- Two passes with one program, at the same time and with the same camera, whose materials write the same into the slots
of the program. -/
structure Twins (c : CompiledMaterial) (p q : MaterialPass) : Prop where
  first : Kept p c
  second : Kept q c
  elapsed : p.elapsed = q.elapsed
  camera : p.camera = q.camera
  slots : ∀ name s, (name, s) ∈ c.uniforms → p.material.slotOf name = q.material.slotOf name

namespace Twins

theorem block_eq (t : Twins c p q) (sep : Separate c.installation.layout c.slotCount) (deltaTime : Binary32)
    (size : Nat × Nat) : packBlock (p.values c deltaTime size) = packBlock (q.values c deltaTime size) := by
  refine packBlock_congr (List.ext_getElem? fun s => ?_)
  rw [List.getElem?_map, List.getElem?_map]
  by_cases hs : s ∈ c.uniforms.map Prod.snd
  · obtain ⟨⟨name, _⟩, hmem, rfl⟩ := List.mem_map.1 hs
    rw [values_slot sep hmem, values_slot sep hmem]
    exact congrArg some (t.slots name _ hmem)
  · rw [values_other hs, values_other hs, t.elapsed, t.camera]

theorem refl (kept : Kept p c) : Twins c p p := ⟨kept, kept, rfl, rfl, fun _ _ _ => rfl⟩

/-! Time that goes by, a camera and settings leave twins. -/

theorem elapse (t : Twins c p q) (deltaTime : Binary32) :
    Twins c { p with elapsed := p.elapsed + deltaTime } { q with elapsed := q.elapsed + deltaTime } :=
  ⟨t.first.carried rfl rfl rfl, t.second.carried rfl rfl rfl, congrArg (· + deltaTime) t.elapsed, t.camera, t.slots⟩

theorem setCamera (t : Twins c p q) (planes : CameraPlanes) :
    Twins c { p with camera := planes } { q with camera := planes } :=
  ⟨t.first.carried rfl rfl rfl, t.second.carried rfl rfl rfl, t.elapsed, rfl, t.slots⟩

theorem setSettings (t : Twins c p q) (settings : PassSettings) : Twins c { p with settings } { q with settings } :=
  ⟨t.first.carried rfl rfl rfl, t.second.carried rfl rfl rfl, t.elapsed, t.camera, t.slots⟩

theorem drawOf_eq (t : Twins c p q) (sep : Separate c.installation.layout c.slotCount) {io : PassIo} {d d' : Device}
    (hsize : io.outputSize d = io.outputSize d') (deltaTime : Binary32) :
    p.drawOf c io deltaTime d = q.drawOf c io deltaTime d' := by
  unfold drawOf
  rw [t.block_eq sep, hsize]

/-- A quiet use leaves twins, which have drawn the same with the program that they have. -/
theorem run (t : Twins c p q) (sep : Separate c.installation.layout c.slotCount) {u : TwinUse} (alike : u.Alike) :
    ∃ p' q' draws, (u.use.run ⟨.material p, u.first⟩).2.stage = .material p' ∧
      (u.use.run ⟨.material q, u.second⟩).2.stage = .material q' ∧ Twins c p' q' ∧
      u.first.drawsSince (u.use.run ⟨.material p, u.first⟩).2.host = draws ∧
      u.second.drawsSince (u.use.run ⟨.material q, u.second⟩).2.host = draws ∧
      ∀ draw ∈ draws, draw.program = c.program := by
  obtain ⟨use, h, k⟩ := u
  have idle : h.drawsSince h = [] ∧ k.drawsSince k = [] ∧ ∀ draw ∈ [], FullscreenDraw.program draw = c.program :=
    ⟨(Host.Draws.refl h).drawsSince_eq, (Host.Draws.refl k).drawsSince_eq, fun _ h => absurd h List.not_mem_nil⟩
  cases use with
  | prepare =>
    dsimp only
    rw [t.first.run_prepare, t.second.run_prepare]
    exact ⟨p, q, [], rfl, rfl, t, idle⟩
  | render io deltaTime =>
    have hdraw := (t.elapse deltaTime).drawOf_eq sep (alike.size io deltaTime rfl) deltaTime
    dsimp only at hdraw ⊢
    rw [t.first.run_render, t.second.run_render]
    refine ⟨_, _, _, rfl, rfl, t.elapse deltaTime, (Host.draws_drawFullscreen _ h).drawsSince_eq, ?_, ?_⟩
    · rw [hdraw]
      exact (Host.draws_drawFullscreen _ k).drawsSince_eq
    · intro draw hd
      rw [List.mem_singleton.1 hd]
      rfl
  | resize width height => exact ⟨p, q, [], rfl, rfl, t, idle⟩
  | change setter =>
    cases setter with
    | settings s => exact ⟨_, _, [], rfl, rfl, t.setSettings s, idle⟩
    | camera planes => exact ⟨_, _, [], rfl, rfl, t.setCamera planes, idle⟩
    | _ => exact alike.quiet.elim
  | _ => exact alike.quiet.elim

/-- Twins show the same. -/
theorem sameImage (t : Twins c p q) (sep : Separate c.installation.layout c.slotCount) :
    (Pass.material p).SameImage (.material q) := by
  intro uses alike
  induction uses generalizing p q with
  | nil => rfl
  | cons u rest ih =>
    obtain ⟨hu, hrest⟩ := List.forall_mem_cons.1 alike
    obtain ⟨p', q', draws, hp, hq, t', hfirst, hsecond, -⟩ := t.run sep hu
    show u.first.drawsSince _ ++ Pass.drawsOf _ _ = u.second.drawsSince _ ++ Pass.drawsOf _ _
    rw [hfirst, hsecond, hp, hq, ih t' hrest]

end Twins

/-- A pass draws with the program that it has as long as it is used quietly. -/
theorem Kept.program_of_mem_drawsOf (kept : Kept p c) (sep : Separate c.installation.layout c.slotCount)
    {uses : List (PassUse × Host)} (quiet : ∀ u ∈ uses, u.1.Quiet) :
    ∀ draw ∈ (Pass.material p).drawsOf uses, draw.program = c.program := by
  induction uses generalizing p with
  | nil => exact fun draw hd => absurd hd List.not_mem_nil
  | cons u rest ih =>
    obtain ⟨hu, hrest⟩ := List.forall_mem_cons.1 quiet
    obtain ⟨p', _, draws, hp, -, t', hdraws, -, hprogram⟩ :=
      (Twins.refl kept).run sep (u := ⟨u.1, u.2, u.2⟩) ⟨hu, fun _ _ _ => rfl⟩
    intro draw hd
    have hd : draw ∈ u.2.drawsSince _ ++ Pass.drawsOf (u.1.run ⟨.material p, u.2⟩).2.stage rest := hd
    rcases List.mem_append.1 hd with hd | hd
    · exact hprogram draw (hdraws ▸ hd)
    · exact ih t'.first hrest draw (hp ▸ hd)

/-! ## Passes that do not show the same -/

/-- Passes that show the same give the same draw. -/
theorem Kept.drawOf_eq_of_sameImage {c' : CompiledMaterial} (hp : Kept p c) (hq : Kept q c')
    (same : (Pass.material p).SameImage (.material q)) (io : PassIo) (deltaTime : Binary32) (d : Device) :
    ({ p with elapsed := p.elapsed + deltaTime } : MaterialPass).drawOf c io deltaTime d =
      ({ q with elapsed := q.elapsed + deltaTime } : MaterialPass).drawOf c' io deltaTime d := by
  have drawn {p : MaterialPass} {c : CompiledMaterial} (kept : Kept p c) :
      (Pass.material p).drawsOf [(.render io deltaTime, .ofDevice d)] =
        [({ p with elapsed := p.elapsed + deltaTime } : MaterialPass).drawOf c io deltaTime d] := by
    rw [Pass.drawsOf, Pass.drawsOf, List.append_nil, kept.run_render]
    exact (Host.draws_drawFullscreen _ _).drawsSince_eq
  have h := same [⟨.render io deltaTime, .ofDevice d, .ofDevice d⟩]
    (fun _ hu => List.mem_singleton.1 hu ▸ ⟨trivial, fun _ _ _ => rfl⟩)
  exact List.singleton_inj.1 ((drawn hp).symm.trans (h.trans (drawn hq)))

/-- Passes with one program that show the same write the same into its slots. -/
theorem Kept.slotOf_eq_of_sameImage (hp : Kept p c) (hq : Kept q c)
    (sep : Separate c.installation.layout c.slotCount) (same : (Pass.material p).SameImage (.material q))
    (hs : (name, s) ∈ c.uniforms) : p.material.slotOf name = q.material.slotOf name := by
  have hblock := congrArg FullscreenDraw.block (hp.drawOf_eq_of_sameImage hq same ⟨0, none, none⟩ .zero default)
  have hslot (p : MaterialPass) (io : PassIo) (deltaTime : Binary32) (d : Device) :
      slotBytes (p.drawOf c io deltaTime d).block s = (p.material.slotOf name).toBytes :=
    slotBytes_packBlock (values_slot sep hs deltaTime (io.outputSize d))
  have hbytes := congrArg (slotBytes · s) hblock
  rw [hslot, hslot] at hbytes
  exact Slot.toBytes_inj hbytes

/-! ## What becomes of the pass -/

/-- The program after a pass that has one has been made ready: that one, or one with a new number. -/
theorem program_of_prepare {r : Except Error Unit} (hc : p.compiled = some c) (hp : prepare ⟨p, h⟩ = (r, ⟨q, k⟩)) :
    ∃ c', q.compiled = some c' ∧ (c' = c ∨ c'.program = h.device.nextId) := by
  rcases prepare_eq_rebuild_or p h with hr | hs
  · rw [hr] at hp
    have hstage := (compiles_build ⟨p, h⟩).1
    rcases hb : build ⟨p, h⟩ with ⟨e | c', q', k'⟩ <;> rw [hb] at hstage <;> (have hq : q' = p := hstage) <;> subst hq
    · rw [rebuild_of_error hb] at hp
      cases hp
      exact ⟨c, hc, .inl rfl⟩
    · rw [rebuild_of_ok hb] at hp
      cases hp
      exact ⟨c', rfl, .inr (madeFrom_of_build_ok hb).1⟩
  · rw [hp] at hs
    cases hs
    exact ⟨c, hc, .inl rfl⟩

/-- A live pass with a program that has been made ready, or not, keeps all but the program. -/
theorem kept_of_prepare {r : Except Error Unit} {c' : CompiledMaterial} (hl : p.disposed = false)
    (hc : p.compiled = some c) (hp : prepare ⟨p, h⟩ = (r, ⟨q, k⟩)) (hc' : q.compiled = some c') :
    Kept q c' ∧ q.material = p.material ∧ q.elapsed = p.elapsed ∧ q.camera = p.camera := by
  cases prepared_of_prepare hp with
  | disposed hd => cases hl.symm.trans hd
  | ready ready => exact ⟨⟨hl, ready.clean, hc'⟩, rfl, rfl, rfl⟩
  | refused _ _ hn _ => cases hc.symm.trans hn
  | built => exact ⟨⟨hl, rfl, hc'⟩, rfl, rfl, rfl⟩
  | failed => exact ⟨⟨hl, rfl, hc'⟩, rfl, rfl, rfl⟩

/-- When the program of a new material cannot be built, a pass that has a program draws with that program until it is
built anew.  Its draws are those that it would have given without the new material, however it is used alike, exactly if
it would have kept the program then and the new material writes into every slot of the program what the old one does. -/
theorem sameImage_iff {m : Material} {e : Error} {r : Except Error Unit} {g k' : Host} {p' : MaterialPass}
    (used : Pass.Used ⟨.material p, h⟩) (hl : p.disposed = false) (hc : p.compiled = some c)
    (hrejected : prepare ⟨p.setMaterial m, g⟩ = (.error e, ⟨q, k⟩)) (hwithout : prepare ⟨p, h⟩ = (r, ⟨p', k'⟩)) :
    (∀ io deltaTime, render io deltaTime ⟨p.setMaterial m, g⟩ = (.error e, ⟨q, k⟩)) ∧
    (∀ uses, (∀ u ∈ uses, PassUse.Quiet u.1) → ∀ draw ∈ (Pass.material q).drawsOf uses, draw.program = c.program) ∧
    ((Pass.material q).SameImage (.material p') ↔
      p'.compiled = some c ∧ ∀ name s, (name, s) ∈ c.uniforms → m.slotOf name = p.material.slotOf name) := by
  obtain ⟨m₀, source, made, -⟩ := used.installed c hc
  have sep := made.separate
  have hq : q.compiled = some c := by
    cases prepared_of_prepare hrejected with
    | disposed hd => cases hl.symm.trans hd
    | refused _ hdirty _ _ => cases hdirty
    | failed => exact hc
  obtain ⟨keptQ, hmaterial, helapsed, hcamera⟩ :=
    kept_of_prepare (p := p.setMaterial m) hl hc hrejected hq
  obtain ⟨c', hc', hprogram⟩ := program_of_prepare hc hwithout
  obtain ⟨keptP, hmaterial', helapsed', hcamera'⟩ := kept_of_prepare hl hc hwithout hc'
  refine ⟨render_of_prepare_error hrejected, fun uses quiet => keptQ.program_of_mem_drawsOf sep quiet, ?_, ?_⟩
  · -- a pass that was built anew draws with a number that no program had; so it was not, and the slots can be compared
    intro same
    have hsame : c.program = c'.program := congrArg FullscreenDraw.program
      (keptQ.drawOf_eq_of_sameImage keptP same ⟨0, none, none⟩ .zero default)
    have hcc : c' = c := by
      refine hprogram.resolve_right fun hnew => ?_
      have hgiven : c.program < h.device.nextId := made.known.given
      omega
    subst hcc
    refine ⟨hc', fun name s hs => ?_⟩
    have hslot := keptQ.slotOf_eq_of_sameImage keptP sep same hs
    rwa [hmaterial, hmaterial'] at hslot
  · rintro ⟨hkeeps, hslots⟩
    cases hkeeps.symm.trans hc'
    refine Twins.sameImage ⟨keptQ, keptP, helapsed.trans helapsed'.symm, hcamera.trans hcamera'.symm, ?_⟩ sep
    intro name s hs
    rw [hmaterial, hmaterial']
    exact hslots name s hs

/-! ## A material without a kernel -/

/-- A material with a tint. -/
def tinted (name : String) (kernel : Option Kernel) (tint : Rgba Float32) : Material :=
  { Material.create name "fn main_image" with kernel, uniforms := OrderedMap.empty.insert "tint" (.ofFloats tint) }

/-- A pass with the program of a red material. -/
def painted : Staged MaterialPass :=
  (prepare ⟨create (tinted "a" (some default) ⟨1, 0, 0, 1⟩), .ofDevice (.create 1 1 [] false)⟩).2

theorem used_painted : Pass.Used ⟨.material painted.stage, painted.host⟩ :=
  .used .prepare (.made (.ofDevice (.create 1 1 [] false)) (.material (tinted "a" (some default) ⟨1, 0, 0, 1⟩))) trivial

theorem prepare_painted : prepare painted = (.ok (), painted) :=
  prepare_of_ready ⟨by decide +kernel, by decide +kernel, by decide +kernel⟩ painted.host

/-- A red material that is rejected changes nothing of what is shown. -/
theorem sameImage_painted : ∃ e q k,
    prepare ⟨painted.stage.setMaterial (tinted "b" none ⟨1, 0, 0, 1⟩), painted.host⟩ = (.error e, ⟨q, k⟩) ∧
    (Pass.material q).SameImage (.material painted.stage) := by
  have hfails : (prepare ⟨painted.stage.setMaterial (tinted "b" none ⟨1, 0, 0, 1⟩), painted.host⟩).1.toOption = none := by
    decide +kernel
  have hc : painted.stage.compiled = some ⟨1, [("tint", 3)], 4⟩ := by decide +kernel
  rcases hp : prepare ⟨painted.stage.setMaterial (tinted "b" none ⟨1, 0, 0, 1⟩), painted.host⟩ with ⟨e | _, q, k⟩
  · refine ⟨e, q, k, rfl, ?_⟩
    refine (sameImage_iff used_painted (by decide +kernel) hc hp prepare_painted).2.2.2 ⟨hc, fun name s hs => ?_⟩
    cases List.mem_singleton.1 hs
    decide +kernel
  · rw [hp] at hfails
    cases hfails

/-- After a green material has been rejected, the program of the red one paints green. -/
theorem green_painted : ∃ e q k,
    prepare ⟨painted.stage.setMaterial (tinted "b" none ⟨0, 1, 0, 1⟩), painted.host⟩ = (.error e, ⟨q, k⟩) ∧
    prepare painted = (.ok (), painted) ∧ q.compiled = painted.stage.compiled ∧
    (((Pass.material q).drawsOf [(.render ⟨0, none, none⟩ .zero, default)]).map fun draw => slotBytes draw.block 3) =
      [(Slot.ofValue (.ofFloats ⟨0, 1, 0, 1⟩)).toBytes] ∧
    ¬(Pass.material q).SameImage (.material painted.stage) := by
  let s := (prepare ⟨painted.stage.setMaterial (tinted "b" none ⟨0, 1, 0, 1⟩), painted.host⟩).2
  have hfails : (prepare ⟨painted.stage.setMaterial (tinted "b" none ⟨0, 1, 0, 1⟩), painted.host⟩).1.toOption = none := by
    decide +kernel
  have hdiffers : (Pass.material s.stage).drawsOf [(.render ⟨0, none, none⟩ .zero, default)] ≠
      (Pass.material painted.stage).drawsOf [(.render ⟨0, none, none⟩ .zero, default)] := by decide +kernel
  have hgreen : ((Pass.material s.stage).drawsOf [(.render ⟨0, none, none⟩ .zero, default)]).map
      (fun draw => slotBytes draw.block 3) = [(Slot.ofValue (.ofFloats ⟨0, 1, 0, 1⟩)).toBytes] := by decide +kernel
  have hkept : s.stage.compiled = painted.stage.compiled := by decide +kernel
  rcases hp : prepare ⟨painted.stage.setMaterial (tinted "b" none ⟨0, 1, 0, 1⟩), painted.host⟩ with ⟨e | _, q, k⟩
  · have hs : s = ⟨q, k⟩ := congrArg Prod.snd hp
    rw [hs] at hdiffers hgreen hkept
    refine ⟨e, q, k, rfl, prepare_painted, hkept, hgreen, fun same => hdiffers ?_⟩
    exact same [⟨.render ⟨0, none, none⟩ .zero, default, default⟩]
      (fun _ hu => List.mem_singleton.1 hu ▸ ⟨trivial, fun _ _ _ => rfl⟩)
  · rw [hp] at hfails
    cases hfails

end MaterialPass

end ScreenFusion
