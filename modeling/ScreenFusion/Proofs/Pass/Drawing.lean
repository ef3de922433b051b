import ScreenFusion.Proofs.Device.Draw
import ScreenFusion.Proofs.Pass.QuietRun
import ScreenFusion.Proofs.Pass.Shading

/-!
# ScreenFusion.Proofs.Pass.Drawing — what an effect pass draws

A pass whose program was built, and which has been used quietly since, draws what its members mean: at each texel every
member in turn makes something of the colour that the input has there.

* `paint`: what members make of a picture.
* `Prepared`: the passes that have a program of given effects, by any history.
* `Runs.render_eq`: a render of such a pass.
-/

namespace ScreenFusion

open Fusion

/-! ## Pictures -/

/-- What effects in order make of a running colour at a place. -/
def shadeAll (effects : List Effect) (place : KernelInput) (color : Rgba Float32) : Rgba Float32 :=
  effects.foldl (fun color e => e.shade place color) color

theorem shadeAll_append (es es' : List Effect) (place : KernelInput) (color : Rgba Float32) :
    shadeAll (es ++ es') place color = shadeAll es' place (shadeAll es place color) := List.foldl_append

theorem shadeAll_congr {es es' : List Effect} (h : List.Forall₂ (fun e e' => Effect.shade e' = Effect.shade e) es es')
    (place : KernelInput) (color : Rgba Float32) : shadeAll es' place color = shadeAll es place color := by
  induction h generalizing color with
  | nil => rfl
  | @cons e e' es es' h _ ih =>
    show shadeAll es' place (e'.shade place color) = shadeAll es place (e.shade place color)
    rw [ih, h]

/-- What effects make of a picture, with what is seen at each texel. -/
def paint (effects : List Effect) (place : Nat → KernelInput) (picture : List (Rgba Float32)) : List (Rgba Float32) :=
  picture.mapIdx fun i color => shadeAll effects (place i) color

theorem paint_append (es es' : List Effect) (place : Nat → KernelInput) (picture : List (Rgba Float32)) :
    paint (es ++ es') place picture = paint es' place (paint es place picture) := by
  unfold paint
  rw [List.mapIdx_mapIdx]
  simp only [shadeAll_append]
  rfl

theorem paint_congr {es es' : List Effect} (h : List.Forall₂ (fun e e' => Effect.shade e' = Effect.shade e) es es')
    (place : Nat → KernelInput) (picture : List (Rgba Float32)) : paint es' place picture = paint es place picture := by
  unfold paint
  simp only [shadeAll_congr h]

/-- What is seen at a texel of a plane of some size. -/
def placeAt (time deltaTime : Binary32) (size : Plane) (depthAt : Uv → Float32) (i : Nat) : KernelInput where
  color := .transparent
  uv := size.centre i
  depth := depthAt (size.centre i)
  time := time.toFloat
  deltaTime := deltaTime.toFloat
  texel := size.texelSize
  uniform? := fun _ => none
  sample := fun _ => .transparent

/-- A plane at full precision, painted from what another shows at the same places. -/
theorem Plane.picture_painted_shade {input output size : Plane} (hfull : output.precision = .full)
    (hout : output.SameSize size) (hin : input.SameSize size) (hcentred : size.Centred) (effects : List Effect)
    (place : Nat → KernelInput) :
    (output.painted fun i => shadeAll effects (place i) (input.sample (size.centre i))).picture =
      paint effects place input.picture := by
  have hcount : input.width * input.height = output.width * output.height := by
    rw [hin.width, hin.height, hout.width, hout.height]
  rw [picture_painted hfull]
  refine List.ext_getElem? fun i => ?_
  rw [paint, List.getElem?_mapIdx, List.getElem?_map]
  by_cases hi : i < output.width * output.height
  · rw [List.getElem?_range hi, (hin.centred hcentred).picture_centre (by omega), hin.centre_eq]
    rfl
  · rw [List.getElem?_eq_none (by rw [List.length_range]; omega),
      List.getElem?_eq_none (by rw [input.length_picture]; omega)]
    rfl

namespace EffectPass

variable {made : List Effect} {p : EffectPass} {d : Device} {c : CompiledEffects} {source : ProgramSource}

/-! ## Passes with a program of given effects -/

/-- The passes that have a program of given effects on a device: made with the effects, set up for full precision and
alpha, committed, and used quietly since, while the device has done anything that leaves them the program. -/
inductive Prepared (made : List Effect) : EffectPass → Device → Prop where
  | built {name : String} {p₀ p : EffectPass} {f g h : Host} {b : Bool} : create name made = .ok p₀ →
      commit ⟨(configure ⟨true, .full⟩ ⟨p₀, f⟩).2.stage, g⟩ = (.ok b, ⟨p, h⟩) → Prepared made p h.device
  | used {p : EffectPass} {d : Device} (op : EffectPassOp) (h : Host) : Prepared made p d → op.Quiet p →
      Prepared made (op.run ⟨p, h⟩).2.stage d
  | elsewhere {p : EffectPass} {d d' : Device} : Prepared made p d →
      (∀ c program, p.compiled = some c → d.programs.get? c.program = some program →
        d'.programs.get? c.program = some program) → Prepared made p d'

/-- The pass runs a program that was made of given effects, which differ from its members in blend modes and values. -/
structure Runs (made : List Effect) (p : EffectPass) (d : Device) (c : CompiledEffects) (source : ProgramSource) :
    Prop where
  kept : Kept p c
  fused : Fused source.label (made.map FuseUnit.ofEffect) ⟨.full, true⟩ source
  layout : c.layout = source.layout
  slotCount : c.slotCount = source.slots.length
  program : d.programs.get? c.program = some ⟨source.label, source.stages, source.kinds, source.forcesAlpha⟩
  members : List.Forall₂ Effect.SameProgram made p.effects

theorem configure_of_create {name : String} {p₀ : EffectPass} (hp : create name made = .ok p₀) (g : Host) :
    let q := (configure ⟨true, .full⟩ ⟨p₀, g⟩).2.stage
    q.effects = made ∧ q.options = ⟨.full, true⟩ ∧ q.compiled = none ∧ q.settings = .swapping ∧ q.elapsed = .zero := by
  unfold create at hp
  obtain ⟨a, -, hp⟩ := ok_of_bind hp
  cases hp
  exact ⟨rfl, rfl, rfl, rfl, rfl⟩

/-- The first commit of a pass, if it succeeds, gives it a program. -/
theorem adopt_of_commit_ok {q : EffectPass} {g h : Host} {b : Bool} (hnone : q.compiled = none)
    (hc : commit ⟨q, g⟩ = (.ok b, ⟨p, h⟩)) : ∃ c k, p = q.adopt c ∧ Builds q g c k ∧ h.device = k.device := by
  cases outcome_of_commit hc with
  | clean _ _ hsome =>
    rw [hnone] at hsome
    cases hsome
  | takenBack _ _ hsome _ =>
    rw [hnone] at hsome
    cases hsome
  | @built c k _ _ builds =>
    refine ⟨c, k, rfl, builds, ?_⟩
    unfold retire
    rw [hnone]
    rfl

/-- The program that the first commit of a pass gives it is made of its members. -/
theorem runs_of_commit_ok {q : EffectPass} {g h : Host} {b : Bool} (heffects : q.effects = made)
    (hoptions : q.options = ⟨.full, true⟩) (hnone : q.compiled = none) (hc : commit ⟨q, g⟩ = (.ok b, ⟨p, h⟩)) :
    ∃ c source, Runs made p h.device c source ∧ c.program < h.device.nextId ∧ Device.Keeps g.device h.device := by
  obtain ⟨c, kept⟩ := kept_of_commit_ok hc
  obtain ⟨c', k, rfl, ⟨-, source, hsource, hmade, hcompiled⟩, hdevice⟩ := adopt_of_commit_ok hnone hc
  have hcc : c' = c := Option.some.inj kept.compiled
  unfold fusedSource at hsource
  rw [heffects, hoptions] at hsource
  have fused := fuse_source hsource
  have hrun := Host.run_of_issue_ok hmade
  obtain ⟨hid, hnext, hprograms⟩ := Device.compileProgram_ok hrun
  rw [hdevice]
  refine ⟨c', source, ⟨hcc ▸ kept, fused.label_eq ▸ fused, ?_, ?_, ?_, ?_⟩, by omega,
    Device.keeps_of_compileProgram_ok hrun⟩
  · rw [hcompiled]
  · rw [hcompiled]
  · rw [hprograms, hid, Table.get?_insert, if_pos rfl]
  · show List.Forall₂ Effect.SameProgram made (q.effects.map Effect.acknowledge)
    rw [heffects]
    exact List.forall₂_map_right_iff.2 (List.forall₂_same.2 fun e _ => ⟨rfl, rfl⟩)

theorem Prepared.runs (r : Prepared made p d) : ∃ c source, Runs made p d c source := by
  induction r with
  | @built name p₀ p f g h b hp hc =>
    obtain ⟨heffects, hoptions, hnone, -⟩ := configure_of_create hp f
    obtain ⟨c, source, r, -, -⟩ := runs_of_commit_ok heffects hoptions hnone hc
    exact ⟨c, source, r⟩
  | used op h _ hq ih =>
    obtain ⟨c, source, r⟩ := ih
    obtain ⟨kept, tuned⟩ := r.kept.used hq h
    exact ⟨c, source, kept, r.fused, r.layout, r.slotCount, r.program,
      forall₂_trans (fun _ _ _ h h' => h.trans h'.sameProgram) r.members tuned⟩
  | elsewhere _ hd ih =>
    obtain ⟨c, source, r⟩ := ih
    exact ⟨c, source, r.kept, r.fused, r.layout, r.slotCount, hd c _ r.kept.compiled r.program, r.members⟩

/-! ## Renders -/

namespace Runs

variable {input output size : Plane} {depth : Option Plane} {depthAt : Uv → Float32}

/-- What the program of a pass makes of a texel. -/
theorem run_eq (r : Runs made p d c source) (hlocal : ∀ e ∈ p.effects, e.Local) (time deltaTime : Binary32)
    (bytes : Nat × Nat) (hsize : output.SameSize size)
    (hdepth : ∀ uv, (depth.map (·.sampleDepth uv)).getD 1 = depthAt uv) (i : Nat) (sample : Uv → Rgba Float32) :
    let values := ({ p with elapsed := time } : EffectPass).values c deltaTime bytes
    DrawContext.run ⟨List.zipWith UniformValue.widened values source.kinds, output.centre i,
        (depth.map (·.sampleDepth (output.centre i))).getD 1, output.texelSize, sample⟩
      ⟨source.label, source.stages, source.kinds, source.forcesAlpha⟩ =
      shadeAll p.effects (placeAt time deltaTime size depthAt i) (sample (size.centre i)) := by
  intro values
  generalize hcontext : (DrawContext.mk _ (output.centre i) _ output.texelSize sample) = context
  have hvalues : context.values = List.zipWith UniformValue.widened values source.kinds := by
    rw [← hcontext]
  have hframe := frame_eq r.fused r.layout r.slotCount hvalues
  have hplace : context.place = { placeAt time deltaTime size depthAt i with sample } := by
    have hparts : context.place = ⟨.transparent, context.uv, context.depth, context.frame.r, context.frame.g,
      context.texel, fun _ => none, context.sample⟩ := rfl
    rw [hparts, hframe, ← hcontext]
    dsimp only
    rw [hdepth, hsize.centre_eq, hsize.texelSize_eq]
    rfl
  have hstages := stages_shade r.fused r.layout r.slotCount (p := { p with elapsed := time }) r.members hvalues
  have hcolor : context.sample context.uv = sample (size.centre i) := by
    rw [← hcontext, hsize.centre_eq]
  rw [DrawContext.run_eq_foldl hstages r.fused.forcesAlpha_eq, hplace, hcolor]
  exact List.foldl_ext _ _ _ fun color e he => (hlocal e he).shade_sample _ sample color

/-- A render of the pass paints its output with what the members mean. -/
theorem render_eq {h : Host} (r : Runs made p h.device c source) (hlocal : ∀ e ∈ p.effects, e.Local)
    (ha : h.armed = []) (io : PassIo) (hinput : h.device.targets.get? io.input = some input)
    (hbound : Device.findBound io.depth h.device = (.ok depth, h.device))
    (hdepth : ∀ uv, (depth.map (·.sampleDepth uv)).getD 1 = depthAt uv)
    (houtput : h.device.plane io.output = .ok output) (hsize : output.SameSize size) (deltaTime : Binary32) :
    let texel (i : Nat) :=
      shadeAll p.effects (placeAt (p.elapsed + deltaTime) deltaTime size depthAt i) (input.sample (size.centre i))
    let drawn : Host := { h with device := h.device.drawn io.output output texel }
    ∃ draw, render io deltaTime ⟨p, h⟩ =
      (.ok (), ⟨{ p with elapsed := p.elapsed + deltaTime }, drawn.recordCall (.drawFullscreen draw) .done⟩) := by
  intro texel drawn
  let p' : EffectPass := { p with elapsed := p.elapsed + deltaTime }
  let draw := p'.drawOf c io deltaTime h.device
  have sep : Separate c.layout c.slotCount := by
    rw [r.layout, r.slotCount]
    exact r.fused.separate
  have hlength : (p'.values c deltaTime (io.outputSize h.device)).length = source.kinds.length := by
    rw [length_values sep, r.slotCount, ProgramSource.kinds, List.length_map]
  have hdrawn : Device.drawFullscreen draw h.device = (.ok (), h.device.drawn io.output output texel) := by
    refine (Device.drawFullscreen_of_found r.program (unpackBlock?_packBlock hlength) (Device.findBound_some hinput)
      hbound houtput).trans ?_
    refine congrArg (fun f => (Except.ok (), h.device.drawn io.output output f)) (funext fun i => ?_)
    exact r.run_eq hlocal (p.elapsed + deltaTime) deltaTime (io.outputSize h.device) hsize hdepth i input.sample
  refine ⟨draw, ?_⟩
  rw [r.kept.render_eq]
  show ((Host.drawFullscreen draw h).1, (⟨p', (Host.drawFullscreen draw h).2⟩ : Staged EffectPass)) = _
  rw [Host.drawFullscreen_of_not_armed ha hdrawn]

end Runs

end EffectPass

end ScreenFusion
