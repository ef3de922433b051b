import ScreenFusion.Proofs.Effect.Change
import ScreenFusion.Proofs.Pass.Filling

/-!
# ScreenFusion.Proofs.Pass.Shading — what the stages of a program compute

A stage of an effect's program finds the effect's values in slots that depend on all units of the program.  What it
makes of the running colour depends on the effect alone, so that an effect means the same in every program.

* `Effect.shade`: what an effect makes of a running colour.
* `DrawContext.Reads.runStage_eq`: a stage that reads an effect's values computes it.
* `stages_shade`, `run_eq_foldl`: the stages of a pass compute what its members mean, one after another.
-/

namespace ScreenFusion

open Fusion

/-! ## What effects mean -/

/-- What an effect makes of a running colour at a place, by its present blend mode and values. -/
def Effect.shade (e : Effect) (place : KernelInput) (color : Rgba Float32) : Rgba Float32 :=
  match e.kernel with
  | none => color
  | some kernel =>
    let uniform? (name : String) : Option UniformValue := (e.uniforms.get? name).map fun v => v.widened (.of v)
    DrawContext.combine (e.blend.packed.asVec4.map Binary32.toFloat) color (kernel.shade { place with color, uniform? })

/-- The result of the effect's kernel does not depend on the input buffer. -/
def Effect.Local (e : Effect) : Prop := ∀ k, e.kernel = some k → k.Local

theorem Effect.Local.shade_sample {e : Effect} (he : e.Local) (place : KernelInput) (sample : Uv → Rgba Float32)
    (color : Rgba Float32) : e.shade { place with sample } color = e.shade place color := by
  unfold shade
  cases hk : e.kernel with
  | none => rfl
  | some k =>
    dsimp only
    rw [← he k hk { place with color, uniform? := _ } sample]

theorem Effect.shade_congr {e e' : Effect} (hk : e'.kernel = e.kernel) (hb : e'.blend = e.blend)
    (hu : e'.uniforms = e.uniforms) : e'.shade = e.shade := by
  unfold shade
  rw [hk, hb, hu]

/-- The effects have the same kernel and the same names and kinds of uniforms. -/
structure Effect.SameProgram (e e' : Effect) : Prop where
  kernel_eq : e'.kernel = e.kernel
  kinds_eq : e'.uniforms.kinds = e.uniforms.kinds

theorem Effect.SameProgram.trans {e e' e'' : Effect} (h : e.SameProgram e') (h' : e'.SameProgram e'') :
    e.SameProgram e'' := ⟨h'.kernel_eq.trans h.kernel_eq, h'.kinds_eq.trans h.kinds_eq⟩

theorem Effect.Tuned.sameProgram {e e' : Effect} (h : e.Tuned e') : e.SameProgram e' := ⟨h.kernel_eq, h.kinds⟩

theorem Effect.local_of_sameProgram {es es' : List Effect} (h : List.Forall₂ SameProgram es es')
    (hes : ∀ e ∈ es, e.Local) : ∀ e ∈ es', e.Local := by
  induction h with
  | nil => exact hes
  | cons same _ ih =>
    rw [List.forall_mem_cons] at hes ⊢
    refine ⟨?_, ih hes.2⟩
    intro k hk
    exact hes.1 k (same.kernel_eq.symm.trans hk)

/-! ## Stages -/

namespace DrawContext

/-- What all stages of a draw see alike. -/
def place (c : DrawContext) : KernelInput := c.input default .transparent

/-- The slots of a stage hold an effect's present blend mode and values. -/
structure Reads (c : DrawContext) (slots : UnitSlots) (e : Effect) : Prop where
  blend : ∃ s, slots.blend = some s ∧ c.values[s]? = some e.blend.packed
  uniforms : ∀ name, (slots.uniforms.lookup name).bind (fun s => c.values[s]?) =
    (e.uniforms.get? name).map fun v => v.widened (.of v)

variable {c : DrawContext}

/-- A stage that reads an effect's values computes what the effect means. -/
theorem Reads.runStage_eq {stage : ProgramStage} {e : Effect} (r : c.Reads stage.slots e)
    (hk : stage.kernel = e.kernel) (color : Rgba Float32) : c.runStage color stage = e.shade c.place color := by
  unfold runStage Effect.shade
  rw [hk]
  cases e.kernel with
  | none => rfl
  | some kernel =>
    obtain ⟨s, hs, hv⟩ := r.blend
    have hinput : c.input stage.slots color = { c.place with
        color, uniform? := fun name => (e.uniforms.get? name).map fun v => v.widened (.of v) } := by
      unfold input place
      congr 1
      funext name
      exact r.uniforms name
    dsimp only
    rw [hs]
    dsimp only
    rw [hv, hinput]
    rfl

/-- The colour of a texel, where each stage computes what an effect means. -/
theorem run_eq_foldl {program : Program} {effects : List Effect}
    (hstages : List.Forall₂ (fun stage e => ∀ color, c.runStage color stage = Effect.shade e c.place color)
      program.stages effects) (ha : program.forcesAlpha = false) :
    c.run program = effects.foldl (fun color e => e.shade c.place color) (c.sample c.uv) := by
  have hfold (color : Rgba Float32) :
      program.stages.foldl c.runStage color = effects.foldl (fun color e => e.shade c.place color) color := by
    clear ha
    generalize program.stages = stages at hstages
    induction hstages generalizing color with
    | nil => rfl
    | cons h _ ih => rw [List.foldl_cons, List.foldl_cons, h, ih]
  unfold run
  rw [ha, hfold]
  rfl

end DrawContext

/-! ## Reading a block -/

theorem getElem?_widened {values : List UniformValue} {kinds : List SlotKind} {s : Nat} {v : UniformValue}
    {k : SlotKind} (hv : values[s]? = some v) (hk : kinds[s]? = some k) :
    (List.zipWith UniformValue.widened values kinds)[s]? = some (v.widened k) :=
  List.getElem?_zipWith_eq_some.2 ⟨v, k, hv, hk, rfl⟩

/-- A stage reads the values that its slots are fed with, if these have the kinds that the program was made for. -/
theorem DrawContext.reads_of_feeds {c : DrawContext} {values : List UniformValue} {kinds : List SlotKind}
    {slots : UnitSlots} {made present : Effect} (hc : c.values = List.zipWith UniformValue.widened values kinds)
    (fits : Fits kinds (FuseUnit.ofEffect made) slots) (feeds : Feeds values slots present)
    (hp : made.SameProgram present) : c.Reads slots present := by
  refine ⟨?_, ?_⟩
  · obtain ⟨s, hs⟩ := Option.isSome_iff_exists.1 fits.blended
    refine ⟨s, hs, ?_⟩
    rw [hc, getElem?_widened (feeds.blend s hs) (fits.blend s hs), BlendMode.widened_packed]
  · intro name
    cases hl : slots.uniforms.lookup name with
    | none =>
      have hnot : name ∉ present.uniforms.names := by
        have hnames : slots.uniforms.map Prod.fst = present.uniforms.names := by
          rw [fits.names, OrderedMap.names_eq_kinds, OrderedMap.names_eq_kinds, hp.kinds_eq]
          rfl
        rw [← hnames]
        intro hmem
        obtain ⟨u, hu, rfl⟩ := List.mem_map.1 hmem
        simpa using List.lookup_eq_none_iff.1 hl u hu
      rw [OrderedMap.get?_eq_none_iff.2 hnot]
      rfl
    | some s =>
      obtain ⟨before, after, hslots, -⟩ := List.lookup_eq_some_iff.1 hl
      have hmem : (name, s) ∈ slots.uniforms := by
        rw [hslots]
        exact List.mem_append_right before List.mem_cons_self
      obtain ⟨v, hv⟩ : ∃ v, made.uniforms.get? name = some v := by
        refine Option.isSome_iff_exists.1 (OrderedMap.contains_iff.2 ?_)
        have hnames : slots.uniforms.map Prod.fst = made.uniforms.names := fits.names
        rw [← hnames]
        exact List.mem_map.2 ⟨(name, s), hmem, rfl⟩
      obtain ⟨w, hw, hkind⟩ := OrderedMap.kindName_of_kinds_eq hp.kinds_eq.symm hv
      rw [Option.bind_some, hc, getElem?_widened (feeds.uniforms name s w hmem hw) (fits.uniforms name s v hmem hv), hw,
        ← SlotKind.of_congr hkind]
      rfl

/-! ## The stages of a pass -/

namespace EffectPass

variable {p : EffectPass} {compiled : CompiledEffects} {made : List Effect} {label : String} {options : FuseOptions}
  {source : ProgramSource} {c : DrawContext} {deltaTime : Binary32} {size : Nat × Nat}

/-- Each stage of a pass's program computes what the member at its position means. -/
theorem stages_shade (f : Fused label (made.map FuseUnit.ofEffect) options source)
    (hlayout : compiled.layout = source.layout) (hcount : compiled.slotCount = source.slots.length)
    (hmembers : List.Forall₂ Effect.SameProgram made p.effects)
    (hc : c.values = List.zipWith UniformValue.widened (p.values compiled deltaTime size) source.kinds) :
    List.Forall₂ (fun stage e => ∀ color, c.runStage color stage = Effect.shade e c.place color) source.stages
      p.effects := by
  have sep : Separate compiled.layout compiled.slotCount := by
    rw [hlayout, hcount]
    exact f.separate
  refine List.forall₂_iff_zip.2 ⟨?_, ?_⟩
  · rw [f.stages_eq, List.length_map, List.length_zip, length_layoutFrom, List.length_map, Nat.min_self,
      hmembers.length_eq]
  · intro stage e hmem color
    obtain ⟨j, hj⟩ := List.mem_iff_getElem?.1 hmem
    obtain ⟨hstage, he⟩ := List.getElem?_zip_eq_some.1 hj
    dsimp only at hstage he
    rw [f.stages_eq, List.getElem?_map] at hstage
    obtain ⟨⟨u, slots⟩, hunit, rfl⟩ := Option.map_eq_some_iff.1 hstage
    obtain ⟨hu, hslots⟩ := List.getElem?_zip_eq_some.1 hunit
    dsimp only at hu hslots
    rw [← f.layout_eq] at hslots
    have fits := List.forall₂_zip f.fits (List.mem_of_getElem? (List.getElem?_zip_eq_some.2 ⟨hu, hslots⟩))
    rw [List.getElem?_map] at hu
    obtain ⟨m, hm, rfl⟩ := Option.map_eq_some_iff.1 hu
    have same := List.forall₂_zip hmembers (List.mem_of_getElem? (List.getElem?_zip_eq_some.2 ⟨hm, he⟩))
    have feeds := feeds_values sep (hlayout ▸ hslots) he deltaTime size
    have reads : c.Reads (stageOf (FuseUnit.ofEffect m) slots).slots e :=
      DrawContext.reads_of_feeds hc fits feeds same
    exact reads.runStage_eq same.kernel_eq.symm color

/-- The place of a draw has the time of the pass and the time since the last frame. -/
theorem frame_eq (f : Fused label (made.map FuseUnit.ofEffect) options source)
    (hlayout : compiled.layout = source.layout) (hcount : compiled.slotCount = source.slots.length)
    (hc : c.values = List.zipWith UniformValue.widened (p.values compiled deltaTime size) source.kinds) :
    c.frame = ⟨p.elapsed.toFloat, deltaTime.toFloat, Binary32.zero.toFloat, Binary32.zero.toFloat⟩ := by
  have sep : Separate compiled.layout compiled.slotCount := by
    rw [hlayout, hcount]
    exact f.separate
  have hkind : source.kinds[0]? = some .float := by
    rw [f.kinds_eq]
    rfl
  unfold DrawContext.frame
  rw [hc, getElem?_widened (values_frame sep deltaTime size) hkind]
  rfl

end EffectPass

end ScreenFusion
