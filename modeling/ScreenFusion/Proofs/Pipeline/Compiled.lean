import ScreenFusion.Pipeline.Frame
import ScreenFusion.Proofs.Pass.Drawing

/-!
# ScreenFusion.Proofs.Pipeline.Compiled — what a pipeline that compiles has made

A frame first makes its passes ready, and new effect passes are compiled then.  If that succeeds each has a program of
its own effects, under a number of its own: those that are compiled later leave it alone.

* `compiled_of_prepareEntries`: new effect passes that have been made ready.
-/

namespace ScreenFusion.Pipeline

open EffectPass

variable {h k : Host}

/-- A pass as it is before its first frame: made with effects, and set up for full precision and alpha. -/
def NewPass (made : List Effect) (q : EffectPass) : Prop :=
  ∃ name p₀ g, EffectPass.create name made = .ok p₀ ∧ q = (EffectPass.configure ⟨true, .full⟩ ⟨p₀, g⟩).2.stage

/-- A pass as it is after its pipeline has compiled for the first time. -/
structure JustCompiled (made : List Effect) (p : EffectPass) (d : Device) : Prop where
  prepared : EffectPass.Prepared made p d
  effects : p.effects = made.map Effect.acknowledge
  settings : p.settings = .swapping
  elapsed : p.elapsed = .zero

theorem prepare_effect_of_ok {q : EffectPass} {s : Staged Pass} (hok : Pass.prepare ⟨.effect q, h⟩ = (.ok (), s)) :
    ∃ b p k, commit ⟨q, h⟩ = (.ok b, ⟨p, k⟩) ∧ s = ⟨.effect p, k⟩ := by
  have hok : Pass.within Pass.effect q (do let _ ← commit) ⟨.effect q, h⟩ = (.ok (), s) := hok
  unfold Pass.within at hok
  rcases hc : commit ⟨q, h⟩ with ⟨e | b, p, k⟩
  · rw [Act.bind_of_error hc] at hok
    cases hok
  · rw [Act.bind_of_ok hc] at hok
    cases hok
    exact ⟨b, p, k, rfl, rfl⟩

/-- When a pipeline of new effect passes compiles, each of them gets a program of its effects. -/
theorem compiled_of_prepareEntries {mades : List (List Effect)} {passes : List EffectPass}
    {entries entries' : List PipelineEntry} (hentries : entries.map PipelineEntry.pass = passes.map Pass.effect)
    (hnew : List.Forall₂ NewPass mades passes) (hok : prepareEntries entries h = (.ok (), entries', k)) :
    h.device.Keeps k.device ∧ ∃ ready : List EffectPass, entries'.map PipelineEntry.pass = ready.map Pass.effect ∧
      List.Forall₂ (fun made p => JustCompiled made p k.device) mades ready := by
  induction hnew generalizing entries entries' h with
  | nil =>
    have hnil : entries = [] := List.map_eq_nil_iff.1 hentries
    subst hnil
    cases hok
    exact ⟨.refl _, [], rfl, .nil⟩
  | @cons made q mades passes hq _ ih =>
    cases entries with
    | nil => cases hentries
    | cons entry entries =>
      obtain ⟨hpass, htail⟩ := List.cons.inj hentries
      have hpass : entry.pass = .effect q := hpass
      obtain ⟨name, p₀, g, hcreate, rfl⟩ := hq
      obtain ⟨heffects, hoptions, hnone, hsettings, helapsed⟩ := configure_of_create hcreate g
      have henabled : entry.pass.isEnabled = true := by
        rw [hpass]
        show (EffectPass.settings _).enabled = true
        rw [hsettings]
        rfl
      rw [prepareEntries, if_pos henabled] at hok
      rcases hprepare : Pass.prepare ⟨entry.pass, h⟩ with ⟨e | u, s⟩
      · rw [hprepare] at hok
        cases hok
      · rw [hprepare] at hok
        dsimp only at hok
        rw [hpass] at hprepare
        obtain ⟨b, p, l, hcommit, rfl⟩ := prepare_effect_of_ok hprepare
        rcases hrest : prepareEntries entries l with ⟨r, rest, k'⟩
        rw [hrest] at hok
        cases hok
        obtain ⟨keeps', ready, hready, compiled⟩ := ih htail hrest
        obtain ⟨c, source, runs, hprogram, keeps⟩ := runs_of_commit_ok heffects hoptions hnone hcommit
        have prepared : EffectPass.Prepared made p k'.device := by
          refine (EffectPass.Prepared.built hcreate hcommit).elsewhere ?_
          intro c' program hc' hfound
          rw [runs.kept.compiled] at hc'
          cases hc'
          rw [keeps'.programs c.program hprogram]
          exact hfound
        obtain ⟨_, _, rfl, -, -⟩ := adopt_of_commit_ok hnone hcommit
        refine ⟨keeps.trans keeps', _ :: ready, ?_, .cons ⟨prepared, ?_, hsettings, helapsed⟩ compiled⟩
        · rw [List.map_cons, List.map_cons, hready]
        · exact congrArg (List.map Effect.acknowledge) heffects

end ScreenFusion.Pipeline
