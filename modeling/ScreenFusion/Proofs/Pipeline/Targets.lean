import Mathlib.Data.List.Perm.Subperm
import ScreenFusion.Proofs.Pipeline.Refusal
import ScreenFusion.Proofs.Pipeline.Roster

/-!
# ScreenFusion.Proofs.Pipeline.Targets — no target is held twice

The targets of a pipeline are its two buffers and those of its passes.  Each came from the device, which gives no number
out again; what the pipeline does only moves targets, gives them up or adds new ones.  So they are different ones, even
if the device has lost some of them in the meantime.

* `Pipeline.Narrows`: acts after which a pipeline has no further targets.
* `Pipeline.Distinct`: the targets of a pipeline are different ones.
* `Pipeline.Lossy`, `Pipeline.Lossy.distinct`: what happens to a pipeline whose device may lose targets.
-/

namespace ScreenFusion

open Act (Confined)

open Holder Staged

namespace Pipeline

variable {h k : Host} {s t : Staged Pipeline}

/-! ## No further targets -/

/-- The second pipeline has no target that the first does not have. -/
def Narrows (s t : Staged Pipeline) : Prop := t.stage.targets.Subperm s.stage.targets

instance : IsPreorder (Staged Pipeline) Narrows where
  refl s := List.Subperm.refl s.stage.targets
  trans _ _ _ st tu := List.Subperm.trans tu st

theorem targets_eq {p q : Pipeline} (hb : q.buffers = p.buffers)
    (he : (q.entries.filterMap fun e => target? e.pass) = p.entries.filterMap fun e => target? e.pass) :
    q.targets = p.targets := by
  unfold targets
  rw [hb, he]

theorem narrows_of_eq (ht : t.stage.targets = s.stage.targets) : Narrows s t := (List.Perm.of_eq ht).subperm

theorem narrows_of_sublist {p q : Pipeline} (hb : q.buffers = p.buffers) (hsub : q.entries.Sublist p.entries) :
    Narrows ⟨p, h⟩ ⟨q, k⟩ := by
  refine List.Sublist.subperm ?_
  unfold targets
  rw [hb]
  exact (hsub.filterMap _).append_left _

theorem narrows_resize (width height : Nat) : Confined Narrows (resize width height) := by
  have live : Confined Narrows liveBuffers := by
    intro s
    rw [liveBuffers_apply]
    cases s.stage.buffers <;> exact refl_of Narrows s
  have elsewhere {α : Type} (x : Act Host α) : Confined Narrows (Staged.onHost x : Act (Staged Pipeline) α) :=
    fun s => narrows_of_eq rfl
  refine .bind live fun buffers => .ite (.fail _) ?_
  refine .bind (elsewhere _) fun _ => .bind (elsewhere _) fun _ => .bind (elsewhere _) fun _ => ?_
  refine .bind (fun s => ?_) fun error => .bind (fun s => narrows_of_eq rfl) fun _ => ?_
  · have trav := traversed_resizeEntries width height s.stage.entries s.host
    exact narrows_of_eq (targets_eq rfl trav.targets)
  · cases error with
    | none => exact .pure ()
    | some e => exact .fail e

theorem narrows_render (deltaTime : Binary32) : Confined Narrows (render deltaTime) := by
  intro s
  rw [render_eq]
  cases hb : s.stage.buffers with
  | none => exact refl_of Narrows s
  | some buffers =>
    obtain ⟨read, write⟩ := buffers
    have prepared := (traversed_prepareEntries s.stage.entries s.host).targets
    dsimp only
    rcases hp : prepareEntries s.stage.entries s.host with ⟨e | _, ready, host⟩ <;> rw [hp] at prepared
    · exact narrows_of_eq (targets_eq rfl prepared)
    · have run := (traversed_runEntries deltaTime (ready.any needsDepth) ready ⟨read, write, none, false⟩ host).targets
      dsimp only
      rcases hr : runEntries deltaTime (ready.any needsDepth) ready ⟨read, write, none, false⟩ host with
        ⟨e | f, entries, k⟩ <;> rw [hr] at run
      · exact narrows_of_eq (targets_eq rfl (run.trans prepared))
      · -- the buffers may have changed places
        have hf : Alternates ⟨read, write, none, false⟩ f := alternates_runEntries (congrArg Prod.fst hr)
        have hpair : List.Perm [f.read, f.write] [read, write] := by
          rcases hf with ⟨hread, hwrite⟩ | ⟨hread, hwrite⟩ <;> rw [hread, hwrite]
          exact .swap _ _ _
        refine List.Perm.subperm ?_
        unfold targets
        rw [hb]
        exact hpair.append (.of_eq (run.trans prepared))

theorem narrows_removePass (id : Nat) : Confined Narrows (removePass id) := fun s => by
  have hstage := removePass_stage id s
  unfold Narrows
  rw [hstage]
  exact narrows_of_sublist (h := s.host) (k := s.host) rfl List.eraseP_sublist

theorem narrows_dispose : Confined Narrows dispose := by
  rintro ⟨p, h⟩
  cases hb : p.buffers with
  | none =>
    rw [dispose_of_disposed hb]
    exact refl_of Narrows _
  | some buffers =>
    rw [dispose_of_live hb]
    exact List.nil_subperm

/-- Passes are changed so that they keep their targets or give them up. -/
theorem narrows_modifyPass (p : Pipeline) (id : Nat) {f : Pass → Pass}
    (hf : ∀ pass, target? (f pass) = target? pass ∨ target? (f pass) = none) :
    Narrows ⟨p, h⟩ ⟨p.modifyPass id f, k⟩ := by
  have hsub (es : List PipelineEntry) :
      ((es.map fun e => if e.id = id then { e with pass := f e.pass } else e).filterMap fun e => target? e.pass).Sublist
        (es.filterMap fun e => target? e.pass) := by
    induction es with
    | nil => exact .slnil
    | cons e es ih =>
      rw [List.map_cons, List.filterMap_cons, List.filterMap_cons]
      have hkept : let e' : PipelineEntry := if e.id = id then { e with pass := f e.pass } else e
          target? e'.pass = target? e.pass ∨ target? e'.pass = none := by
        dsimp only
        split
        · exact hf e.pass
        · exact .inl rfl
      rcases hkept with hkept | hkept <;> rw [hkept]
      · cases target? e.pass with
        | none => exact ih
        | some n => exact ih.cons_cons n
      · cases target? e.pass with
        | none => exact ih
        | some n => exact ih.cons n
  exact ((hsub p.entries).append_left _).subperm

/-! ## Targets are different -/

/-- The targets of the pipeline are different ones, and their numbers have been given out. -/
structure Distinct (s : Staged Pipeline) : Prop where
  nodup : s.stage.targets.Nodup
  given : ∀ n ∈ s.stage.targets, n < s.host.device.nextId

theorem Distinct.narrows (distinct : Distinct s) (hsub : Narrows s t)
    (hn : s.host.device.nextId ≤ t.host.device.nextId) : Distinct t := by
  have hle : (t.stage.targets : Multiset Nat) ≤ s.stage.targets := Multiset.coe_le.2 hsub
  have hnodup : (s.stage.targets : Multiset Nat).Nodup := Multiset.coe_nodup.2 distinct.nodup
  exact ⟨Multiset.coe_nodup.1 (Multiset.nodup_of_le hle hnodup),
    fun n hmem => Nat.lt_of_lt_of_le (distinct.given n (hsub.subset hmem)) hn⟩

theorem distinct_create {options : PipelineOptions} {p : Pipeline} (numbered : h.device.Numbered)
    (hc : create options h = (.ok p, k)) : Distinct ⟨p, k⟩ := by
  have hentries := entries_of_create hc
  cases hb : p.buffers with
  | none =>
    have htargets : p.targets = [] := by
      unfold targets
      rw [hb, hentries]
      rfl
    exact ⟨htargets ▸ .nil, fun n hn => absurd (htargets ▸ hn) List.not_mem_nil⟩
  | some buffers =>
    obtain ⟨read, write⟩ := buffers
    have paired := paired_create numbered hc hb
    have htargets : p.targets = [read, write] := by
      unfold targets
      rw [hb, hentries]
      rfl
    refine ⟨?_, fun n hn => ?_⟩
    · rw [htargets, List.nodup_cons, List.mem_singleton]
      exact ⟨paired.distinct, List.nodup_singleton write⟩
    · have untaken := paired.untaken n (htargets ▸ hn)
      exact untaken.numbered.targets.below n untaken.live

/-- A pass that is set up has the target that it had, if it has one, or a new one. -/
theorem target?_configure (setup : Setup) (p : Pass) (h : Host) :
    let t := (Pass.configure setup ⟨p, h⟩).2
    target? t.stage = target? p ∨ target? t.stage = some h.device.nextId ∧ h.device.nextId < t.host.device.nextId := by
  cases p with
  | depth p =>
    have out := DepthPass.configured_configure p h
    show let t := (DepthPass.configure ⟨p, h⟩).2
      t.stage.target = p.target ∨ t.stage.target = some h.device.nextId ∧ h.device.nextId < t.host.device.nextId
    generalize DepthPass.configure ⟨p, h⟩ = r at out
    obtain ⟨r, t⟩ := r
    dsimp only at out ⊢
    cases out with
    | disposed _ => exact .inl rfl
    | kept _ _ => exact .inl rfl
    | refused _ _ _ => exact .inl rfl
    | @allocated target k events _ _ hc =>
      obtain ⟨htarget, hnext, -⟩ := Device.createTarget_ok (Host.run_of_issue_ok hc)
      have hlt : h.device.nextId < k.device.nextId := hnext ▸ Nat.lt_succ_self _
      exact .inr ⟨congrArg some htarget, hlt⟩
  | _ => exact .inl rfl

theorem target?_fitOut (setup : Setup) (size : Nat × Nat) (p : Pass) (h : Host) :
    let t := (fitOut setup size ⟨p, h⟩).2
    h.device.nextId ≤ t.host.device.nextId ∧ (target? t.stage = target? p ∨
      target? t.stage = some h.device.nextId ∧ h.device.nextId < t.host.device.nextId) := by
  have configured := target?_configure setup p h
  have hle : h.device.nextId ≤ (Pass.configure setup ⟨p, h⟩).2.host.device.nextId :=
    (Pass.onward_run (s := ⟨p, h⟩) (.configure setup) trivial).later.nextId
  unfold fitOut
  rw [Act.bind_apply]
  rcases hc : Pass.configure setup ⟨p, h⟩ with ⟨e | _, t⟩ <;> rw [hc] at configured hle
  · exact ⟨hle, configured⟩
  · have hkept := (Pass.conserves_resize size.1 size.2 t).target
    have hle' : t.host.device.nextId ≤ (Pass.resize size.1 size.2 t).2.host.device.nextId :=
      (Pass.onward_run (s := t) (.resize size.1 size.2) trivial).later.nextId
    refine ⟨Nat.le_trans hle hle', ?_⟩
    dsimp only
    rw [hkept]
    exact configured.imp_right fun ⟨hnew, hlt⟩ => ⟨hnew, Nat.lt_of_lt_of_le hlt hle'⟩

/-- A pass joins whose target, if it has one, is not among those of the others. -/
theorem Distinct.insert {p : Pipeline} {pass : Pass} (distinct : Distinct ⟨p, h⟩)
    (hn : h.device.nextId ≤ k.device.nextId)
    (hpass : ∀ n, target? pass = some n → n ∉ p.targets ∧ n < k.device.nextId) {index : Nat}
    (hindex : index ≤ p.entries.length) (id next : Nat) :
    Distinct ⟨{ p with entries := p.entries.insertIdx index ⟨id, pass⟩, nextPass := next }, k⟩ := by
  let q : Pipeline := { p with entries := p.entries.insertIdx index ⟨id, pass⟩, nextPass := next }
  have hperm : q.targets.Perm ((target? pass).toList ++ p.targets) := by
    have hentries : q.entries.Perm (⟨id, pass⟩ :: p.entries) := List.perm_insertIdx _ _ hindex
    have htargets :=
      (hentries.filterMap fun e => target? e.pass).append_left (p.buffers.toList.flatMap fun b => [b.1, b.2])
    have hcons : ((⟨id, pass⟩ :: p.entries : List PipelineEntry).filterMap fun e => target? e.pass) =
        (target? pass).toList ++ p.entries.filterMap fun e => target? e.pass := by
      rw [List.filterMap_cons]
      cases target? pass <;> rfl
    rw [hcons] at htargets
    exact htargets.trans (List.perm_append_comm_assoc _ _ _)
  have hold : ∀ n ∈ p.targets, n < k.device.nextId := fun n hmem => Nat.lt_of_lt_of_le (distinct.given n hmem) hn
  cases ht : target? pass with
  | none =>
    rw [ht] at hperm
    exact ⟨hperm.nodup_iff.2 distinct.nodup, fun n hmem => hold n (hperm.mem_iff.1 hmem)⟩
  | some n =>
    obtain ⟨hnot, hlt⟩ := hpass n ht
    rw [ht] at hperm
    refine ⟨hperm.nodup_iff.2 (List.nodup_cons.2 ⟨hnot, distinct.nodup⟩), fun m hmem => ?_⟩
    rcases List.mem_cons.1 (hperm.mem_iff.1 hmem) with rfl | hmem
    · exact hlt
    · exact hold m hmem

theorem distinct_addPass {pass : Pass}
    (hpass : ∀ n, target? pass = some n → n < s.host.device.nextId ∧ n ∉ s.stage.targets) (index : Option Nat)
    (distinct : Distinct s) : Distinct (addPass pass index s).2 := by
  obtain ⟨hle, htarget⟩ := target?_fitOut s.stage.setup s.stage.size pass s.host
  rw [addPass_eq]
  cases s.stage.buffers with
  | none => exact distinct
  | some buffers =>
    dsimp only
    rcases hf : fitOut s.stage.setup s.stage.size ⟨pass, s.host⟩ with ⟨e | _, q⟩ <;> rw [hf] at hle htarget
    · -- the pass is disposed of, which gives no number out
      have hdisposed := (Pass.onward_dispose q).later.nextId
      exact distinct.narrows (refl_of Narrows s) (Nat.le_trans hle hdisposed)
    · let place := min (index.getD s.stage.entries.length) s.stage.entries.length
      refine Distinct.insert (k := q.host.report [.passAdded q.stage.name place]) distinct hle (fun n hn => ?_)
        (Nat.min_le_right _ _) _ _
      rcases htarget with hkept | ⟨hnew, hlt⟩
      · obtain ⟨hgiven, hnot⟩ := hpass n (hkept ▸ hn)
        exact ⟨hnot, Nat.lt_of_lt_of_le hgiven hle⟩
      · have hsame : s.host.device.nextId = n := Option.some.inj (hnew.symm.trans hn)
        rw [← hsame]
        exact ⟨fun hmem => Nat.lt_irrefl _ (distinct.given _ hmem), hlt⟩

/-! ## Pipelines whose targets get lost -/

/-- What happens to a pipeline whose device may lose targets.  Passes are added that have no target yet, or one that was
made on the device and is none of the pipeline's; passes are removed, and changed so that they keep their targets or
give them up; the size changes, frames run, and the pipeline may be disposed of.  In between its device is used in any
way in which no number is given out again. -/
inductive Lossy : Staged Pipeline → Prop where
  | create {options : PipelineOptions} {h k : Host} {p : Pipeline} : h.device.Numbered →
      create options h = (.ok p, k) → Lossy ⟨p, k⟩
  | addPass {s : Staged Pipeline} (pass : Pass) (index : Option Nat) :
      (∀ n, target? pass = some n → n < s.host.device.nextId ∧ n ∉ s.stage.targets) → Lossy s →
      Lossy (addPass pass index s).2
  | removePass {s : Staged Pipeline} (id : Nat) : Lossy s → Lossy (removePass id s).2
  | changePass {s : Staged Pipeline} (id : Nat) {f : Pass → Pass} :
      (∀ pass, target? (f pass) = target? pass ∨ target? (f pass) = none) → Lossy s →
      Lossy ⟨s.stage.modifyPass id f, s.host⟩
  | resize {s : Staged Pipeline} (width height : Nat) : Lossy s → Lossy (resize width height s).2
  | render {s : Staged Pipeline} (deltaTime : Binary32) : Lossy s → Lossy (render deltaTime s).2
  | dispose {s : Staged Pipeline} : Lossy s → Lossy (dispose s).2
  | useHost {s : Staged Pipeline} {k : Host} : s.host.device.nextId ≤ k.device.nextId → Lossy s →
      Lossy { s with host := k }

/-- Whatever is lost, no target is held twice. -/
theorem Lossy.distinct (lossy : Lossy s) : Distinct s := by
  induction lossy with
  | create numbered hc => exact distinct_create numbered hc
  | addPass pass index hpass _ ih => exact distinct_addPass hpass index ih
  | @removePass s id _ ih => exact ih.narrows (narrows_removePass id s) (onward_removePass id s).later.nextId
  | @changePass s id f hf _ ih => exact ih.narrows (narrows_modifyPass s.stage id hf) (Nat.le_refl _)
  | @resize s width height _ ih =>
    exact ih.narrows (narrows_resize width height s) (onward_resize width height s).later.nextId
  | @render s deltaTime _ ih => exact ih.narrows (narrows_render deltaTime s) (onward_render deltaTime s).later.nextId
  | @dispose s _ ih => exact ih.narrows (narrows_dispose s) (onward_dispose s).later.nextId
  | useHost hn _ ih => exact ih.narrows (narrows_of_eq rfl) hn

theorem lossy_withPasses {passes : List Pass} (hpasses : ∀ p ∈ passes, target? p = none) :
    Lossy (withPasses passes) := by
  refine withPasses_induction (fun p h hc => ?_) fun pass hpass s lossy => ?_
  · exact .create (Device.numbered_create 1 1 [] false) hc
  · exact .addPass pass none (fun n hn => nomatch (hpasses pass hpass).symm.trans hn) lossy

end Pipeline

end ScreenFusion
