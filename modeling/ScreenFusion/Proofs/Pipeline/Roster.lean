import ScreenFusion.Proofs.Pass.Lasting
import ScreenFusion.Proofs.Pipeline.Passes

/-!
# ScreenFusion.Proofs.Pipeline.Roster — which passes a pipeline has

A pass joins a pipeline when it is added and leaves it when it is removed or the pipeline is disposed of.  In between it
keeps its number, and it stays what it is: as live as it was, and with the options that the pipeline set it up with.

* `Follows`: passes that are used in their places.
* `fitOut_eq`, `removePass_stage`: passes that join and leave.
* `RosterStep`, `PipelineOp.rosterStep_run`: all that a use of a pipeline can do to its passes.
* `Tallied`, `Used.tallied`: the numbers and options of passes.
* `exists_entry_after`: a pass that is neither removed nor disposed of with its pipeline stays there.
-/

namespace ScreenFusion

open Act (Confined)

open Fusion Holder Staged

namespace Pipeline

variable {e : PipelineEntry} {es es' es'' : List PipelineEntry} {h k : Host} {s t : Staged Pipeline}

/-! ## Passes in their places -/

/-- What stands in one of two lists that are related place by place has a counterpart in the other. -/
theorem exists_mem_of_forall₂ {α β : Type} {R : α → β → Prop} {xs : List α} {ys : List β} (f : List.Forall₂ R xs ys)
    {x : α} (hx : x ∈ xs) : ∃ y ∈ ys, R x y := by
  induction f with
  | nil => exact absurd hx List.not_mem_nil
  | cons hxy _ ih =>
    rcases List.mem_cons.1 hx with rfl | hx
    · exact ⟨_, List.mem_cons_self, hxy⟩
    · obtain ⟨y, hy, hr⟩ := ih hx
      exact ⟨y, List.mem_cons_of_mem _ hy, hr⟩

/-- The second entry has the number of the first, and its pass is what that was. -/
structure Persists (e e' : PipelineEntry) : Prop where
  id : e'.id = e.id
  lasting : e.pass.Lasting e'.pass

instance : IsPreorder PipelineEntry Persists where
  refl e := ⟨rfl, refl_of Pass.Lasting e.pass⟩
  trans _ _ _ h h' := ⟨h'.id.trans h.id, trans_of Pass.Lasting h.lasting h'.lasting⟩

/-- Each entry persists in its place. -/
def Follows (es es' : List PipelineEntry) : Prop := List.Forall₂ Persists es es'

namespace Follows

theorem refl (es : List PipelineEntry) : Follows es es := List.forall₂_same.2 fun e _ => refl_of Persists e

theorem trans (f : Follows es es') (f' : Follows es' es'') : Follows es es'' :=
  forall₂_trans (fun x y z (h : Persists x y) (h' : Persists y z) => trans_of Persists h h') f f'

/-- One entry and then the others. -/
theorem cons_pass {p : Pass} (lasting : e.pass.Lasting p) (rest : Follows es es') :
    Follows (e :: es) ({ e with pass := p } :: es') := List.Forall₂.cons ⟨rfl, lasting⟩ rest

theorem ids_eq (f : Follows es es') : es'.map PipelineEntry.id = es.map PipelineEntry.id := by
  induction f with
  | nil => rfl
  | cons persists _ ih => rw [List.map_cons, List.map_cons, persists.id, ih]

end Follows

theorem Readies.follows {r : Except Error Unit} (readies : Readies es h r es' k) : Follows es es' := by
  have prepared {p : Pass} {h : Host} {r : Except Error Unit} {t : Staged Pass}
      (hp : Pass.prepare ⟨p, h⟩ = (r, t)) : p.Lasting t.stage := by
    have lasting := Pass.lasting_prepare p h
    rwa [hp] at lasting
  induction readies with
  | nil => exact .refl []
  | @skip e _ _ _ _ _ _ _ ih => exact .cons (refl_of Persists e) ih
  | ready _ hp _ ih => exact .cons_pass (prepared hp) ih
  | @refused _ es _ _ _ _ hp => exact .cons_pass (prepared hp) (.refl es)

theorem RunOutcome.lasting {deltaTime : Binary32} {depthNeeded last : Bool} {f : FrameState} {p : Pass}
    {r : Except Error FrameState} {t : Staged Pass} (outcome : RunOutcome deltaTime depthNeeded last f p h r t) :
    p.Lasting t.stage := by
  have rendered {io : PassIo} {k : Host} {r : Except Error Unit} {t : Staged Pass}
      (hr : Pass.render io deltaTime ⟨p, k⟩ = (r, t)) : p.Lasting t.stage := by
    have lasting := Pass.lasting_render io deltaTime p k
    rwa [hr] at lasting
  cases outcome with
  | skipped _ => exact refl_of Pass.Lasting p
  | depth _ _ _ _ hr =>
    have lasting := rendered hr
    exact lasting
  | color _ _ hr =>
    have lasting := rendered hr
    exact lasting
  | failed _ hr => exact rendered hr

theorem Runs.follows {deltaTime : Binary32} {depthNeeded : Bool} {f : FrameState} {r : Except Error FrameState}
    (runs : Runs deltaTime depthNeeded es f h r es' k) : Follows es es' := by
  induction runs with
  | nil => exact .refl []
  | next outcome _ ih => exact .cons_pass outcome.lasting ih
  | @failed _ es _ _ _ _ outcome => exact .cons_pass outcome.lasting (.refl es)

theorem follows_resizeEntries (width height : Nat) (es : List PipelineEntry) (h : Host) :
    Follows es (resizeEntries width height es h).1 := by
  induction es generalizing h with
  | nil => exact .refl []
  | cons e es ih =>
    have lasting := Pass.lasting_resize width height e.pass h
    rw [resizeEntries]
    rcases hr : Pass.resize width height ⟨e.pass, h⟩ with ⟨err | _, t⟩ <;> rw [hr] at lasting
    · exact .cons_pass lasting (ih _)
    · exact .cons_pass lasting (ih t.host)

theorem follows_modifyPass {p : Pipeline} {id : Nat} {f : Pass → Pass}
    (hf : ∀ e ∈ p.entries, e.id = id → e.pass.Lasting (f e.pass)) : Follows p.entries (p.modifyPass id f).entries := by
  refine List.forall₂_map_right_iff.2 (List.forall₂_same.2 fun e he => ?_)
  by_cases hid : e.id = id
  · rw [if_pos hid]
    exact ⟨rfl, hf e he hid⟩
  · rw [if_neg hid]
    exact refl_of Persists e

/-! ## Operations that keep the passes in their places -/

/-- The second pipeline has the passes of the first in their places. -/
structure Keeps (s t : Staged Pipeline) : Prop where
  options : t.stage.options = s.stage.options
  nextPass : t.stage.nextPass = s.stage.nextPass
  follows : Follows s.stage.entries t.stage.entries

instance : IsPreorder (Staged Pipeline) Keeps where
  refl s := ⟨rfl, rfl, .refl s.stage.entries⟩
  trans _ _ _ h h' := ⟨h'.options.trans h.options, h'.nextPass.trans h.nextPass, h.follows.trans h'.follows⟩

theorem keeps_onHost {α : Type} (x : Act Host α) : Confined Keeps (Staged.onHost x : Act (Staged Pipeline) α) :=
  fun s => ⟨rfl, rfl, .refl s.stage.entries⟩

theorem keeps_report (events : List Event) : Confined Keeps (Staged.report events : Act (Staged Pipeline) Unit) :=
  fun s => ⟨rfl, rfl, .refl s.stage.entries⟩

theorem keeps_liveBuffers : Confined Keeps liveBuffers := by
  intro s
  rw [liveBuffers_apply]
  cases s.stage.buffers <;> exact refl_of Keeps s

theorem keeps_resize (width height : Nat) : Confined Keeps (resize width height) := by
  refine .bind keeps_liveBuffers fun buffers => .ite (.fail _) ?_
  refine .bind (keeps_onHost _) fun _ => .bind (keeps_onHost _) fun _ => .bind (keeps_onHost _) fun _ => ?_
  refine .bind (fun s => ⟨rfl, rfl, follows_resizeEntries width height s.stage.entries s.host⟩) fun error => ?_
  refine .bind (keeps_report _) fun _ => ?_
  cases error with
  | none => exact .pure ()
  | some e => exact .fail e

theorem keeps_render (deltaTime : Binary32) : Confined Keeps (render deltaTime) := by
  refine .bind keeps_liveBuffers fun buffers => .bind ?_ fun _ => .bind ?_ fun _ => .bind (refl_of Keeps) fun p => ?_
  · exact fun s => ⟨rfl, rfl, (readies_prepareEntries s.stage.entries s.host).follows⟩
  · exact fun s => ⟨rfl, rfl, .refl s.stage.entries⟩
  · refine .bind ?_ fun f s => ⟨rfl, rfl, .refl s.stage.entries⟩
    exact fun s => ⟨rfl, rfl, (runs_runEntries deltaTime _ s.stage.entries _ s.host).follows⟩

theorem keeps_setEnabled (p : Pipeline) (id : Nat) (enabled : Bool) (h : Host) :
    Keeps ⟨p, h⟩ ⟨(p.setEnabled id enabled).2, h⟩ :=
  ⟨rfl, rfl, follows_modifyPass fun e _ _ => e.pass.lasting_setEnabled enabled⟩

theorem keeps_changePass {id : Nat} {setter : PassSetter} (ids : (s.stage.entries.map PipelineEntry.id).Nodup)
    (ha : ∀ pass, s.stage.pass? id = some pass → setter.Admissible) : Keeps s (changePass id setter s).2 := by
  obtain ⟨p, h⟩ := s
  unfold changePass
  rw [Act.bind_of_ok (get_apply _)]
  dsimp only
  cases hp : p.pass? id with
  | none => exact refl_of Keeps _
  | some pass =>
    obtain ⟨before, after, hentries, hother⟩ := entries_of_pass? ids hp
    refine ⟨rfl, rfl, follows_modifyPass fun e he hid => ?_⟩
    -- the pass with the number is the one that is changed
    have hpass : e = ⟨id, pass⟩ := by
      rw [hentries, List.mem_append, List.mem_cons] at he
      rcases he with hb | rfl | ha
      · exact absurd hid (hother e (List.mem_append_left _ hb))
      · rfl
      · exact absurd hid (hother e (List.mem_append_right _ ha))
    rw [hpass]
    exact Pass.lasting_setter (ha pass hp) pass h

/-! ## Passes that join and leave -/

/-- A pass that is added has the options of the pipeline, if it runs a program, and is as live as it was. -/
theorem fitOut_eq (setup : Setup) (size : Nat × Nat) (p : Pass) (h : Host) :
    let t := (fitOut setup size ⟨p, h⟩).2
    disposed t.stage = disposed p ∧ t.stage.isDepthProducer = p.isDepthProducer ∧
      t.stage.options? = p.options?.map fun _ => setup.options := by
  have configured := Pass.configure_eq setup p h
  unfold fitOut
  rw [Act.bind_apply]
  rcases hc : Pass.configure setup ⟨p, h⟩ with ⟨e | _, q, k⟩ <;> rw [hc] at configured
  · exact configured
  · have lasting := Pass.lasting_resize size.1 size.2 q k
    exact ⟨lasting.disposed.trans configured.1, lasting.kind.trans configured.2.1, lasting.options.trans configured.2.2⟩

/-- Only for a depth pass this can fail. -/
theorem fitOut_ok {p : Pass} (hk : p.isDepthProducer = false) (setup : Setup) (size : Nat × Nat) (h : Host) :
    ∃ q, fitOut setup size ⟨p, h⟩ = (.ok (), ⟨q, h⟩) := by
  obtain ⟨q, hc⟩ := Pass.configure_ok hk setup h
  have hkind := (Pass.configure_eq setup p h).2.1
  rw [hc] at hkind
  refine ⟨q, ?_⟩
  unfold fitOut
  rw [Act.bind_of_ok hc]
  cases q with
  | depth q => cases hkind.trans hk
  | _ => rfl

theorem eraseP_of_pass?_eq_none {p : Pipeline} {id : Nat} (hp : p.pass? id = none) :
    (p.entries.eraseP fun e => e.id == id) = p.entries :=
  List.eraseP_of_forall_not (List.find?_eq_none.1 (Option.map_eq_none_iff.1 hp))

/-- Without the pass with a number, if there is one. -/
theorem removePass_stage (id : Nat) (s : Staged Pipeline) :
    (removePass id s).2.stage = { s.stage with entries := s.stage.entries.eraseP fun e => e.id == id } := by
  unfold removePass
  rw [Act.bind_of_ok (get_apply s)]
  cases hp : s.stage.pass? id with
  | none =>
    rw [eraseP_of_pass?_eq_none hp]
    rfl
  | some pass =>
    dsimp only
    rw [Act.bind_of_ok (modify_apply _ s), Act.bind_apply, runOn]
    rcases Pass.dispose ⟨pass, s.host⟩ with ⟨e | _ | _, t⟩
    · rfl
    · rfl
    · rfl

/-! ## Uses -/

/-- All that a use of a pipeline can do to its passes. -/
inductive RosterStep (p : Pipeline) : PipelineOp → Pipeline → Prop where
  | kept {op : PipelineOp} {q : Pipeline} : q.options = p.options → q.nextPass = p.nextPass →
      Follows p.entries q.entries → RosterStep p op q
  | added {pass pass' : Pass} {index : Option Nat} {place : Nat} {q : Pipeline} : q.options = p.options →
      q.nextPass = p.nextPass + 1 → place ≤ p.entries.length →
      q.entries = p.entries.insertIdx place ⟨p.nextPass, pass'⟩ → disposed pass' = disposed pass →
      pass'.isDepthProducer = pass.isDepthProducer →
      (pass'.options? = pass.options?.map fun _ => p.setup.options) → RosterStep p (.addPass pass index) q
  | removed {id : Nat} {q : Pipeline} : q.options = p.options → q.nextPass = p.nextPass →
      q.entries = (p.entries.eraseP fun e => e.id == id) → RosterStep p (.removePass id) q
  | emptied {q : Pipeline} : q.options = p.options → q.nextPass = p.nextPass → q.entries = [] →
      RosterStep p .dispose q

theorem Keeps.rosterStep (keeps : Keeps s t) (op : PipelineOp) : RosterStep s.stage op t.stage :=
  .kept keeps.options keeps.nextPass keeps.follows

/-- Passes are changed only from outside. -/
def PipelineOp.Outside (s : Staged Pipeline) : PipelineOp → Prop
  | changePass id setter => ∀ pass, s.stage.pass? id = some pass → setter.Admissible
  | _ => True

theorem PipelineOp.Suits.outside {op : PipelineOp} (suits : op.Suits s) : op.Outside s := by
  cases op with
  | changePass id setter => exact fun pass hp => (suits pass hp).admissible
  | _ => trivial

theorem rosterStep_addPass (pass : Pass) (index : Option Nat) (s : Staged Pipeline) :
    RosterStep s.stage (.addPass pass index) (addPass pass index s).2.stage := by
  have same : Follows s.stage.entries s.stage.entries := .refl _
  have fitted := fitOut_eq s.stage.setup s.stage.size pass s.host
  rw [addPass_eq]
  cases s.stage.buffers with
  | none => exact .kept rfl rfl same
  | some buffers =>
    dsimp only
    rcases hf : fitOut s.stage.setup s.stage.size ⟨pass, s.host⟩ with ⟨e | _, q⟩ <;> rw [hf] at fitted
    · exact .kept rfl rfl same
    · exact .added rfl rfl (Nat.min_le_right _ _) rfl fitted.1 fitted.2.1 fitted.2.2

theorem PipelineOp.rosterStep_run {op : PipelineOp} (ids : (s.stage.entries.map PipelineEntry.id).Nodup)
    (outside : op.Outside s) : RosterStep s.stage op (op.run s).stage := by
  cases op with
  | addPass pass index => exact rosterStep_addPass pass index s
  | removePass id =>
    show RosterStep s.stage (.removePass id) (Pipeline.removePass id s).2.stage
    rw [removePass_stage]
    exact .removed rfl rfl rfl
  | setEnabled id enabled => exact (keeps_setEnabled s.stage id enabled s.host).rosterStep _
  | changePass id setter => exact (keeps_changePass ids outside).rosterStep _
  | resize width height => exact (keeps_resize width height s).rosterStep _
  | render deltaTime => exact (keeps_render deltaTime s).rosterStep _
  | dispose =>
    obtain ⟨p, h⟩ := s
    show RosterStep p .dispose (Pipeline.dispose ⟨p, h⟩).2.stage
    cases hb : p.buffers with
    | none =>
      rw [dispose_of_disposed hb]
      exact .kept rfl rfl (.refl p.entries)
    | some buffers =>
      rw [dispose_of_live hb]
      exact .emptied rfl rfl rfl
  | useHost u => exact .kept rfl rfl (.refl s.stage.entries)

/-! ## Numbers and options -/

/-- The passes of a pipeline have different numbers, which are not given out again, and its options. -/
structure Tallied (p : Pipeline) : Prop where
  ids : (p.entries.map PipelineEntry.id).Nodup
  below : ∀ e ∈ p.entries, e.id < p.nextPass
  options : ∀ e ∈ p.entries, ∀ o, e.pass.options? = some o → o = p.setup.options

theorem setup_congr {p q : Pipeline} (ho : q.options = p.options) : q.setup = p.setup := by
  unfold setup
  rw [ho]

/-- Passes that are used in their places keep it. -/
theorem Tallied.follows {p q : Pipeline} (tallied : Tallied p) (ho : q.options = p.options)
    (hn : q.nextPass = p.nextPass) (follows : Follows p.entries q.entries) : Tallied q := by
  have before {e' : PipelineEntry} (he' : e' ∈ q.entries) : ∃ e ∈ p.entries, Persists e e' :=
    exists_mem_of_forall₂ (R := fun e' e => Persists e e') follows.flip he'
  refine ⟨follows.ids_eq ▸ tallied.ids, fun e' he' => ?_, fun e' he' o hopt => ?_⟩
  · obtain ⟨e, he, persists⟩ := before he'
    rw [persists.id, hn]
    exact tallied.below e he
  · obtain ⟨e, he, persists⟩ := before he'
    rw [setup_congr ho]
    exact tallied.options e he o (persists.lasting.options ▸ hopt)

theorem RosterStep.tallied {p q : Pipeline} {op : PipelineOp} (step : RosterStep p op q) (tallied : Tallied p) :
    Tallied q := by
  cases step with
  | kept ho hn follows => exact tallied.follows ho hn follows
  | @added _ pass' _ place _ ho hn hplace hentries _ _ hoptions =>
    have hperm := List.perm_insertIdx (⟨p.nextPass, pass'⟩ : PipelineEntry) p.entries hplace
    rw [← hentries] at hperm
    refine ⟨?_, fun e he => ?_, fun e he o hopt => ?_⟩
    · refine ((hperm.map PipelineEntry.id).nodup_iff).2 (List.nodup_cons.2 ⟨fun hin => ?_, tallied.ids⟩)
      obtain ⟨e, he, hid⟩ := List.mem_map.1 hin
      exact Nat.lt_irrefl _ (hid ▸ tallied.below e he)
    · rw [hn]
      rcases List.mem_cons.1 (hperm.mem_iff.1 he) with rfl | he
      · exact Nat.lt_succ_self _
      · exact Nat.lt_succ_of_lt (tallied.below e he)
    · rw [setup_congr ho]
      rcases List.mem_cons.1 (hperm.mem_iff.1 he) with rfl | he
      · rw [hoptions] at hopt
        obtain ⟨_, -, ho⟩ := Option.map_eq_some_iff.1 hopt
        exact ho.symm
      · exact tallied.options e he o hopt
  | removed ho hn hentries =>
    have hsub : q.entries.Sublist p.entries := hentries ▸ List.eraseP_sublist
    refine ⟨tallied.ids.sublist (hsub.map _), fun e he => ?_, fun e he o hopt => ?_⟩
    · exact hn ▸ tallied.below e (hsub.subset he)
    · exact setup_congr ho ▸ tallied.options e (hsub.subset he) o hopt
  | emptied _ _ hentries =>
    refine ⟨hentries ▸ .nil, fun e he => ?_, fun e he => ?_⟩ <;> rw [hentries] at he <;> exact nomatch he

theorem Tallied.run {op : PipelineOp} (tallied : Tallied s.stage) (outside : op.Outside s) : Tallied (op.run s).stage :=
  (PipelineOp.rosterStep_run tallied.ids outside).tallied tallied

/-- So it is in every pipeline that can be had. -/
theorem Used.tallied (used : Used s) : Tallied s.stage := by
  induction used with
  | created hc =>
    have hentries := entries_of_create hc
    refine ⟨hentries ▸ .nil, fun e he => ?_, fun e he => ?_⟩ <;> rw [hentries] at he <;> exact nomatch he
  | used op _ suits ih => exact ih.run suits.outside
  | elsewhere _ _ ih => exact ih

/-! ## Passes that stay -/

/-- A use that neither removes the pass with a number nor disposes of the pipeline, and changes passes only from
outside. -/
def PipelineOp.Spares (id : Nat) : PipelineOp → Prop
  | removePass n => n ≠ id
  | dispose => False
  | changePass _ setter => setter.Admissible
  | _ => True

theorem PipelineOp.Spares.outside {id : Nat} {op : PipelineOp} (spares : op.Spares id) : op.Outside s := by
  cases op with
  | changePass id setter => exact fun _ _ => spares
  | _ => trivial

theorem RosterStep.exists_entry {p q : Pipeline} {op : PipelineOp} (step : RosterStep p op q)
    (spares : op.Spares e.id) (he : e ∈ p.entries) : ∃ e' ∈ q.entries, Persists e e' := by
  cases step with
  | kept _ _ follows => exact exists_mem_of_forall₂ follows he
  | added _ _ hplace hentries _ _ _ =>
    refine ⟨e, ?_, refl_of Persists e⟩
    rw [hentries, List.mem_insertIdx hplace]
    exact .inr he
  | @removed id _ _ _ hentries =>
    refine ⟨e, ?_, refl_of Persists e⟩
    have spares : id ≠ e.id := spares
    have hmem : (e ∈ p.entries.eraseP fun e => e.id == id) ↔ e ∈ p.entries :=
      List.mem_eraseP_of_neg (by simpa using spares.symm)
    rw [hentries]
    exact hmem.2 he
  | emptied _ _ _ => exact spares.elim

/-- A pass stays where it is through any uses that spare it. -/
theorem exists_entry_after {ops : List PipelineOp} (tallied : Tallied s.stage) (he : e ∈ s.stage.entries)
    (spares : ∀ op ∈ ops, op.Spares e.id) : ∃ e' ∈ (after ops s).stage.entries, Persists e e' := by
  induction ops generalizing s e with
  | nil => exact ⟨e, he, refl_of Persists e⟩
  | cons op ops ih =>
    obtain ⟨hop, hops⟩ := List.forall_mem_cons.1 spares
    have step := PipelineOp.rosterStep_run (s := s) tallied.ids hop.outside
    obtain ⟨e₁, he₁, first⟩ := step.exists_entry hop he
    obtain ⟨e₂, he₂, rest⟩ := ih (s := op.run s) (step.tallied tallied) he₁ (first.id ▸ hops)
    exact ⟨e₂, he₂, trans_of Persists first rest⟩

end Pipeline

end ScreenFusion
