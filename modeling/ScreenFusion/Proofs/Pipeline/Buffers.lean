import ScreenFusion.Proofs.Pass.Writes
import ScreenFusion.Proofs.Pipeline.Refusal

/-!
# ScreenFusion.Proofs.Pipeline.Buffers — the two buffers of a pipeline through its life

The two buffers that a pipeline gets when it is made are its own to the end.  They are two targets that stay on the
device; a pass never has one of them, since what a pass makes is new; and all that happens to them is that they change
places.

* `Staged.Apart`: the device has a target that what acts on it does not have; passes keep that so.
* `Pipeline.Paired`: a pipeline has its two buffers.
* `Pipeline.Life`, `Pipeline.Life.paired`: what happens to a pipeline, and that it has its two buffers all the time.
-/

namespace ScreenFusion

open Act (Confined Keeping)

open Holder Staged

variable {n : Nat} {h k : Host}

/-! ## New targets -/

/-- A new target is none of those that there were, and these stay. -/
theorem Host.createTarget_new {spec : TargetSpec} {id : Nat} (hc : Host.createTarget spec h = (.ok id, k))
    (numbered : h.device.Numbered) :
    k.device.Numbered ∧ id ∈ k.device.targets.keys ∧
      ∀ n ∈ h.device.targets.keys, n ∈ k.device.targets.keys ∧ n ≠ id := by
  have hmade := Device.makes_createTarget spec h.device numbered
  rw [run_of_issue_ok hc] at hmade
  obtain ⟨numbered', hlive⟩ := hmade
  have hkeys : (k.device.targets.keys : Multiset Nat) = {id} + h.device.targets.keys := congrArg Prod.fst hlive
  rw [Multiset.singleton_add, Multiset.cons_coe, Multiset.coe_eq_coe] at hkeys
  have hnodup := hkeys.nodup_iff.1 numbered'.targets.nodup
  refine ⟨numbered', hkeys.mem_iff.2 List.mem_cons_self, fun n hn => ?_⟩
  refine ⟨hkeys.mem_iff.2 (List.mem_cons_of_mem _ hn), ?_⟩
  rintro rfl
  exact (List.nodup_cons.1 hnodup).1 hn

/-! ## What acts on a device that has a target of others -/

namespace Staged

variable {P α : Type} [Holder P]

/-- The numbers of the device are in order, and it has a target that what acts on it does not have. -/
structure Apart (n : Nat) (s : Staged P) : Prop where
  numbered : s.host.device.Numbered
  live : n ∈ s.host.device.targets.keys
  other : target? s.stage ≠ some n

theorem apart_modify {f : P → P} (hf : ∀ p, target? (f p) = target? p) :
    Confined (Keeping (Apart n)) (Staged.modify f) := fun s apart =>
  ⟨apart.numbered, apart.live, hf s.stage ▸ apart.other⟩

theorem apart_report (events : List Event) :
    Confined (Keeping (Apart n)) (Staged.report events : Act (Staged P) Unit) := fun _ apart =>
  ⟨apart.numbered, apart.live, apart.other⟩

theorem apart_onHost {x : Act Host α} (hx : ∀ h : Host, h.device.Spares n (x h).2.device) :
    Confined (Keeping (Apart n)) (Staged.onHost x : Act (Staged P) α) := fun s apart =>
  have spared := hx s.host apart.numbered apart.live
  ⟨spared.1, spared.2, apart.other⟩

theorem apart_releaseProgram (program : Nat) :
    Confined (Keeping (Apart n)) (Staged.release (Host.releaseProgram program) : Act (Staged P) Bool) := fun s apart =>
  have spared := Device.spares_releaseProgram program s.host.device apart.numbered apart.live
  ⟨spared.1, spared.2, apart.other⟩

/-- Commands that release no target keep one of others. -/
theorem apart_of_only {Q : Command → Prop} {s t : Staged P} (only : s.Only Q t) (hq : ∀ c, Q c → c ≠ .releaseTarget n)
    (ht : target? t.stage = target? s.stage) (apart : s.Apart n) : t.Apart n :=
  have spared := Host.Only.spares only n hq apart.numbered apart.live
  ⟨spared.1, spared.2, ht ▸ apart.other⟩

end Staged

/-! ## Passes -/

namespace DepthPass

theorem apart_configure : Confined (Keeping (Apart n)) configure := by
  rintro ⟨p, h⟩ apart
  unfold configure
  rw [Act.bind_of_ok (get_apply _)]
  dsimp only
  by_cases hd : p.disposed = true
  · rw [if_pos hd]
    exact apart
  · rw [if_neg hd]
    by_cases ht : p.target.isSome = true
    · rw [if_pos ht]
      exact apart
    · rw [if_neg ht, Act.bind_of_ok (device_apply _)]
      let q := (p.rebased h.device.outputSize.1 h.device.outputSize.2).2
      let spec : TargetSpec := ⟨name ++ ".depth", q.size.1, q.size.2, .full, false, true⟩
      have hq : Apart n ⟨q, h⟩ := ⟨apart.numbered, apart.live, apart.other⟩
      show Apart n ((do
        let target ← Staged.onHost (Host.createTarget spec)
        Staged.modify fun p : DepthPass => { p with target := some target }
        Staged.report [.depthAllocated name q.size.1 q.size.2] : Act (Staged DepthPass) Unit) ⟨q, h⟩).2
      have hspared := Host.spares_issue (.createTarget spec) .handle (Device.makes_createTarget spec).spares h (n := n)
      rw [Act.bind_apply, onHost_apply]
      rcases hc : Host.createTarget spec h with ⟨e | id, k⟩
      · have spared : k.device.Numbered ∧ n ∈ k.device.targets.keys := by
          have hk := hspared apart.numbered apart.live
          rw [show Host.issue _ _ _ h = (.error e, k) from hc] at hk
          exact hk
        exact ⟨spared.1, spared.2, hq.other⟩
      · -- the pass gets a target, which is a new one
        obtain ⟨numbered, -, hnew⟩ := Host.createTarget_new hc apart.numbered
        obtain ⟨hlive, hne⟩ := hnew n apart.live
        exact ⟨numbered, hlive, fun hsame => hne (Option.some.inj hsame).symm⟩

theorem apart_refit (p : DepthPass) : Confined (Keeping (Apart n)) (refit p) := by
  unfold refit
  cases p.target with
  | none => exact .pure ()
  | some target =>
    refine .bind (refl_of _) fun _ => .ite (.pure ()) (.bind (apart_modify fun _ => rfl) fun _ => ?_)
    exact .bind (apart_onHost fun h => Host.spares_issue _ _ (Device.steady_resizeTarget _ _ _).spares h) fun _ =>
      apart_report _

theorem apart_resize (width height : Nat) : Confined (Keeping (Apart n)) (resize width height) := by
  intro s apart
  let p := (s.stage.rebased width height).2
  let p' : DepthPass := { p with rendered := p.rendered && !(s.stage.rebased width height).1 }
  have hrebased : Apart n ⟨p', s.host⟩ := ⟨apart.numbered, apart.live, apart.other⟩
  exact apart_refit p _ hrebased

theorem apart_dispose : Confined (Keeping (Apart n)) dispose := by
  rintro ⟨p, h⟩ apart
  unfold dispose
  rw [Act.bind_of_ok (get_apply _)]
  dsimp only
  by_cases hd : p.disposed = true
  · rw [if_pos hd]
    exact apart
  · rw [if_neg hd]
    cases ht : p.target with
    | none => exact ⟨apart.numbered, apart.live, nofun⟩
    | some target =>
      have hne : n ≠ target := by
        rintro rfl
        exact apart.other ht
      have spared := Device.spares_releaseTarget hne h.device apart.numbered apart.live
      exact ⟨spared.1, spared.2, nofun⟩

end DepthPass

theorem MaterialPass.apart_dispose : Confined (Keeping (Apart n)) MaterialPass.dispose := by
  refine .bind (refl_of _) fun p => .ite (.pure false) (.bind (apart_modify fun _ => rfl) fun _ => ?_)
  cases p.compiled with
  | none => exact .pure true
  | some compiled => exact .bind (apart_releaseProgram _) fun _ => .pure true

theorem EffectPass.apart_dispose : Confined (Keeping (Apart n)) EffectPass.dispose := by
  refine .bind (refl_of _) fun p => .ite (.pure false) (.bind (apart_modify fun _ => rfl) fun _ => ?_)
  have hrest : Confined (Keeping (Apart n)) (do
      Staged.modify fun q : EffectPass => { q with effects := (disposeEffects p.effects).2 }
      Staged.report ((disposeEffects p.effects).1 ++ [.passDisposed p.name])
      return true : Act (Staged EffectPass) Bool) :=
    .bind (apart_modify fun _ => rfl) fun _ => .bind (apart_report _) fun _ => .pure true
  cases p.compiled with
  | none => exact hrest
  | some compiled => exact .bind (apart_releaseProgram _) fun _ => hrest

namespace Pass

theorem apart_within {P α : Type} [Holder P] {x : Act (Staged P) α} (hx : Confined (Keeping (Apart n)) x)
    (wrap : P → Pass) (p : P) (hwrap : ∀ q, target? (wrap q) = target? q) :
    Keeping (Apart n) ⟨wrap p, h⟩ (within wrap p x ⟨wrap p, h⟩).2 := by
  intro apart
  have hin := hx ⟨p, h⟩ ⟨apart.numbered, apart.live, hwrap p ▸ apart.other⟩
  exact ⟨hin.numbered, hin.live, (hwrap _).symm ▸ hin.other⟩

theorem apart_configure (setup : Setup) : Confined (Keeping (Apart n)) (configure setup) := by
  rintro ⟨p, h⟩
  cases p with
  | clear p => exact id
  | scene p => exact id
  | depth p => exact apart_within DepthPass.apart_configure _ p fun _ => rfl
  | material p =>
    have hx : Confined (Keeping (Apart n)) (MaterialPass.configure setup) := apart_modify fun _ => rfl
    exact apart_within hx _ p fun _ => rfl
  | effect p =>
    have hx : Confined (Keeping (Apart n)) (EffectPass.configure setup) := apart_modify fun _ => rfl
    exact apart_within hx _ p fun _ => rfl

theorem apart_resize (width height : Nat) : Confined (Keeping (Apart n)) (resize width height) := by
  rintro ⟨p, h⟩
  cases p with
  | depth p => exact apart_within (DepthPass.apart_resize width height) _ p fun _ => rfl
  | _ => exact id

theorem apart_dispose : Confined (Keeping (Apart n)) dispose := by
  rintro ⟨p, h⟩
  cases p with
  | clear p => exact fun apart => ⟨apart.numbered, apart.live, apart.other⟩
  | scene p => exact fun apart => ⟨apart.numbered, apart.live, apart.other⟩
  | depth p => exact apart_within DepthPass.apart_dispose _ p fun _ => rfl
  | material p => exact apart_within MaterialPass.apart_dispose _ p fun _ => rfl
  | effect p => exact apart_within EffectPass.apart_dispose _ p fun _ => rfl

theorem apart_prepare : Confined (Keeping (Apart n)) prepare := fun s =>
  apart_of_only (only_prepare s) (fun _ hc => Command.ne_releaseTarget_of_isAboutProgram hc n)
    (conserves_prepare s).target

theorem apart_render (io : PassIo) (deltaTime : Binary32) :
    Confined (Keeping (Apart n)) (render io deltaTime) := fun s =>
  apart_of_only (only_render io deltaTime s.stage s.host) (fun _ hc => hc.ne_releaseTarget n)
    (conserves_render io deltaTime s).target

end Pass

/-! ## Passes in order -/

namespace Pipeline

variable {e : PipelineEntry} {es es' : List PipelineEntry} {p : Pass} {s t : Staged Pipeline} {read write : Nat}

/-- The numbers of the device are in order, and it has a target that no pass has. -/
structure Untaken (n : Nat) (es : List PipelineEntry) (h : Host) : Prop where
  numbered : h.device.Numbered
  live : n ∈ h.device.targets.keys
  others : ∀ e ∈ es, target? e.pass ≠ some n

namespace Untaken

theorem head (untaken : Untaken n (e :: es) h) : Apart n ⟨e.pass, h⟩ :=
  ⟨untaken.numbered, untaken.live, untaken.others e List.mem_cons_self⟩

/-- After an act of the first pass. -/
theorem tail (untaken : Untaken n (e :: es) h) {s : Staged Pass} (apart : s.Apart n) : Untaken n es s.host :=
  ⟨apart.numbered, apart.live, fun e he => untaken.others e (List.mem_cons_of_mem _ he)⟩

theorem cons (untaken : Untaken n es h) (hp : target? p ≠ some n) (id : Nat) : Untaken n (⟨id, p⟩ :: es) h := by
  refine ⟨untaken.numbered, untaken.live, fun e he => ?_⟩
  rcases List.mem_cons.1 he with rfl | he
  · exact hp
  · exact untaken.others e he

theorem mono (untaken : Untaken n es h) (hes : ∀ e ∈ es', e ∈ es) : Untaken n es' h :=
  ⟨untaken.numbered, untaken.live, fun e he => untaken.others e (hes e he)⟩

theorem onDevice (untaken : Untaken n es h) (hk : h.device.Spares n k.device) : Untaken n es k :=
  have spared := hk untaken.numbered untaken.live
  ⟨spared.1, spared.2, untaken.others⟩

theorem report (untaken : Untaken n es h) (events : List Event) : Untaken n es (h.report events) :=
  ⟨untaken.numbered, untaken.live, untaken.others⟩

theorem visited (untaken : Untaken n (e :: es) h) {s : Staged Pass} (apart : s.Apart n) :
    Untaken n ({ e with pass := s.stage } :: es) s.host := (untaken.tail apart).cons apart.other e.id

end Untaken

theorem Readies.untaken {r : Except Error Unit} (readies : Readies es h r es' k) (untaken : Untaken n es h) :
    Untaken n es' k := by
  have prepared {e : PipelineEntry} {h : Host} {r : Except Error Unit} {s : Staged Pass}
      (hp : Pass.prepare ⟨e.pass, h⟩ = (r, s)) (apart : Apart n ⟨e.pass, h⟩) : s.Apart n := by
    have hs := Pass.apart_prepare ⟨e.pass, h⟩ apart
    rwa [hp] at hs
  induction readies with
  | nil => exact untaken
  | @skip e _ _ _ _ _ _ _ ih =>
    exact (ih (untaken.tail untaken.head)).cons untaken.head.other e.id
  | @ready e _ _ _ _ _ _ _ hp _ ih =>
    have apart := prepared hp untaken.head
    exact (ih (untaken.tail apart)).cons apart.other e.id
  | refused _ hp => exact untaken.visited (prepared hp untaken.head)

theorem RunOutcome.apart {deltaTime : Binary32} {depthNeeded last : Bool} {f : FrameState} {r : Except Error FrameState}
    {s : Staged Pass} (outcome : RunOutcome deltaTime depthNeeded last f p h r s) (apart : Apart n ⟨p, h⟩) :
    s.Apart n := by
  have reported {s : Staged Pass} (events : List Event) (apart : s.Apart n) : Apart n ⟨s.stage, s.host.report events⟩ :=
    apart_report events s apart
  have rendered {io : PassIo} {k : Host} {r : Except Error Unit} {s : Staged Pass}
      (hr : Pass.render io deltaTime ⟨p, k⟩ = (r, s)) (apart : Apart n ⟨p, k⟩) : s.Apart n := by
    have hs := Pass.apart_render io deltaTime ⟨p, k⟩ apart
    rwa [hr] at hs
  cases outcome with
  | skipped _ => exact reported _ apart
  | depth _ _ _ _ hr => exact reported _ (rendered hr apart)
  | color _ _ hr => exact reported _ (rendered hr (reported _ apart))
  | failed _ hr => exact rendered hr (reported _ apart)

theorem Runs.untaken {deltaTime : Binary32} {depthNeeded : Bool} {f : FrameState} {r : Except Error FrameState}
    (runs : Runs deltaTime depthNeeded es f h r es' k) (untaken : Untaken n es h) : Untaken n es' k := by
  induction runs with
  | nil => exact untaken
  | @next e _ _ _ _ _ _ _ _ outcome _ ih =>
    have apart := outcome.apart untaken.head
    exact (ih (untaken.tail apart)).cons apart.other e.id
  | failed outcome => exact untaken.visited (outcome.apart untaken.head)

theorem untaken_resizeEntries {width height : Nat} (untaken : Untaken n es h) :
    Untaken n (resizeEntries width height es h).1 (resizeEntries width height es h).2.2 := by
  induction es generalizing h with
  | nil => exact untaken
  | cons e es ih =>
    have apart := Pass.apart_resize width height ⟨e.pass, h⟩ untaken.head
    rw [resizeEntries]
    rcases hr : Pass.resize width height ⟨e.pass, h⟩ with ⟨err | _, s⟩ <;> rw [hr] at apart
    · exact (ih ((untaken.tail apart).report _)).cons apart.other e.id
    · exact (ih (untaken.tail apart)).cons apart.other e.id

/-! ## Operations -/

/-- The pipeline has its two buffers: they are its read and its write buffer in some order, and are two targets on the
device that no pass has. -/
structure Paired (read write : Nat) (s : Staged Pipeline) : Prop where
  buffers : s.stage.buffers = some (read, write) ∨ s.stage.buffers = some (write, read)
  distinct : read ≠ write
  untaken : ∀ n ∈ [read, write], Untaken n s.stage.entries s.host

namespace Paired

/-- Where the buffers stay in place. -/
theorem change (paired : Paired read write s) (hb : t.stage.buffers = s.stage.buffers)
    (ht : ∀ n ∈ [read, write], Untaken n s.stage.entries s.host → Untaken n t.stage.entries t.host) :
    Paired read write t :=
  ⟨hb ▸ paired.buffers, paired.distinct, fun n hn => ht n hn (paired.untaken n hn)⟩

theorem exists_buffers (paired : Paired read write s) : ∃ first second, s.stage.buffers = some (first, second) ∧
    (first = read ∧ second = write ∨ first = write ∧ second = read) := by
  rcases paired.buffers with hb | hb
  · exact ⟨read, write, hb, .inl ⟨rfl, rfl⟩⟩
  · exact ⟨write, read, hb, .inr ⟨rfl, rfl⟩⟩

end Paired

theorem device_choosePrecision (requested : Precision) (h : Host) :
    (choosePrecision requested h).2.device = h.device := by
  unfold choosePrecision
  rw [Act.bind_of_ok (Act.get_apply h)]
  dsimp only
  cases requested.fallbacks.find? h.device.supports with
  | none => rfl
  | some chosen =>
    by_cases hc : chosen = requested
    · subst hc
      dsimp only
      rw [if_neg (by simp)]
      rfl
    · dsimp only
      rw [if_pos hc]
      rfl

/-- Two buffers that are made are two new targets. -/
theorem createBuffers_ok {options : PipelineOptions} {width height : Nat} (numbered : h.device.Numbered)
    (hc : createBuffers options width height h = (.ok (read, write), k)) :
    read ≠ write ∧ k.device.Numbered ∧ read ∈ k.device.targets.keys ∧ write ∈ k.device.targets.keys := by
  let spec (label : String) : TargetSpec :=
    ⟨label, width, height, options.precision, options.alpha, options.depthBuffer⟩
  unfold createBuffers at hc
  rw [Act.bind_apply] at hc
  rcases hr : Host.createTarget (spec "pipeline.read") h with ⟨e | first, l⟩ <;> rw [hr] at hc
  · cases hc
  · obtain ⟨numbered', hfirst, -⟩ := Host.createTarget_new hr numbered
    dsimp only at hc
    rw [Act.bind_of_ok (Act.attempt_apply _ l)] at hc
    rcases hw : Host.createTarget (spec "pipeline.write") l with ⟨e | second, m⟩ <;> rw [hw] at hc
    · cases hc
    · cases hc
      obtain ⟨numbered'', hsecond, hnew⟩ := Host.createTarget_new hw numbered'
      obtain ⟨hlive, hne⟩ := hnew read hfirst
      exact ⟨hne, numbered'', hlive, hsecond⟩

/-- The buffers of a new pipeline are new. -/
theorem paired_create {options : PipelineOptions} {p : Pipeline} (numbered : h.device.Numbered)
    (hc : create options h = (.ok p, k)) (hb : p.buffers = some (read, write)) : Paired read write ⟨p, k⟩ := by
  have hdevice := device_choosePrecision options.precision h
  unfold create at hc
  rw [Act.bind_apply] at hc
  rcases hp : choosePrecision options.precision h with ⟨e | precision, l⟩ <;> rw [hp] at hc hdevice
  · cases hc
  · have numbered' : l.device.Numbered := by rwa [show l.device = h.device from hdevice]
    dsimp only at hc
    rw [Act.bind_of_ok (Act.get_apply l), Act.bind_apply] at hc
    rcases hm : createBuffers { options with precision } l.device.outputSize.1 l.device.outputSize.2 l with
      ⟨e | ⟨first, second⟩, m⟩ <;> rw [hm] at hc
    · cases hc
    · cases hc
      cases hb
      obtain ⟨hne, numbered'', hread, hwrite⟩ := createBuffers_ok numbered' hm
      refine ⟨.inl rfl, hne, fun n hn => ?_⟩
      rcases List.mem_cons.1 hn with rfl | hn
      · exact ⟨numbered'', hread, fun e he => absurd he List.not_mem_nil⟩
      · rw [List.mem_singleton.1 hn]
        exact ⟨numbered'', hwrite, fun e he => absurd he List.not_mem_nil⟩

theorem paired_addPass {pass : Pass} (hpass : ∀ n ∈ [read, write], target? pass ≠ some n) (index : Option Nat)
    (paired : Paired read write s) : Paired read write (addPass pass index s).2 := by
  obtain ⟨first, second, hb, -⟩ := paired.exists_buffers
  have fitted (n : Nat) (hn : n ∈ [read, write]) :
      Apart n (fitOut s.stage.setup s.stage.size ⟨pass, s.host⟩).2 := by
    have untaken := paired.untaken n hn
    have act : Confined (Keeping (Apart n)) (fitOut s.stage.setup s.stage.size) :=
      .bind (Pass.apart_configure _) fun _ => Pass.apart_resize _ _
    exact act ⟨pass, s.host⟩ ⟨untaken.numbered, untaken.live, hpass n hn⟩
  rw [addPass_eq, hb]
  dsimp only
  rcases hf : fitOut s.stage.setup s.stage.size ⟨pass, s.host⟩ with ⟨e | _, t⟩ <;> rw [hf] at fitted
  · -- a pass that cannot be set up is disposed of, and only the host changes
    refine paired.change rfl fun n hn untaken => ?_
    have apart := Pass.apart_dispose t (fitted n hn)
    exact ⟨apart.numbered, apart.live, untaken.others⟩
  · refine paired.change rfl fun n hn untaken => ?_
    have apart := fitted n hn
    have added : Untaken n (⟨s.stage.nextPass, t.stage⟩ :: s.stage.entries) t.host :=
      Untaken.cons ⟨apart.numbered, apart.live, untaken.others⟩ apart.other _
    exact (added.mono fun e he => List.mem_cons.2 (List.eq_or_mem_of_mem_insertIdx he)).report _

theorem paired_removePass (id : Nat) (paired : Paired read write s) : Paired read write (removePass id s).2 := by
  unfold removePass
  rw [Act.bind_of_ok (get_apply s)]
  cases hp : s.stage.pass? id with
  | none => exact paired
  | some pass =>
    obtain ⟨e, he, rfl⟩ := Option.map_eq_some_iff.1 hp
    have hmem : e ∈ s.stage.entries := List.mem_of_find?_eq_some he
    have hrest (n : Nat) (untaken : Untaken n s.stage.entries s.host) :
        Untaken n (s.stage.entries.eraseP fun e => e.id == id) (Pass.dispose ⟨e.pass, s.host⟩).2.host := by
      have apart := Pass.apart_dispose ⟨e.pass, s.host⟩ ⟨untaken.numbered, untaken.live, untaken.others e hmem⟩
      exact ⟨apart.numbered, apart.live, fun e he => untaken.others e (List.eraseP_subset he)⟩
    dsimp only
    rw [Act.bind_of_ok (modify_apply _ s), Act.bind_apply, runOn]
    rcases hr : Pass.dispose ⟨e.pass, s.host⟩ with ⟨outcome, t⟩
    rw [hr] at hrest
    rcases outcome with err | _ | _
    · exact paired.change rfl fun n _ untaken => ((hrest n untaken).report _).report _
    · exact paired.change rfl fun n _ untaken => ((hrest n untaken).report _).report _
    · exact paired.change rfl fun n _ untaken => (hrest n untaken).report _

theorem paired_changePass (id : Nat) {f : Pass → Pass}
    (hf : ∀ n ∈ [read, write], ∀ p, target? p ≠ some n → target? (f p) ≠ some n)
    (paired : Paired read write s) : Paired read write ⟨s.stage.modifyPass id f, s.host⟩ := by
  refine paired.change rfl fun n hn untaken => ⟨untaken.numbered, untaken.live, fun e he => ?_⟩
  obtain ⟨e, hmem, rfl⟩ := List.mem_map.1 he
  by_cases hid : e.id = id
  · rw [if_pos hid]
    exact hf n hn e.pass (untaken.others e hmem)
  · rw [if_neg hid]
    exact untaken.others e hmem

theorem paired_onHost {α : Type} {x : Act Host α} (hx : ∀ n (h : Host), h.device.Spares n (x h).2.device) :
    Confined (Keeping (Paired read write)) (Staged.onHost x) := fun s paired =>
  paired.change rfl fun n _ untaken => untaken.onDevice (hx n s.host)

theorem paired_resize (width height : Nat) : Confined (Keeping (Paired read write)) (resize width height) := by
  have live : Confined (Keeping (Paired read write)) liveBuffers := by
    intro s
    rw [liveBuffers_apply]
    cases s.stage.buffers <;> exact id
  refine .bind live fun buffers => ?_
  obtain ⟨first, second⟩ := buffers
  refine .ite (.fail _) ?_
  refine .bind (paired_onHost fun n => Host.spares_issue _ _ (Device.steady_setOutputSize _ _).spares) fun _ => ?_
  refine .bind (paired_onHost fun n => Host.spares_issue _ _ (Device.steady_resizeTarget _ _ _).spares) fun _ => ?_
  refine .bind (paired_onHost fun n => Host.spares_issue _ _ (Device.steady_resizeTarget _ _ _).spares) fun _ => ?_
  refine .bind ?_ fun error => .bind ?_ fun _ => ?_
  · exact fun s paired => paired.change rfl fun n _ untaken => untaken_resizeEntries untaken
  · exact fun s paired => paired.change rfl fun n _ untaken => untaken.report _
  · cases error with
    | none => exact .pure ()
    | some e => exact .fail e

theorem paired_render (deltaTime : Binary32) : Confined (Keeping (Paired read write)) (render deltaTime) := by
  intro s paired
  obtain ⟨first, second, hb, hsame⟩ := paired.exists_buffers
  rw [render_eq, hb]
  dsimp only
  rcases hp : prepareEntries s.stage.entries s.host with ⟨e | _, ready, host⟩
  · exact paired.change rfl fun n _ untaken => (readies_of_prepareEntries hp).untaken untaken
  · have untaken (n : Nat) (hn : n ∈ [read, write]) : Untaken n ready host :=
      (readies_of_prepareEntries hp).untaken (paired.untaken n hn)
    dsimp only
    rcases hr : runEntries deltaTime (ready.any needsDepth) ready ⟨first, second, none, false⟩ host with
      ⟨e | f, entries, k⟩
    · exact ⟨paired.buffers, paired.distinct, fun n hn => (runs_of_runEntries hr).untaken (untaken n hn)⟩
    · have hf : Alternates ⟨first, second, none, false⟩ f := alternates_runEntries (congrArg Prod.fst hr)
      refine ⟨?_, paired.distinct, fun n hn => (runs_of_runEntries hr).untaken (untaken n hn)⟩
      show some (f.read, f.write) = _ ∨ some (f.read, f.write) = _
      rcases hf with ⟨hread, hwrite⟩ | ⟨hread, hwrite⟩ <;> rw [hread, hwrite] <;>
        rcases hsame with ⟨rfl, rfl⟩ | ⟨rfl, rfl⟩
      · exact .inl rfl
      · exact .inr rfl
      · exact .inr rfl
      · exact .inl rfl

/-! ## Life -/

/-- What happens to a pipeline from when it is made with two buffers: passes that do not have these are added, passes
are removed and changed in ways that do not give them one, the size changes and frames run, all with failures or
without, and its device is used in any other way in which the two buffers stay there. -/
inductive Life (read write : Nat) : Staged Pipeline → Prop where
  | create {options : PipelineOptions} {h k : Host} {p : Pipeline} : h.device.Numbered →
      create options h = (.ok p, k) → p.buffers = some (read, write) → Life read write ⟨p, k⟩
  | addPass {s : Staged Pipeline} (pass : Pass) (index : Option Nat) : (∀ n ∈ [read, write], target? pass ≠ some n) →
      Life read write s → Life read write (addPass pass index s).2
  | removePass {s : Staged Pipeline} (id : Nat) : Life read write s → Life read write (removePass id s).2
  | changePass {s : Staged Pipeline} (id : Nat) {f : Pass → Pass} :
      (∀ n ∈ [read, write], ∀ p, target? p ≠ some n → target? (f p) ≠ some n) →
      Life read write s → Life read write ⟨s.stage.modifyPass id f, s.host⟩
  | resize {s : Staged Pipeline} (width height : Nat) : Life read write s →
      Life read write (resize width height s).2
  | render {s : Staged Pipeline} (deltaTime : Binary32) : Life read write s → Life read write (render deltaTime s).2
  | useHost {s : Staged Pipeline} {k : Host} : k.device.Numbered → (∀ n ∈ [read, write], n ∈ k.device.targets.keys) →
      Life read write s → Life read write { s with host := k }

/-- A pipeline has its two buffers all its life. -/
theorem Life.paired (life : Life read write s) : Paired read write s := by
  induction life with
  | create numbered hc hb => exact paired_create numbered hc hb
  | addPass pass index hpass _ ih => exact paired_addPass hpass index ih
  | removePass id _ ih => exact paired_removePass id ih
  | changePass id hf _ ih => exact paired_changePass id hf ih
  | resize width height _ ih => exact paired_resize width height _ ih
  | render deltaTime _ ih => exact paired_render deltaTime _ ih
  | useHost numbered live _ ih =>
    exact ih.change rfl fun n hn untaken => ⟨numbered, live n hn, untaken.others⟩

end Pipeline

end ScreenFusion
