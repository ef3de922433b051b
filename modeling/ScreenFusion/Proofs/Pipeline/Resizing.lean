import ScreenFusion.Proofs.Pass.Resizing
import ScreenFusion.Proofs.Pipeline.Targets

/-!
# ScreenFusion.Proofs.Pipeline.Resizing — a new size reaches everyone

A pipeline that is told a size gives it to the screen and to its two buffers, and tells it to every pass, also after
one that has failed.  Since no target is held twice, what one pass does to its target leaves those of the others, and so
each target that the device still has gets the size that its pass wants.  The passes whose targets are lost fail; they
are the only ones that ask for a size when the pipeline is told the same size again.

* `Pipeline.fittings`, `Pipeline.resizeEntries_outcome`: all passes are told a size.
* `Pipeline.Resized`, `Pipeline.resize_outcome`: what becomes of a pipeline.
* `Pipeline.resize_reaches_all`: the size is reached, and who is asked again.
-/

namespace ScreenFusion

open Holder Staged

namespace Pipeline

variable {e e' : PipelineEntry} {es es' : List PipelineEntry} {h k : Host} {s t : Staged Pipeline} {d : Device}

/-! ## All passes are told -/

theorem elim_eq_ok {o : Option Error} (h : o.elim (.ok ()) .error = (.ok () : Except Error Unit)) : o = none := by
  cases o with
  | none => rfl
  | some e => cases h

theorem elim_eq_error {o : Option Error} {e : Error} (h : o.elim (.ok ()) .error = (.error e : Except Error Unit)) :
    o = some e := by
  cases o with
  | none => cases h
  | some e => exact congrArg some (Except.error.inj h)

section Told

variable {width height : UInt32}

/-- The targets of passes and the sizes that the passes want them to have. -/
def fittings (width height : UInt32) (es : List PipelineEntry) : List Fitting :=
  es.filterMap fun e => e.pass.fitting? width height

theorem fittings_cons (width height : UInt32) (e : PipelineEntry) (es : List PipelineEntry) :
    fittings width height (e :: es) = (e.pass.fitting? width height).toList ++ fittings width height es := by
  unfold fittings
  rw [List.filterMap_cons]
  cases e.pass.fitting? width height <;> rfl

theorem map_target_fittings (width height : UInt32) (es : List PipelineEntry) :
    (fittings width height es).map Fitting.target = es.filterMap fun e => target? e.pass := by
  unfold fittings
  rw [List.map_filterMap]
  exact List.filterMap_congr fun e _ => (Pass.target?_eq_fitting? width height e.pass).symm

/-- The second entry is the first after its pass has been told a size. -/
structure Told (width height : UInt32) (d : Device) (e e' : PipelineEntry) : Prop where
  id : e'.id = e.id
  pass : e.pass.Told width height d e'.pass

/-- Passes that have been told a size want the same when they are told it again. -/
theorem fittings_eq_of_told (told : List.Forall₂ (Told width height d) es es') :
    fittings width height es' = fittings width height es := by
  induction told with
  | nil => rfl
  | cons told _ ih => rw [fittings_cons, fittings_cons, told.pass.fitting?_eq, ih]

/-- What becomes of passes that are told a size one after the other.  Since their targets are different ones, each finds
its target as it was at the start. -/
theorem resizeEntries_outcome (width height : UInt32) (ha : h.armed = [])
    (hn : ((fittings width height es).map Fitting.target).Nodup)
    (agree : ∀ f ∈ fittings width height es, h.device.targetSize? f.target = d.targetSize? f.target) :
    let fs := fittings width height es
    let r := resizeEntries width.toNat height.toNat es h
    List.Forall₂ (Told width height d) es r.1 ∧ r.2.1 = Fitting.fault? d fs ∧
      h.Fitted fs (fs.filterMap (Fitting.call? d)) r.2.2 := by
  induction es generalizing h with
  | nil => exact ⟨.nil, rfl, .of_unchanged ha fun f hf => absurd hf List.not_mem_nil⟩
  | cons e es ih =>
    dsimp only
    rw [fittings_cons] at hn agree ⊢
    rw [List.map_append, List.nodup_append] at hn
    obtain ⟨-, hrest, hne⟩ := hn
    have hne : ∀ f ∈ (e.pass.fitting? width height).toList, ∀ g ∈ fittings width height es, f.target ≠ g.target :=
      fun f hf g hg => hne _ (List.mem_map_of_mem hf) _ (List.mem_map_of_mem hg)
    have hown : ∀ f, e.pass.fitting? width height = some f → h.device.targetSize? f.target = d.targetSize? f.target :=
      fun f hf => agree f (List.mem_append_left _ (Option.mem_toList.2 hf))
    obtain ⟨told, fitted, hout⟩ := Pass.resize_outcome ha e.pass width height
    have told := told.congr fun f hf => (hown f hf).symm
    have hfault := Fitting.fault?_congr fun f hf => Fitting.isLost_congr (hown f (Option.mem_toList.1 hf))
    have hcalls : (e.pass.fitting? width height).toList.filterMap (Fitting.call? h.device) =
        (e.pass.fitting? width height).toList.filterMap (Fitting.call? d) :=
      List.filterMap_congr fun f hf => Fitting.call?_congr (hown f (Option.mem_toList.1 hf))
    rw [hfault] at hout
    rw [hcalls] at fitted
    have hothers : ∀ f ∈ fittings width height es, h.device.targetSize? f.target = d.targetSize? f.target :=
      fun f hf => agree f (List.mem_append_right _ hf)
    -- whether or not this pass fails, the others find their targets as they are on `d`
    rw [resizeEntries, List.filterMap_append, Fitting.fault?_append]
    rcases hr : Pass.resize width.toNat height.toNat ⟨e.pass, h⟩ with ⟨err | _, t⟩ <;> rw [hr] at told fitted hout
    · have fitted := fitted.report [.resizeFailed t.stage.name width.toNat height.toNat err]
      obtain ⟨htold, -, hfitted⟩ := ih fitted.armed hrest fun f hf =>
        (fitted.elsewhere fun g hg => hne g hg f hf).trans (hothers f hf)
      refine ⟨.cons ⟨rfl, told⟩ htold, ?_, fitted.append hfitted hne⟩
      rw [elim_eq_error hout.symm]
      rfl
    · obtain ⟨htold, herror, hfitted⟩ := ih fitted.armed hrest fun f hf =>
        (fitted.elsewhere fun g hg => hne g hg f hf).trans (hothers f hf)
      refine ⟨.cons ⟨rfl, told⟩ htold, ?_, fitted.append hfitted hne⟩
      rw [elim_eq_ok hout.symm]
      exact herror

/-! ## The whole pipeline -/

theorem resize_of_zero {buffers : Nat × Nat} (hb : s.stage.buffers = some buffers) (h0 : width = 0 ∨ height = 0) :
    resize width.toNat height.toNat s = (.error (.resource (.pipelineSize width.toNat height.toNat)), s) := by
  have h0 : width.toNat = 0 ∨ height.toNat = 0 := h0.imp (congrArg UInt32.toNat) (congrArg UInt32.toNat)
  unfold resize
  rw [Act.bind_apply, liveBuffers_apply, hb]
  dsimp only
  rw [if_pos h0]
  rfl

theorem resize_of_ok {read write width height : Nat} {k₁ k₂ k₃ : Host} (hb : s.stage.buffers = some (read, write))
    (h0 : ¬(width = 0 ∨ height = 0)) (h₁ : Host.setOutputSize width height s.host = (.ok (), k₁))
    (h₂ : Host.resizeTarget read width height k₁ = (.ok (), k₂))
    (h₃ : Host.resizeTarget write width height k₂ = (.ok (), k₃)) :
    resize width height s =
      let r := resizeEntries width height s.stage.entries k₃
      (r.2.1.elim (.ok ()) .error,
        ⟨{ s.stage with size := (width, height), entries := r.1 }, r.2.2.report [.pipelineResized width height]⟩) := by
  have done {h k : Host} {x : Act Host Unit} (hx : x h = (.ok (), k)) (p : Pipeline) :
      Staged.onHost x ⟨p, h⟩ = (.ok (), ⟨p, k⟩) := by rw [onHost_apply, hx]
  unfold resize
  rw [Act.bind_apply, liveBuffers_apply, hb]
  dsimp only
  rw [if_neg h0, Act.bind_of_ok (done h₁ s.stage), Act.bind_of_ok (done h₂ s.stage), Act.bind_of_ok (done h₃ s.stage)]
  let r := resizeEntries width height s.stage.entries k₃
  let tell : Act (Staged Pipeline) (Option Error) := fun s =>
    let r := resizeEntries width height s.stage.entries s.host
    (.ok r.2.1, ⟨{ s.stage with size := (width, height), entries := r.1 }, r.2.2⟩)
  have told : tell ⟨s.stage, k₃⟩ =
      (.ok r.2.1, ⟨{ s.stage with size := (width, height), entries := r.1 }, r.2.2⟩) := rfl
  refine (Act.bind_of_ok told).trans ?_
  rw [Act.bind_of_ok (report_apply _ _)]
  cases r.2.1 <;> rfl

/-- The calls that give the screen and the two buffers a size. -/
def sizeCalls (read write : Nat) (size : Nat × Nat) : List Call :=
  [⟨.setOutputSize size.1 size.2, .done⟩, ⟨.resizeTarget read size.1 size.2, .done⟩,
    ⟨.resizeTarget write size.1 size.2, .done⟩]

/-- A pipeline that was told a size: the screen, the buffers and the pipeline have it, every pass has been told, and
each target that the device has has the size that its pass wants. -/
structure Resized (width height : UInt32) (read write : Nat) (s : Staged Pipeline) (r : Except Error Unit)
    (t : Staged Pipeline) : Prop where
  outcome : r = (Fitting.fault? s.host.device (fittings width height s.stage.entries)).elim (.ok ()) .error
  size : t.stage.size = (width.toNat, height.toNat)
  screen : t.host.device.outputSize = (width.toNat, height.toNat)
  buffers : t.stage.buffers = some (read, write)
  bufferSizes : ∀ n ∈ [read, write], t.host.device.targetSize? n = some (width.toNat, height.toNat)
  passes : List.Forall₂ (Told width height s.host.device) s.stage.entries t.stage.entries
  targets : ∀ f ∈ fittings width height s.stage.entries,
    t.host.device.targetSize? f.target = (s.host.device.targetSize? f.target).map fun _ => f.size
  armed : t.host.armed = []
  issued : s.host.issuedSince t.host = sizeCalls read write (width.toNat, height.toNat) ++
    (fittings width height s.stage.entries).filterMap (Fitting.call? s.host.device)

/-- A buffer that is there gets a size. -/
theorem fitted_buffer {n : Nat} {size : Nat × Nat} (ha : h.armed = []) (hn : (h.device.targetSize? n).isSome = true)
    (hw : 0 < size.1) (hh : 0 < size.2) : ∃ k, Host.resizeTarget n size.1 size.2 h = (.ok (), k) ∧
      h.Fitted [⟨n, size⟩] [⟨.resizeTarget n size.1 size.2, .done⟩] k := by
  have hlost : Fitting.isLost h.device ⟨n, size⟩ = false := by
    rw [Fitting.isLost, Option.isNone_eq_false_iff]
    exact hn
  obtain ⟨hout, fitted⟩ := Host.fitted_resizeTarget ha ⟨n, size⟩ hw hh
  rw [Fitting.call, hlost] at fitted
  rw [Fitting.fault?, List.find?_singleton, hlost] at hout
  exact ⟨_, Prod.ext hout rfl, fitted⟩

/-- The screen and two buffers that are there get a size. -/
theorem fitted_buffers {read write : Nat} {size : Nat × Nat} (ha : h.armed = []) (hne : read ≠ write)
    (hread : (h.device.targetSize? read).isSome = true) (hwrite : (h.device.targetSize? write).isSome = true)
    (hw : 0 < size.1) (hh : 0 < size.2) : ∃ k₁ k₂ k₃, Host.setOutputSize size.1 size.2 h = (.ok (), k₁) ∧
      Host.resizeTarget read size.1 size.2 k₁ = (.ok (), k₂) ∧
      Host.resizeTarget write size.1 size.2 k₂ = (.ok (), k₃) ∧ k₃.armed = [] ∧ k₃.device.outputSize = size ∧
      (∀ n ∈ [read, write], k₃.device.targetSize? n = some size) ∧
      (∀ n ∉ [read, write], k₃.device.targetSize? n = h.device.targetSize? n) ∧
      ∃ events, h.Advanced (sizeCalls read write size) events k₃ := by
  obtain ⟨k₁, h₁, armed₁, screen, same, adv₁⟩ := Host.setOutputSize_outcome ha hw hh
  obtain ⟨k₂, h₂, fitted₂⟩ := fitted_buffer (n := read) armed₁ (by rw [same]; exact hread) hw hh
  have hwrite₂ : k₂.device.targetSize? write = h.device.targetSize? write := by
    rw [← same]
    exact fitted₂.others write fun hin => hne (List.mem_singleton.1 hin).symm
  obtain ⟨k₃, h₃, fitted₃⟩ := fitted_buffer (n := write) fitted₂.armed (by rw [hwrite₂]; exact hwrite) hw hh
  -- the second buffer is another target, so that the first keeps its new size
  have pair := fitted₂.append fitted₃ fun f hf g hg => by
    rw [List.mem_singleton.1 hf, List.mem_singleton.1 hg]
    exact hne
  obtain ⟨events, adv⟩ := pair.advanced
  have hsize (n : Nat) (hmem : (⟨n, size⟩ : Fitting) ∈ [(⟨read, size⟩ : Fitting), ⟨write, size⟩])
      (hlive : (h.device.targetSize? n).isSome = true) : k₃.device.targetSize? n = some size := by
    obtain ⟨old, hold⟩ := Option.isSome_iff_exists.1 hlive
    rw [pair.own ⟨n, size⟩ hmem, same, hold]
    rfl
  refine ⟨k₁, k₂, k₃, h₁, h₂, h₃, pair.armed, pair.outputSize.trans screen, fun n hn => ?_, fun n hn => ?_, _,
    adv₁.trans adv⟩
  · rcases List.mem_cons.1 hn with rfl | hn
    · exact hsize n List.mem_cons_self hread
    · rw [List.mem_singleton.1 hn]
      exact hsize write (List.mem_cons_of_mem _ List.mem_cons_self) hwrite
  · rw [pair.others n hn, same]

theorem resize_outcome {read write : Nat} (nodup : s.stage.targets.Nodup) (ha : s.host.armed = [])
    (hb : s.stage.buffers = some (read, write)) (hread : (s.host.device.targetSize? read).isSome = true)
    (hwrite : (s.host.device.targetSize? write).isSome = true) (hw : width ≠ 0) (hh : height ≠ 0) :
    let r := resize width.toNat height.toNat s
    Resized width height read write s r.1 r.2 := by
  let size : Nat × Nat := (width.toNat, height.toNat)
  let fs := fittings width height s.stage.entries
  have hw : 0 < size.1 := Nat.pos_of_ne_zero fun h0 => hw (UInt32.toNat_inj.1 h0)
  have hh : 0 < size.2 := Nat.pos_of_ne_zero fun h0 => hh (UInt32.toNat_inj.1 h0)
  have h0 : ¬(size.1 = 0 ∨ size.2 = 0) := not_or.2 ⟨Nat.ne_of_gt hw, Nat.ne_of_gt hh⟩
  have htargets : s.stage.targets = [read, write] ++ fs.map Fitting.target := by
    unfold targets
    rw [hb, ← map_target_fittings width height]
    rfl
  rw [htargets, List.nodup_append] at nodup
  obtain ⟨hpair, nodup, hapart⟩ := nodup
  have hne : read ≠ write := fun hsame => (List.nodup_cons.1 hpair).1 (hsame ▸ List.mem_cons_self)
  obtain ⟨k₁, k₂, k₃, h₁, h₂, h₃, armed, screen, hbuffers, hothers, events, adv⟩ :=
    fitted_buffers ha hne hread hwrite hw hh
  obtain ⟨told, herror, fitted⟩ := resizeEntries_outcome width height armed nodup
    fun f hf => hothers f.target fun hin => hapart _ hin _ (List.mem_map_of_mem hf) rfl
  have reported := fitted.report [.pipelineResized width.toNat height.toNat]
  obtain ⟨events', adv'⟩ := reported.advanced
  have hresize := resize_of_ok hb h0 h₁ h₂ h₃
  dsimp only
  rw [hresize]
  have houtcome := congrArg (fun error : Option Error => (error.elim (.ok ()) .error : Except Error Unit)) herror
  refine ⟨houtcome, rfl, reported.outputSize.trans screen, hb, fun n hn => ?_, told, fun f hf => ?_, reported.armed,
    (adv.trans adv').issuedSince_eq⟩
  · have hnot : n ∉ fs.map Fitting.target := fun hin => hapart n hn n hin rfl
    exact (reported.others n hnot).trans (hbuffers n hn)
  · have hnot : f.target ∉ [read, write] := fun hin => hapart _ hin _ (List.mem_map_of_mem hf) rfl
    have hown := reported.own f hf
    rw [hothers f.target hnot] at hown
    exact hown

/-- A size that a pipeline has been told already: only those ask for it whose targets are lost, and they fail again. -/
theorem Resized.again {read write : Nat} {r : Except Error Unit} (resized : Resized width height read write s r t)
    (nodup : t.stage.targets.Nodup) (hw : width ≠ 0) (hh : height ≠ 0) :
    let fs := fittings width height s.stage.entries
    let again := resize width.toNat height.toNat t
    again.1 = r ∧ t.host.issuedSince again.2.host = sizeCalls read write (width.toNat, height.toNat) ++
      (fs.filter (Fitting.isLost s.host.device)).map (Fitting.call s.host.device) := by
  have hlive (n : Nat) (hn : n ∈ [read, write]) : (t.host.device.targetSize? n).isSome = true := by
    rw [resized.bufferSizes n hn]
    rfl
  have retold := resize_outcome nodup resized.armed resized.buffers (hlive read List.mem_cons_self)
    (hlive write (List.mem_cons_of_mem _ List.mem_cons_self)) hw hh
  have hfs := fittings_eq_of_told resized.passes
  have hlost : ∀ f ∈ fittings width height s.stage.entries,
      Fitting.isLost t.host.device f = Fitting.isLost s.host.device f := by
    intro f hf
    rw [Fitting.isLost, resized.targets f hf, Option.isNone_map]
    rfl
  dsimp only
  rw [retold.outcome, retold.issued, hfs, Fitting.fault?_congr hlost]
  refine ⟨resized.outcome.symm, congrArg (sizeCalls read write (width.toNat, height.toNat) ++ ·) ?_⟩
  -- a target that is not lost has its size by now, and so nothing is asked for it
  rw [← List.filterMap_eq_map, List.filterMap_filter]
  refine List.filterMap_congr fun f hf => ?_
  rw [Fitting.call?, resized.targets f hf, Fitting.call, hlost f hf]
  cases hsize : s.host.device.targetSize? f.target with
  | none =>
    have hnone : Fitting.isLost s.host.device f = true := by rw [Fitting.isLost, hsize]; rfl
    rw [hnone, if_pos rfl, Function.comp_apply, Fitting.call, hnone]
    rfl
  | some old =>
    have hsome : Fitting.isLost s.host.device f = false := by rw [Fitting.isLost, hsize]; rfl
    rw [hsome]
    exact (if_pos rfl).trans (if_neg Bool.false_ne_true).symm

/-- A size reaches everyone.  Whatever has happened to a pipeline with its two buffers, whatever its passes are and
whichever of their targets are lost: a size that is not empty is then that of the pipeline, the screen and the buffers.
Every pass has been told it, also after one that failed; a depth pass has it as the base of its resolution, and its
target, if the device has it, has the size that follows.  A pass fails if its target is lost; the first failure is the
outcome.  Told the same again, those that failed ask for their sizes again, and only they.  An empty size is refused and
changes nothing. -/
theorem resize_reaches_all {read write : Nat} (lossy : Lossy s) (ha : s.host.armed = [])
    (hb : s.stage.buffers = some (read, write)) (hread : (s.host.device.targetSize? read).isSome = true)
    (hwrite : (s.host.device.targetSize? write).isSome = true) (width height : UInt32) :
    let first := resize width.toNat height.toNat s
    let again := resize width.toNat height.toNat first.2
    let size := (width.toNat, height.toNat)
    let d := s.host.device
    let d' := first.2.host.device
    let fs := fittings width height s.stage.entries
    (width = 0 ∨ height = 0 → first = (.error (.resource (.pipelineSize size.1 size.2)), s)) ∧
    (width ≠ 0 → height ≠ 0 →
      (first.2.stage.size = size ∧ d'.outputSize = size ∧ first.2.stage.buffers = some (read, write) ∧
        d'.targetSize? read = some size ∧ d'.targetSize? write = some size) ∧
      List.Forall₂ (Told width height d) s.stage.entries first.2.stage.entries ∧
      (∀ e ∈ first.2.stage.entries, ∀ q n, e.pass = .depth q → q.target = some n →
        d'.targetSize? n = (d.targetSize? n).map fun _ => q.size) ∧
      (∀ e ∈ s.stage.entries, (Pass.resize size.1 size.2 ⟨e.pass, s.host⟩).1 =
        (Fitting.fault? d (e.pass.fitting? width height).toList).elim (.ok ()) .error) ∧
      first.1 = (Fitting.fault? d fs).elim (.ok ()) .error ∧ again.1 = first.1 ∧
      s.host.issuedSince first.2.host = sizeCalls read write size ++ fs.filterMap (Fitting.call? d) ∧
      first.2.host.issuedSince again.2.host =
        sizeCalls read write size ++ (fs.filter (Fitting.isLost d)).map (Fitting.call d)) := by
  intro first again size d d' fs
  refine ⟨resize_of_zero hb, fun hw hh => ?_⟩
  have resized : Resized width height read write s first.1 first.2 :=
    resize_outcome lossy.distinct.nodup ha hb hread hwrite hw hh
  obtain ⟨hagain, hissued⟩ := resized.again (Lossy.resize _ _ lossy).distinct.nodup hw hh
  refine ⟨⟨resized.size, resized.screen, resized.buffers, resized.bufferSizes _ List.mem_cons_self,
    resized.bufferSizes _ (List.mem_cons_of_mem _ List.mem_cons_self)⟩, resized.passes, fun e' he' q n hq hn => ?_,
    fun e _ => (Pass.resize_outcome ha e.pass width height).2.2, resized.outcome, hagain, resized.issued, hissued⟩
  obtain ⟨e, -, told⟩ := exists_mem_of_forall₂ (R := fun e' e => Told width height d e e') resized.passes.flip he'
  have hpass : e.pass.Told width height d (.depth q) := hq ▸ told.pass
  have hfitting : e'.pass.fitting? width height = some ⟨n, q.size⟩ := by
    rw [hq, ← hpass.sizeFor_eq, Pass.fitting?, DepthPass.fitting?, hn]
    rfl
  have hmem : (⟨n, q.size⟩ : Fitting) ∈ fittings width height s.stage.entries := by
    rw [← fittings_eq_of_told resized.passes]
    exact List.mem_filterMap.2 ⟨e', he', hfitting⟩
  exact resized.targets _ hmem

/-- A depth pass whose buffer has a size of its own. -/
def sizedPass (width height : UInt32) : Pass :=
  let p := DepthPass.create 1
  .depth { p with resolution := (p.resolution.setPreferred (some width) (some height)).2 }

/-- Of two depth passes, the second has lost its target. -/
def bereaved : Staged Pipeline :=
  let s := withPasses [sizedPass 8 5, sizedPass 4 4]
  { s with host := (s.host.releaseTarget 4).2 }

/-- The pass that has lost its target fails and is the one that asks again; the other has its target at its own size. -/
theorem resize_reaches_all_bereaved :
    let first := resize 16 10 bereaved
    let again := resize 16 10 first.2
    first.1 = .error (.resource (.unknownTarget 4)) ∧ first.2.stage.size = (16, 10) ∧
      first.2.host.device.targetSize? 3 = some (8, 5) ∧ again.1 = first.1 ∧
      first.2.host.issuedSince again.2.host = sizeCalls 1 2 (16, 10) ++ [⟨.resizeTarget 4 4 4, .failed⟩] := by
  have lossy : Lossy bereaved := by
    refine .useHost ?_ (lossy_withPasses ?_)
    · decide +kernel
    · simp only [List.forall_mem_cons]
      exact ⟨rfl, rfl, List.forall_mem_nil _⟩
  have hbuffers : bereaved.stage.buffers = some (1, 2) := by decide +kernel
  have reached :=
    resize_reaches_all lossy (by decide +kernel) hbuffers (by decide +kernel) (by decide +kernel) 16 10
  obtain ⟨⟨hsize, -⟩, -, htargets, -, hfirst, hagain, -, hissued⟩ := reached.2 (by decide) (by decide)
  have hfault : Fitting.fault? bereaved.host.device (fittings 16 10 bereaved.stage.entries) =
      some (.resource (.unknownTarget 4)) := by decide +kernel
  have hlost : ((fittings 16 10 bereaved.stage.entries).filter (Fitting.isLost bereaved.host.device)).map
      (Fitting.call bereaved.host.device) = [⟨.resizeTarget 4 4 4, .failed⟩] := by decide +kernel
  rw [hfault] at hfirst
  rw [hlost] at hissued
  refine ⟨hfirst, hsize, ?_, hagain, hissued⟩
  decide +kernel

end Told

end Pipeline

end ScreenFusion
