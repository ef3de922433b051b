import ScreenFusion.Proofs.Pipeline.HandOff

/-!
# ScreenFusion.Proofs.Pipeline.DepthOnce — the depth of a frame

A frame renders depth if an enabled pass reads it and there is an enabled depth pass.  The first enabled depth pass does
that, once; the passes before it get no depth, and those after it get its target.

* `producesDepth`: the passes that can render depth.
* `Plays.of_idle`, `Plays.split_at_depth`: turns without depth, and turns around the one that renders it.
* `Supplies`, `depth_once_of_render_ok`: the depth of a frame.
-/

namespace ScreenFusion

open Staged

/-! ## Passes that have been made ready -/

namespace Pass.Rebuilt

variable {p q : Pass}

theorem isDepthProducer_eq (r : p.Rebuilt q) : q.isDepthProducer = p.isDepthProducer := by
  cases r <;> rfl

theorem attributes_eq (r : p.Rebuilt q) : q.attributes = p.attributes := by
  cases r with
  | same p => rfl
  | effect p compiled programVersion =>
    show (p.effects.map Effect.acknowledge).foldl _ _ = p.effects.foldl _ _
    rw [List.foldl_map]
    rfl
  | material p c => rfl

end Pass.Rebuilt

namespace Pipeline

variable {deltaTime : Binary32} {depthNeeded : Bool} {f f' : FrameState} {p : Pass} {h k : Host}
  {e e' : PipelineEntry} {es es' : List PipelineEntry} {turns : List Turn}

/-- Whether a pass takes part in the frame and can fill its depth. -/
def producesDepth (e : PipelineEntry) : Bool := e.pass.isEnabled && e.pass.isDepthProducer

theorem MadeReady.needsDepth_eq (m : MadeReady e e') : needsDepth e' = needsDepth e := by
  cases m with
  | disabled _ => rfl
  | ready _ rebuilt _ =>
    unfold needsDepth Pass.isEnabled
    rw [rebuilt.settings_eq, rebuilt.attributes_eq]

theorem MadeReady.producesDepth_eq (m : MadeReady e e') : producesDepth e' = producesDepth e := by
  cases m with
  | disabled _ => rfl
  | ready _ rebuilt _ =>
    unfold producesDepth Pass.isEnabled
    rw [rebuilt.settings_eq, rebuilt.isDepthProducer_eq]

theorem any_of_madeReady {query : PipelineEntry → Bool} (hq : ∀ e e', MadeReady e e' → query e' = query e)
    (made : List.Forall₂ MadeReady es es') : es'.any query = es.any query := by
  have hmap := map_of_madeReady hq made
  have hany := congrArg (List.any · id) hmap
  rwa [List.any_map, List.any_map] at hany

/-! ## Turns and depth -/

@[simp] theorem depth_handOn (p : Pass) (terminal : Bool) (f : FrameState) : (handOn p terminal f).depth = f.depth := by
  unfold handOn
  split <;> rfl

@[simp] theorem depthRendered_handOn (p : Pass) (terminal : Bool) (f : FrameState) :
    (handOn p terminal f).depthRendered = f.depthRendered := by
  unfold handOn
  split <;> rfl

/-- If no depth is needed, or it is there, or no pass can render it, then no pass renders depth, and all get what is
there. -/
theorem Plays.of_idle (plays : Plays deltaTime depthNeeded es f h turns f' k)
    (idle : depthNeeded = false ∨ f.depthRendered = true ∨ es.any producesDepth = false) :
    ∀ u ∈ turns, u.pass.presents = true ∧ u.io.depth = f.depth := by
  induction plays with
  | nil => exact fun u hu => absurd hu List.not_mem_nil
  | skip _ _ ih =>
    refine ih (idle.imp_right (Or.imp_right fun hno => ?_))
    rw [List.any_cons, Bool.or_eq_false_iff] at hno
    exact hno.2
  | depth he hd hneeded hfirst _ _ _ =>
    -- a turn of a depth pass goes against all three
    rw [hneeded, hfirst, List.any_cons, producesDepth, he, hd] at idle
    simp at idle
  | color _ hd _ _ ih =>
    intro u hu
    rcases List.mem_cons.1 hu with rfl | hu
    · exact ⟨by simp [Pass.presents, hd], rfl⟩
    · obtain ⟨hp, hdepth⟩ := ih (by simpa [producesDepth, hd] using idle) u hu
      exact ⟨hp, hdepth.trans (depth_handOn _ _ _)⟩

/-- A turn of a pass that renders depth, with the turns before it, and the point of the frame after it. -/
structure Renders (deltaTime : Binary32) (f : FrameState) (p : Pass) (before : List Turn) (t : Turn) (f₁ : FrameState) :
    Prop where
  pass : t.pass = p
  rendered : t.Rendered deltaTime
  earlier : ∀ u ∈ before, u.pass.presents = true ∧ u.io.depth = f.depth
  buffers : Alternates f f₁
  depth : f₁.depth = t.finish.stage.depthOutput
  depthRendered : f₁.depthRendered = true

/-- If depth is needed and not there, the first pass that can renders it.  Those before it get what is there. -/
theorem Plays.split_at_depth {es₁ es₂ : List PipelineEntry} (plays : Plays deltaTime depthNeeded es f h turns f' k)
    (hes : es = es₁ ++ e :: es₂) (hneeded : depthNeeded = true) (hfirst : f.depthRendered = false)
    (hno : es₁.any producesDepth = false) (he : producesDepth e = true) :
    ∃ before t after f₁ events, turns = before ++ t :: after ∧ Renders deltaTime f e.pass before t f₁ ∧
      before.map (·.pass) = (es₁.filter isPresenter).map (·.pass) ∧
      Plays deltaTime depthNeeded es₂ f₁ (t.finish.host.report events) after f' k := by
  obtain ⟨henabled, hdepth⟩ := Bool.and_eq_true_iff.1 he
  -- on the passes before `e`, none of which can render depth; it is not there yet when `e` has its turn
  induction plays generalizing es₁ with
  | nil => simp at hes
  | skip hskip _ ih =>
    cases es₁ with
    | nil =>
      cases hes
      rcases hskip with hd | ⟨-, hd | hd⟩
      · simp [hd] at henabled
      · simp [hd] at hneeded
      · simp [hd] at hfirst
    | cons e₁ es₁ =>
      cases hes
      rw [List.any_cons, Bool.or_eq_false_iff] at hno
      rw [List.filter_cons_of_neg (by simp [hskip.isPresenter_eq_false])]
      exact ih rfl hfirst hno.2
  | @depth _ _ f _ _ _ _ s _ he' hd _ _ hr plays _ =>
    cases es₁ with
    | nil =>
      cases hes
      let f₁ : FrameState := { f with depth := s.stage.depthOutput, depthRendered := true }
      refine ⟨[], _, _, f₁, _, rfl, ⟨rfl, hr, ?_, .inl ⟨rfl, rfl⟩, rfl, rfl⟩, rfl, plays⟩
      exact fun u hu => absurd hu List.not_mem_nil
    | cons e₁ es₁ =>
      cases hes
      simp [producesDepth, he', hd] at hno
  | @color _ es f _ _ _ _ _ _ _ he' hd hr _ ih =>
    cases es₁ with
    | nil =>
      cases hes
      rw [hd] at hdepth
      cases hdepth
    | cons e₁ es₁ =>
      cases hes
      rw [List.any_cons, Bool.or_eq_false_iff] at hno
      obtain ⟨before, t, after, f₁, events, hturns, renders, hpasses, plays⟩ :=
        ih rfl ((depthRendered_handOn _ _ _).trans hfirst) hno.2
      refine ⟨_ :: before, t, after, f₁, events, congrArg _ hturns,
        ⟨renders.pass, renders.rendered, ?_, ?_, renders.depth, renders.depthRendered⟩, ?_, plays⟩
      · refine List.forall_mem_cons.2 ⟨⟨by simp [Pass.presents, hd], rfl⟩, fun u hu => ?_⟩
        obtain ⟨hp, hdepth⟩ := renders.earlier u hu
        exact ⟨hp, hdepth.trans (depth_handOn _ _ _)⟩
      · exact (alternates_handOn _ _ _).trans renders.buffers
      · rw [List.filter_cons_of_pos, List.map_cons, List.map_cons, hpasses]
        simp [isPresenter, Pass.presents, he', hd]

/-! ## Depth in a buffer -/

theorem destination_colorIo (hd : p.isDepthProducer = false) (terminal : Bool) (f : FrameState) :
    p.destination (colorIo terminal f) = none ∨ p.destination (colorIo terminal f) = some f.read ∨
      p.destination (colorIo terminal f) = some f.write := by
  cases terminal with
  | true =>
    cases p with
    | depth p => cases hd
    | _ => exact .inl rfl
  | false =>
    cases p with
    | depth p => cases hd
    | clear p => exact .inr (.inl rfl)
    | scene p => exact .inr (.inl rfl)
    | material p => exact .inr (.inr rfl)
    | effect p => exact .inr (.inr rfl)

/-- A target that is not one of the two buffers of the frame stays as it is while no pass renders depth. -/
theorem Plays.plane_of_idle (plays : Plays deltaTime depthNeeded es f h turns f' k)
    (idle : ∀ u ∈ turns, u.pass.presents = true) {n : Nat} (hread : n ≠ f.read) (hwrite : n ≠ f.write) :
    ∀ u ∈ turns, u.start.device.plane (some n) = h.device.plane (some n) := by
  induction plays with
  | nil => exact fun u hu => absurd hu List.not_mem_nil
  | skip _ _ ih => exact ih idle hread hwrite
  | depth _ hd _ _ _ _ _ =>
    have hno := idle _ List.mem_cons_self
    simp [Pass.presents, hd] at hno
  | @color e es f _ h _ _ _ s _ _ hd hr _ ih =>
    obtain ⟨-, hrest⟩ := List.forall_mem_cons.1 idle
    have hother : some n ≠ e.pass.destination (colorIo (e.pass.settings.toScreen || !es.any isPresenter) f) := by
      intro hsame
      rcases destination_colorIo hd (e.pass.settings.toScreen || !es.any isPresenter) f with hto | hto | hto
      · cases hsame.trans hto
      · exact hread (Option.some.inj (hsame.trans hto))
      · exact hwrite (Option.some.inj (hsame.trans hto))
    have hplane : s.host.device.plane (some n) = h.device.plane (some n) := hr.writesOnly.planes (some n) hother
    have hswap := alternates_handOn e.pass (e.pass.settings.toScreen || !es.any isPresenter) f
    refine List.forall_mem_cons.2 ⟨rfl, fun u hu => (ih hrest ?_ ?_ u hu).trans hplane⟩
    · rcases hswap with ⟨hr, -⟩ | ⟨hr, -⟩ <;> rwa [hr]
    · rcases hswap with ⟨-, hw⟩ | ⟨-, hw⟩ <;> rwa [hw]

/-! ## Commands that render depth -/

/-- Between the two states of a host a number of commands have rendered depth. -/
def Deepens (h : Host) (n : Nat) (k : Host) : Prop :=
  ∃ calls events, h.Advanced calls events k ∧ calls.countP (·.command.rendersDepth) = n

theorem Deepens.trans {l : Host} {m n : Nat} (hk : Deepens h m k) (kl : Deepens k n l) : Deepens h (m + n) l := by
  obtain ⟨calls, events, adv, hcount⟩ := hk
  obtain ⟨calls', events', adv', hcount'⟩ := kl
  refine ⟨_, _, adv.trans adv', ?_⟩
  rw [List.countP_append, hcount, hcount']

theorem Deepens.of_report {n : Nat} {events : List Event} (hk : Deepens (h.report events) n k) : Deepens h n k := by
  obtain ⟨calls, events', adv, hcount⟩ := hk
  exact ⟨_, _, (Host.advanced_report h events).trans adv, hcount⟩

theorem deepens_of_only {Q : Command → Prop} (only : h.Only Q k) (hq : ∀ c, Q c → c.rendersDepth = false) :
    Deepens h 0 k := by
  obtain ⟨calls, events, adv, hcalls⟩ := only.calls
  refine ⟨calls, events, adv, List.countP_eq_zero.2 fun c hc => ?_⟩
  rw [hq c.command (hcalls c hc)]
  exact Bool.false_ne_true

/-- A turn of a depth pass renders depth once, and no other turn does. -/
theorem Turn.Rendered.deepens {t : Turn} (hr : t.Rendered deltaTime) :
    Deepens t.start (if t.pass.isDepthProducer then 1 else 0) t.finish.host := by
  by_cases hp : t.pass.isDepthProducer = true
  · obtain ⟨p, io, h, s⟩ := t
    cases p with
    | depth p =>
      obtain ⟨target, -, -, adv⟩ := Pass.render_depth_ok hr
      exact ⟨_, _, adv, rfl⟩
    | _ => cases hp
  · rw [if_neg hp]
    exact deepens_of_only hr.only fun c issues => issues.rendersDepth (by simpa using hp)

/-- As many commands of the frame render depth as turns do. -/
theorem Plays.deepens (plays : Plays deltaTime depthNeeded es f h turns f' k) :
    Deepens h (turns.countP (·.pass.isDepthProducer)) k := by
  induction plays with
  | nil => exact deepens_of_only (.refl _) fun _ h => (h : False).elim
  | skip _ _ ih => exact ih.of_report
  | depth _ _ _ _ hr _ ih =>
    rw [List.countP_cons, Nat.add_comm]
    exact Deepens.trans hr.deepens ih.of_report
  | color _ _ hr _ ih =>
    rw [List.countP_cons, Nat.add_comm]
    exact Deepens.of_report (Deepens.trans hr.deepens ih.of_report)

/-! ## Frames -/

/-- The turns of a frame around the one of a depth pass that supplies those after it: the pass clears its own target
and fills it; the passes before it, which are enabled ones that draw colours, get no depth; and those after it get the
target, in which they find what was drawn if it is not a buffer of the frame. -/
structure Supplies (first second : Nat) (p : DepthPass) (target : Nat) (before : List Turn) (t : Turn)
    (after : List Turn) : Prop where
  pass : t.pass = .depth p
  owned : p.target = some target
  filled : t.start.Advanced ((p.commands target).map fun c => ⟨c, .done⟩) [] t.finish.host
  earlier : ∀ u ∈ before, u.pass.presents = true ∧ u.io.depth = none
  later : ∀ u ∈ after, u.pass.presents = true ∧ u.io.depth = some target
  kept : target ≠ first → target ≠ second →
    ∀ u ∈ after, u.start.device.plane (some target) = t.finish.host.device.plane (some target)

theorem supplies_of_renders {first second : Nat} {es₂ : List PipelineEntry} {before after : List Turn} {t : Turn}
    {events : List Event} (renders : Renders deltaTime ⟨first, second, none, false⟩ e.pass before t f)
    (plays : Plays deltaTime depthNeeded es₂ f (t.finish.host.report events) after f' k)
    (hd : e.pass.isDepthProducer = true) : ∃ p target, Supplies first second p target before t after := by
  obtain ⟨pass, io, start, s⟩ := t
  have hpass : pass = e.pass := renders.pass
  rw [← hpass] at hd
  cases pass with
  | depth p =>
    obtain ⟨target, ht, hs, adv⟩ := Pass.render_depth_ok renders.rendered
    have idle := plays.of_idle (.inr (.inl renders.depthRendered))
    have hdepth : f.depth = some target := by
      rw [renders.depth]
      show s.stage.depthOutput = some target
      rw [hs]
      exact ht
    refine ⟨p, target, rfl, ht, adv, renders.earlier, fun u hu => ?_, fun hfirst hsecond u hu => ?_⟩
    · exact ⟨(idle u hu).1, (idle u hu).2.trans hdepth⟩
    · rcases renders.buffers with ⟨hr, hw⟩ | ⟨hr, hw⟩
      · exact plays.plane_of_idle (fun u hu => (idle u hu).1) (hr ▸ hfirst) (hw ▸ hsecond) u hu
      · exact plays.plane_of_idle (fun u hu => (idle u hu).1) (hr ▸ hsecond) (hw ▸ hfirst) u hu
  | _ => cases hd

theorem countP_depth_of_presents (hp : ∀ u ∈ turns, u.pass.presents = true) :
    turns.countP (·.pass.isDepthProducer) = 0 := by
  refine List.countP_eq_zero.2 fun u hu => ?_
  simpa [Pass.presents] using hp u hu

theorem map_pass_of_presents (plays : Plays deltaTime depthNeeded es f h turns f' k)
    (hp : ∀ u ∈ turns, u.pass.presents = true) : turns.map (·.pass) = (es.filter isPresenter).map (·.pass) := by
  rw [← plays.presenters, List.filter_eq_self.2 hp]

/-- If depth is needed, the first pass that can renders it for those after it. -/
theorem Plays.supplied {first second : Nat} {es₁ es₂ : List PipelineEntry}
    (plays : Plays deltaTime depthNeeded es ⟨first, second, none, false⟩ h turns f' k) (hes : es = es₁ ++ e :: es₂)
    (hneeded : depthNeeded = true) (hno : es₁.any producesDepth = false) (he : producesDepth e = true) :
    ∃ before u after p target, turns = before ++ u :: after ∧ e.pass = .depth p ∧
      Supplies first second p target before u after ∧
      before.map (·.pass) = (es₁.filter isPresenter).map (·.pass) ∧
      after.map (·.pass) = (es₂.filter isPresenter).map (·.pass) := by
  obtain ⟨before, u, after, f₁, events, hturns, renders, hbefore, rest⟩ := plays.split_at_depth hes hneeded rfl hno he
  obtain ⟨p, target, supplies⟩ := supplies_of_renders renders rest (Bool.and_eq_true_iff.1 he).2
  have hpass : e.pass = .depth p := renders.pass.symm.trans supplies.pass
  exact ⟨before, u, after, p, target, hturns, hpass, supplies, hbefore,
    map_pass_of_presents rest fun v hv => (supplies.later v hv).1⟩

theorem Plays.countP_depth {first second : Nat}
    (plays : Plays deltaTime depthNeeded es ⟨first, second, none, false⟩ h turns f' k) :
    turns.countP (·.pass.isDepthProducer) = if depthNeeded && es.any producesDepth then 1 else 0 := by
  by_cases hboth : (depthNeeded && es.any producesDepth) = true
  · rw [if_pos hboth]
    obtain ⟨hneeded, hany⟩ := Bool.and_eq_true_iff.1 hboth
    obtain ⟨e, hfind⟩ := Option.isSome_iff_exists.1 (List.find?_isSome.2 (List.any_eq_true.1 hany))
    obtain ⟨he, es₁, es₂, hes, hno⟩ := List.find?_eq_some_iff_append.1 hfind
    have hno : es₁.any producesDepth = false := by simpa using hno
    obtain ⟨before, u, after, p, target, rfl, -, supplies, -⟩ := plays.supplied hes hneeded hno he
    rw [List.countP_append, List.countP_cons, countP_depth_of_presents fun v hv => (supplies.earlier v hv).1,
      countP_depth_of_presents fun v hv => (supplies.later v hv).1, supplies.pass]
    rfl
  · rw [if_neg hboth]
    have idle := Bool.and_eq_false_iff.1 (Bool.eq_false_of_not_eq_true hboth)
    exact countP_depth_of_presents fun u hu => (plays.of_idle (idle.imp_right .inr) u hu).1

/-- A frame that succeeds renders depth once if an enabled pass reads it and there is an enabled depth pass, and else
not at all.  If it does, the first enabled depth pass renders it and supplies the passes after it; else no pass gets
any. -/
theorem depth_once_of_render_ok {s t : Staged Pipeline} (hr : render deltaTime s = (.ok (), t)) :
    (s.host.issuedSince t.host).countP (·.command.rendersDepth) =
      (if s.stage.entries.any needsDepth && s.stage.entries.any producesDepth then 1 else 0) ∧
    ∃ first second ready host turns f, s.stage.buffers = some (first, second) ∧
      prepareEntries s.stage.entries s.host = (.ok (), ready, host) ∧ List.Forall₂ MadeReady s.stage.entries ready ∧
      Plays deltaTime (ready.any needsDepth) ready ⟨first, second, none, false⟩ host turns f t.host ∧
      ((s.stage.entries.any needsDepth && s.stage.entries.any producesDepth) = false →
        ∀ u ∈ turns, u.pass.presents = true ∧ u.io.depth = none) ∧
      (s.stage.entries.any needsDepth = true → ∀ es₁ e es₂, ready = es₁ ++ e :: es₂ → es₁.any producesDepth = false →
        producesDepth e = true → ∃ before u after p target, turns = before ++ u :: after ∧ e.pass = .depth p ∧
          Supplies first second p target before u after ∧
          before.map (·.pass) = (es₁.filter isPresenter).map (·.pass) ∧
          after.map (·.pass) = (es₂.filter isPresenter).map (·.pass)) := by
  obtain ⟨first, second, ready, host, turns, f, hb, hprepare, plays, -⟩ := turns_of_render_ok hr
  have readies := readies_of_prepareEntries hprepare
  have made := readies.madeReady
  rw [← any_of_madeReady (fun _ _ m => m.needsDepth_eq) made, ← any_of_madeReady (fun _ _ m => m.producesDepth_eq) made]
  have prepared : Deepens s.host 0 host :=
    deepens_of_only readies.only fun _ hc => Command.rendersDepth_of_isAboutProgram hc
  obtain ⟨calls, events, adv, hcount⟩ := prepared.trans plays.deepens
  refine ⟨?_, first, second, ready, host, turns, f, hb, hprepare, made, plays, fun hboth => ?_,
    fun hneeded es₁ e es₂ hes hno he => plays.supplied hes hneeded hno he⟩
  · rw [adv.issuedSince_eq, hcount, Nat.zero_add, plays.countP_depth]
  · exact plays.of_idle ((Bool.and_eq_false_iff.1 hboth).imp_right .inr)

/-- A new pipeline with passes on a device with a scene. -/
def onScene (passes : List Pass) : Staged Pipeline :=
  match unborn with
  | (.ok p, h) => after (.useHost (.addScene default) :: passes.map fun pass => .addPass pass none) ⟨p, h⟩
  | (.error _, h) => ⟨default, h⟩

/-- Two depth passes between passes that read depth. -/
def misty : List Pass :=
  let read := Pass.material (MaterialPass.create fog)
  let fill := Pass.depth (DepthPass.create 3)
  [read, fill, read, fill, read]

/-- Two passes read the depth that is rendered once. -/
theorem depth_once_misty : ∃ t, render .zero (onScene misty) = (.ok (), t) ∧
    ((onScene misty).host.issuedSince t.host).countP (·.command.rendersDepth) = 1 := by
  have hdemand : ((onScene misty).stage.entries.any needsDepth && (onScene misty).stage.entries.any producesDepth) =
      true := by decide +kernel
  have hok : (render .zero (onScene misty)).1.toOption.isSome = true := by decide +kernel
  rcases hr : render .zero (onScene misty) with ⟨e | _, t⟩ <;> rw [hr] at hok
  · cases hok
  · refine ⟨t, rfl, ?_⟩
    rw [(depth_once_of_render_ok hr).1, if_pos hdemand]

end Pipeline

end ScreenFusion
