import ScreenFusion.Proofs.Pass.Binding
import ScreenFusion.Proofs.Pipeline.DepthOnce
import ScreenFusion.Proofs.Pipeline.Passes

/-!
# ScreenFusion.Proofs.Pipeline.DepthSupply — which programs get the depth that they read

Whether a frame renders depth is decided by what its passes bring now.  What reads it are their programs.  A pass whose
last build failed keeps a program of what it brought before; so the program may read a depth that no pass asks for.

* `Pass.readsDepth_attributes`, `Fusion.readsDepth_of_fuse`: what asks for depth, and what reads it.
* `Turn.draws`, `Plays.draws`: the draws of a frame, turn by turn.
* `Plays.exists_turns_after`: the turns after an enabled depth pass.
* `depth_supplied_iff`: the depth of every draw after an enabled depth pass.
-/

namespace ScreenFusion

open Fusion Staged

/-! ## Asking for depth -/

theorem Attributes.readsDepth_eq (a : Attributes) : a.readsDepth = a.bits.toBitVec.getLsbD 0 := by
  obtain ⟨⟨bits⟩⟩ := a
  revert bits
  decide +kernel

theorem Attributes.readsDepth_union (a b : Attributes) :
    (a.union b).readsDepth = (a.readsDepth || b.readsDepth) := by
  simp only [readsDepth_eq, union, UInt8.toBitVec_or, BitVec.getLsbD_or]

theorem Attributes.readsDepth_none : none.readsDepth = false := by decide

theorem EffectPass.readsDepth_foldl (effects : List Effect) (a : Attributes) :
    (effects.foldl (fun a e => a.union e.attributes) a).readsDepth =
      (a.readsDepth || effects.any (·.attributes.readsDepth)) := by
  induction effects generalizing a with
  | nil => simp
  | cons e es ih => rw [List.foldl_cons, ih, Attributes.readsDepth_union, List.any_cons, Bool.or_assoc]

namespace Pass

variable {p : Pass} {h : Host} {io : PassIo} {deltaTime : Binary32}

/-- A pass asks for depth if a unit that it brings now reads it. -/
theorem readsDepth_attributes (p : Pass) : p.attributes.readsDepth = p.units.any (·.attributes.readsDepth) := by
  cases p with
  | material p => exact (Bool.or_false _).symm
  | effect p =>
    show Attributes.readsDepth (p.effects.foldl _ _) = (p.effects.map FuseUnit.ofEffect).any _
    rw [EffectPass.readsDepth_foldl, Attributes.readsDepth_none, List.any_map]
    rfl
  | _ => exact Attributes.readsDepth_none

/-- A render of a pass that is ready leaves what it asks for. -/
theorem attributes_render (ready : p.builder.Ready) (io : PassIo) (deltaTime : Binary32) (h : Host) :
    (render io deltaTime ⟨p, h⟩).2.stage.attributes = p.attributes := by
  cases p with
  | material p =>
    have hcompiled : p.compiled.isSome = true := ready.compiled
    obtain ⟨c, hc⟩ := Option.isSome_iff_exists.1 hcompiled
    show (material (MaterialPass.render io deltaTime ⟨p, h⟩).2.stage).attributes = _
    rw [MaterialPass.render_of_ready ready hc]
    rfl
  | effect p =>
    obtain ⟨c, kept⟩ := EffectPass.kept_of_ready ready
    show (effect (EffectPass.render io deltaTime ⟨p, h⟩).2.stage).attributes = _
    rw [kept.render_eq]
    rfl
  | _ => rfl

end Pass

theorem any_readsDepth_of_sameShape {units units' : List FuseUnit}
    (same : List.Forall₂ FuseUnit.SameShape units units') :
    units'.any (·.attributes.readsDepth) = units.any (·.attributes.readsDepth) := by
  induction same with
  | nil => rfl
  | cons h _ ih => rw [List.any_cons, List.any_cons, ih, h.attributes_eq]

/-! ## Draws -/

theorem Host.Only.draws {Q : Command → Prop} {h k : Host} (only : h.Only Q k) (hq : ∀ c, Q c → c.draw? = none) :
    h.Draws [] k := by
  obtain ⟨calls, events, adv, hcalls⟩ := only.calls
  exact ⟨calls, events, adv, List.filterMap_eq_nil_iff.2 fun c hc => hq c.command (hcalls c hc)⟩

theorem Command.draw?_of_isAboutProgram {c : Command} (hc : c.isAboutProgram = true) : c.draw? = none := by
  cases c <;> first | rfl | cases hc

namespace Pipeline

variable {deltaTime : Binary32} {depthNeeded : Bool} {f f' : FrameState} {h k : Host} {e : PipelineEntry}
  {es es₁ es₂ : List PipelineEntry} {turns : List Turn}

namespace Turn

variable {t : Turn} {draw : FullscreenDraw}

/-- The draws that the pass gives in its turn. -/
def draws (t : Turn) : List FullscreenDraw := t.start.drawsSince t.finish.host

theorem Rendered.onward (hr : t.Rendered deltaTime) : Pass.Onward ⟨t.pass, t.start⟩ t.finish :=
  Pass.onward_of_run_eq (.render t.io deltaTime) trivial hr

theorem Rendered.draws (hr : t.Rendered deltaTime) : t.start.Draws t.draws t.finish.host := by
  obtain ⟨calls, events, adv, -⟩ := hr.only.calls
  refine ⟨calls, events, adv, ?_⟩
  rw [Turn.draws, Host.drawsSince, adv.issuedSince_eq]

/-- A draw gets the depth that the pass sees. -/
theorem Rendered.depth_eq (hr : t.Rendered deltaTime) (hd : draw ∈ t.draws) : draw.depth = t.io.depth := by
  obtain ⟨⟨command, answer⟩, hc, hdraw⟩ := List.mem_filterMap.1 hd
  have issues : t.pass.Issues t.io command := hr.only.issuedSince _ hc
  obtain ⟨p, io, h, s⟩ := t
  dsimp only at issues
  cases issues with
  | paints _ paints =>
    cases paints with
    | program hprogram => cases (Command.draw?_of_isAboutProgram hprogram).symm.trans hdraw
    | fullscreen _ hdepth _ _ =>
      cases hdraw
      exact hdepth
    | _ => cases hdraw
  | depth _ hc =>
    simp only [DepthPass.commands, List.mem_cons, List.not_mem_nil, or_false] at hc
    rcases hc with rfl | rfl <;> cases hdraw

/-- A draw binds a program that was made from units of the pass.  If the last build succeeded, the program reads depth
only if the pass asks for it. -/
theorem Rendered.binds (hr : t.Rendered deltaTime) (used : Pass.Used ⟨t.pass, t.start⟩) (ready : t.pass.builder.Ready)
    (hd : draw ∈ t.draws) : ∃ i writes units source, t.finish.stage.Binds i draw writes ∧
      i.MadeFrom t.finish.stage.name units source t.finish.host.device ∧
      (source.readsDepth = true → t.finish.stage.builder.lastError = none → t.pass.attributes.readsDepth = true) := by
  have hfinish : (Pass.render t.io deltaTime ⟨t.pass, t.start⟩).2 = t.finish := congrArg Prod.snd hr
  have inst : t.finish.stage.Installed t.finish.host.device := (hr.onward.used used).installed
  have hattributes := Pass.attributes_render ready t.io deltaTime t.start
  have drawn := Pass.draws_render t.io deltaTime t.pass t.start
  rw [hfinish] at hattributes
  simp only [hfinish] at drawn
  rcases drawn with none | ⟨i, draw', writes, ready', binds, one⟩
  · rw [Turn.draws, none.drawsSince_eq] at hd
    cases hd
  · rw [Turn.draws, one.drawsSince_eq] at hd
    cases List.mem_singleton.1 hd
    obtain ⟨units, source, made, same⟩ := inst.exists_units binds.installed
    refine ⟨i, writes, units, source, binds, made, fun hreads he => ?_⟩
    obtain ⟨options, hfused⟩ := made.fused
    rw [← hattributes, Pass.readsDepth_attributes, any_readsDepth_of_sameShape (same ready'.clean he),
      ← readsDepth_of_fuse hfused]
    exact hreads

end Turn

/-- The draws of passes in order are those of their turns. -/
theorem Plays.draws (plays : Plays deltaTime depthNeeded es f h turns f' k) : h.Draws (turns.flatMap Turn.draws) k := by
  have reported {h : Host} {events : List Event} {draws : List FullscreenDraw}
      (hd : (h.report events).Draws draws k) : h.Draws draws k := (Host.serving_draws.report h events).trans hd
  induction plays with
  | nil => exact .refl _
  | skip _ _ ih => exact reported (ih reported)
  | depth _ _ _ _ hr _ ih => exact hr.draws.trans (reported (ih reported))
  | color _ _ hr _ ih => exact reported (hr.draws.trans (reported (ih reported)))

/-- The turn is one of an enabled pass among some, which can be had on the host that the turn starts on. -/
structure Turn.Taken (deltaTime : Binary32) (es : List PipelineEntry) (t : Turn) : Prop where
  entry : ∃ e ∈ es, e.pass = t.pass ∧ e.pass.isEnabled = true
  rendered : t.Rendered deltaTime
  used : Pass.Used ⟨t.pass, t.start⟩

theorem Turn.Taken.tail {t : Turn} (taken : t.Taken deltaTime es) (e : PipelineEntry) : t.Taken deltaTime (e :: es) := by
  obtain ⟨e', he', henabled⟩ := taken.entry
  exact ⟨⟨e', List.mem_cons_of_mem _ he', henabled⟩, taken.rendered, taken.used⟩

theorem Plays.taken (plays : Plays deltaTime depthNeeded es f h turns f' k) (used : AllUsed es h) :
    ∀ t ∈ turns, t.Taken deltaTime es := by
  have reported (h : Host) (events : List Event) : h.Later (h.report events) := Host.later_report h events
  induction plays with
  | nil => exact fun t ht => absurd ht List.not_mem_nil
  | skip _ _ ih =>
    obtain ⟨-, hrest⟩ := List.forall_mem_cons.1 used
    exact fun t ht => (ih (AllUsed.later hrest (reported _ _)) t ht).tail _
  | depth henabled _ _ _ hr _ ih =>
    obtain ⟨hfirst, hrest⟩ := List.forall_mem_cons.1 used
    refine List.forall_mem_cons.2 ⟨⟨⟨_, List.mem_cons_self, rfl, henabled⟩, hr, hfirst⟩, fun t ht => ?_⟩
    exact (ih ((AllUsed.later hrest hr.onward.later).later (reported _ _)) t ht).tail _
  | @color _ _ _ _ h _ before _ _ _ henabled _ hr _ ih =>
    obtain ⟨hfirst, hrest⟩ := List.forall_mem_cons.1 used
    refine List.forall_mem_cons.2 ⟨⟨⟨_, List.mem_cons_self, rfl, henabled⟩, hr, ?_⟩, fun t ht => ?_⟩
    · exact hfirst.elsewhere (reported _ _)
    · have start := AllUsed.later hrest (reported h before)
      exact (ih ((start.later hr.onward.later).later (reported _ _)) t ht).tail _

/-! ## Turns after a depth pass -/

/-- A depth pass has filled the target in one of the turns. -/
def Filled (turns : List Turn) (target : Nat) : Prop :=
  ∃ t ∈ turns, ∃ p : DepthPass, t.pass = .depth p ∧ p.target = some target ∧
    t.start.Advanced ((p.commands target).map fun c => ⟨c, .done⟩) [] t.finish.host

/-- Turns split where the passes do at one that renders depth. -/
theorem exists_turns_of_map (hm : turns.map (·.pass) = ((es₁ ++ e :: es₂).filter isPresenter).map (·.pass))
    (he : producesDepth e = true) :
    ∃ before after, turns = before ++ after ∧ after.map (·.pass) = (es₂.filter isPresenter).map (·.pass) := by
  have hpresents : isPresenter e = false := by
    simp [isPresenter, Pass.presents, (Bool.and_eq_true_iff.1 he).2]
  rw [List.filter_append, List.filter_cons_of_neg (by simp [hpresents]), List.map_append] at hm
  obtain ⟨before, after, rfl, -, hafter⟩ := List.map_eq_append_iff.1 hm
  exact ⟨before, after, rfl, hafter⟩

/-- The passes after an enabled depth pass get a target that one has filled before, if depth is needed, and else no
depth. -/
theorem Plays.exists_turns_after {first second : Nat}
    (plays : Plays deltaTime depthNeeded es ⟨first, second, none, false⟩ h turns f' k) (hes : es = es₁ ++ e :: es₂)
    (he : producesDepth e = true) : ∃ before after, turns = before ++ after ∧
      after.map (·.pass) = (es₂.filter isPresenter).map (·.pass) ∧
      (depthNeeded = true → ∃ target, Filled before target ∧ ∀ u ∈ after, u.io.depth = some target) ∧
      (depthNeeded = false → ∀ u ∈ after, u.io.depth = none) := by
  subst hes
  cases hneeded : depthNeeded with
  | false =>
    have idle := plays.of_idle (.inl hneeded)
    obtain ⟨before, after, rfl, hafter⟩ := exists_turns_of_map (map_pass_of_presents plays fun u hu => (idle u hu).1) he
    exact ⟨before, after, rfl, hafter, nofun, fun _ u hu => (idle u (List.mem_append_right _ hu)).2⟩
  | true =>
    by_cases hfirst : es₁.any producesDepth = true
    · -- an earlier pass fills the target
      obtain ⟨d, hfind⟩ := Option.isSome_iff_exists.1 (List.find?_isSome.2 (List.any_eq_true.1 hfirst))
      obtain ⟨hd, es₀, mid, rfl, hno⟩ := List.find?_eq_some_iff_append.1 hfind
      have hno : es₀.any producesDepth = false := by simpa using hno
      have hes : es₀ ++ d :: mid ++ e :: es₂ = es₀ ++ d :: (mid ++ e :: es₂) := List.append_assoc _ _ _
      obtain ⟨before, u, rest, p, target, rfl, -, supplies, -, hrest⟩ := plays.supplied hes hneeded hno hd
      obtain ⟨between, after, rfl, hafter⟩ := exists_turns_of_map hrest he
      refine ⟨before ++ u :: between, after, by simp, hafter, fun _ => ⟨target, ?_, fun v hv => ?_⟩, nofun⟩
      · exact ⟨u, by simp, p, supplies.pass, supplies.owned, supplies.filled⟩
      · exact (supplies.later v (List.mem_append_right _ hv)).2
    · -- this pass is the first to fill it
      obtain ⟨before, u, after, p, target, rfl, -, supplies, -, hafter⟩ :=
        plays.supplied rfl hneeded (by simpa using hfirst) he
      refine ⟨before ++ [u], after, by simp, hafter, fun _ => ⟨target, ?_, fun v hv => (supplies.later v hv).2⟩, nofun⟩
      exact ⟨u, by simp, p, supplies.pass, supplies.owned, supplies.filled⟩

/-! ## Frames -/

/-- The draw gets a target that a depth pass has filled before. -/
def GetsDepth (before : List Turn) (draw : FullscreenDraw) : Prop :=
  ∃ target, draw.depth = some target ∧ Filled before target

/-- In a frame that succeeds, a draw after an enabled depth pass gets the target that a depth pass has filled, exactly if
an enabled pass asks for depth now, and else it gets no depth.  If the last build of its pass succeeded and its program
reads depth, it gets the target. -/
theorem depth_supplied_iff {s t : Staged Pipeline} (used : Used s) (hr : render deltaTime s = (.ok (), t)) :
    ∃ first second ready host turns f, s.stage.buffers = some (first, second) ∧
      prepareEntries s.stage.entries s.host = (.ok (), ready, host) ∧ List.Forall₂ MadeReady s.stage.entries ready ∧
      Plays deltaTime (ready.any needsDepth) ready ⟨first, second, none, false⟩ host turns f t.host ∧
      s.host.drawsSince t.host = turns.flatMap Turn.draws ∧
      ∀ es₁ e es₂, ready = es₁ ++ e :: es₂ → producesDepth e = true →
        ∃ before after, turns = before ++ after ∧ after.map (·.pass) = (es₂.filter isPresenter).map (·.pass) ∧
          ∀ u ∈ after, ∀ draw ∈ u.draws, ∃ i writes units source, u.finish.stage.Binds i draw writes ∧
            i.MadeFrom u.finish.stage.name units source u.finish.host.device ∧
            (GetsDepth before draw ↔ s.stage.entries.any needsDepth = true) ∧
            (s.stage.entries.any needsDepth = false → draw.depth = none) ∧
            (source.readsDepth = true → u.finish.stage.builder.lastError = none → GetsDepth before draw) := by
  obtain ⟨first, second, ready, host, turns, f, hb, hprepare, plays, -⟩ := turns_of_render_ok hr
  have readies := readies_of_prepareEntries hprepare
  have made := readies.madeReady
  have allUsed : AllUsed ready host := readies.onwards.used used.pass
  have demand := any_of_madeReady (fun _ _ m => m.needsDepth_eq) made
  have draws : s.host.Draws (turns.flatMap Turn.draws) t.host :=
    (readies.only.draws fun _ => Command.draw?_of_isAboutProgram).trans plays.draws
  refine ⟨first, second, ready, host, turns, f, hb, hprepare, made, plays, draws.drawsSince_eq, fun es₁ e es₂ hes he => ?_⟩
  obtain ⟨before, after, rfl, hafter, supplied, unsupplied⟩ := plays.exists_turns_after hes he
  refine ⟨before, after, rfl, hafter, fun u hu draw hd => ?_⟩
  have taken := plays.taken allUsed u (List.mem_append_right _ hu)
  obtain ⟨d, hmem, hpass, henabled⟩ := taken.entry
  have hready : u.pass.builder.Ready := hpass ▸ readyToRun_of_madeReady made d hmem henabled
  have hdepth := taken.rendered.depth_eq hd
  -- being made ready leaves what a pass asks for, so the frame has the demand of the passes as they were
  rw [← demand]
  have gets (hneeded : ready.any needsDepth = true) : GetsDepth before draw := by
    obtain ⟨target, filled, hall⟩ := supplied hneeded
    exact ⟨target, hdepth.trans (hall u hu), filled⟩
  have lacks (hidle : ready.any needsDepth = false) : draw.depth = none := hdepth.trans (unsupplied hidle u hu)
  obtain ⟨i, writes, units, source, binds, madeFrom, reads⟩ := taken.rendered.binds taken.used hready hd
  refine ⟨i, writes, units, source, binds, madeFrom, ⟨fun hg => ?_, gets⟩, lacks, fun hreads he => gets ?_⟩
  · by_contra hno
    obtain ⟨target, htarget, -⟩ := hg
    cases htarget.symm.trans (lacks (Bool.eq_false_of_not_eq_true hno))
  · refine List.any_eq_true.2 ⟨d, hmem, ?_⟩
    rw [needsDepth, henabled, hpass, reads hreads he]
    rfl

/-! ## A program that reads a depth for which nobody asks -/

theorem Used.after {s : Staged Pipeline} {ops : List PipelineOp} (used : Used s)
    (suits : ∀ op ∈ ops, ∀ s, op.Suits s) : Used (after ops s) := by
  induction ops generalizing s with
  | nil => exact used
  | cons op ops ih =>
    exact ih (used.used op (suits op List.mem_cons_self s)) fun op hop => suits op (List.mem_cons_of_mem _ hop)

theorem Used.addPasses {s : Staged Pipeline} {passes : List Pass} (used : Used s) (made : ∀ p ∈ passes, p.Made) :
    Used (Pipeline.after (passes.map fun pass => .addPass pass none) s) := by
  refine used.after fun op hop s => ?_
  obtain ⟨pass, hp, rfl⟩ := List.mem_map.1 hop
  exact .made s.host (made pass hp)

theorem used_onScene {passes : List Pass} (made : ∀ p ∈ passes, p.Made) : Used (onScene passes) := by
  have hok : unborn.1.toOption.isSome = true := by decide +kernel
  unfold onScene
  rcases hc : unborn with ⟨e | p, h⟩ <;> rw [hc] at hok
  · cases hok
  · exact Used.addPasses (.used (.useHost (.addScene default)) (.created hc) trivial) made

/-- In the pipeline with two depth passes the passes after the first get depth. -/
theorem depth_supplied_misty : Used (onScene misty) ∧ ∃ t before after, render .zero (onScene misty) = (.ok (), t) ∧
    (onScene misty).host.drawsSince t.host = (before ++ after).flatMap Turn.draws ∧ after ≠ [] ∧
    ∀ u ∈ after, ∀ draw ∈ u.draws, GetsDepth before draw := by
  have made : ∀ p ∈ misty, p.Made := by
    unfold misty
    simp only [List.forall_mem_cons]
    exact ⟨.material fog, .depth 3, .material fog, .depth 3, .material fog, List.forall_mem_nil _⟩
  have used := used_onScene made
  have hok : (render .zero (onScene misty)).1.toOption.isSome = true := by decide +kernel
  have hdemand : (onScene misty).stage.entries.any needsDepth = true := by decide +kernel
  have hsecond : ((prepareEntries (onScene misty).stage.entries (onScene misty).host).2.1[1]?).map producesDepth =
      some true := by decide +kernel
  have hrest : ((prepareEntries (onScene misty).stage.entries (onScene misty).host).2.1.drop 2).any isPresenter =
      true := by decide +kernel
  refine ⟨used, ?_⟩
  rcases hr : render .zero (onScene misty) with ⟨e | _, t⟩ <;> rw [hr] at hok
  · cases hok
  · obtain ⟨first, second, ready, host, turns, f, -, hprepare, -, -, hdraws, supplied⟩ := depth_supplied_iff used hr
    rw [hprepare] at hsecond hrest
    obtain ⟨e, he, hproduces⟩ := Option.map_eq_some_iff.1 hsecond
    obtain ⟨hlt, rfl⟩ := List.getElem?_eq_some_iff.1 he
    have hes : ready = ready.take 1 ++ ready[1] :: ready.drop 2 := by
      rw [← List.drop_eq_getElem_cons hlt, List.take_append_drop]
    obtain ⟨before, after, rfl, hafter, gets⟩ := supplied _ _ _ hes hproduces
    refine ⟨t, before, after, rfl, hdraws, ?_, fun u hu draw hd => ?_⟩
    · rintro rfl
      obtain ⟨d, hd, hpresents⟩ := List.any_eq_true.1 hrest
      exact List.filter_eq_nil_iff.1 (List.map_eq_nil_iff.1 hafter.symm) d hd hpresents
    · obtain ⟨_, _, _, _, -, -, hiff, -⟩ := gets u hu draw hd
      exact hiff.2 hdemand

/-- An effect that shows the depth. -/
def veil : Effect :=
  ((Effect.create 1 "veil" "fn main_image").setAttributes .depth).setKernel ⟨1, fun i => ⟨i.depth, i.depth, i.depth, 1⟩⟩

/-- A depth pass, and a pass with the effect. -/
def veiled : List Pass :=
  [.depth (DepthPass.create 3), .effect ((EffectPass.create "fx" [veil]).toOption.getD default)]

/-- The effect is drawn, then says that it reads no depth and gets a define that cannot be; a frame fails for it. -/
def unveiled : Staged Pipeline :=
  after [.render .zero, .changePass 2 (.effects (.attributes 1 .none)),
    .changePass 2 (.effects (.change 1 (.define "fx" "1"))), .render .zero] (onScene veiled)

theorem used_unveiled : Used unveiled := by
  have veil_made : veil.Made :=
    .changed (.kernel _) (.changed (.attributes .depth) (.created 1 "veil" "fn main_image"))
  have made : ∀ p ∈ veiled, p.Made := by
    unfold veiled
    simp only [List.forall_mem_cons]
    refine ⟨.depth 3, .effect (fun _ he => List.mem_singleton.1 he ▸ veil_made) (List.nodup_singleton _) rfl, ?_⟩
    exact List.forall_mem_nil _
  have change {id : Nat} {op : EffectPassOp} (ha : op.isSetter = true) (hop : ∀ q, op.Admissible q)
      (s : Staged Pipeline) : (PipelineOp.changePass id (.effects op)).Suits s := by
    refine fun pass _ => ⟨ha, fun op' q hop' _ => ?_⟩
    cases hop'
    exact hop q
  refine (used_onScene made).after ?_
  simp only [List.forall_mem_cons]
  refine ⟨fun _ => trivial, change rfl fun _ => trivial, change rfl fun _ => trivial, fun _ => trivial, ?_⟩
  exact List.forall_mem_nil _

/-- The next frame succeeds, and the program that it draws with reads depth and gets none, after an enabled depth pass. -/
theorem unveiled_lacks_depth : Used unveiled ∧ ∃ t e es draw program, render .zero unveiled = (.ok (), t) ∧
    unveiled.stage.entries = e :: es ∧ producesDepth e = true ∧ unveiled.host.drawsSince t.host = [draw] ∧
    t.host.device.programs.get? draw.program = some program ∧ program.stages.any ProgramStage.readsDepth = true ∧
    draw.depth = none := by
  have hok : (render .zero unveiled).1.toOption.isSome = true := by decide +kernel
  have hfirst : unveiled.stage.entries.head?.map producesDepth = some true := by decide +kernel
  have hdraw : (unveiled.host.drawsSince (render .zero unveiled).2.host).map (fun draw =>
      (draw.depth, ((render .zero unveiled).2.host.device.programs.get? draw.program).map fun program =>
        program.stages.any ProgramStage.readsDepth)) = [(none, some true)] := by decide +kernel
  rcases hr : render .zero unveiled with ⟨e | _, t⟩ <;> rw [hr] at hok hdraw
  · cases hok
  · obtain ⟨e, he, hproduces⟩ := Option.map_eq_some_iff.1 hfirst
    obtain ⟨draw, hdraws, hone⟩ := List.map_eq_singleton_iff.1 hdraw
    obtain ⟨hdepth, hprogram⟩ := Prod.ext_iff.1 hone
    obtain ⟨program, hfound, hreads⟩ := Option.map_eq_some_iff.1 hprogram
    obtain ⟨es, hes⟩ := List.head?_eq_some_iff.1 he
    exact ⟨used_unveiled, t, e, es, draw, program, rfl, hes, hproduces, hdraws, hfound, hreads, hdepth⟩

end Pipeline

end ScreenFusion
