import ScreenFusion.Proofs.Pipeline.Compiled

/-!
# ScreenFusion.Proofs.Pipeline.Fused — many effects in one pass or in many

Effect passes at the end of a frame hand a picture on through the two buffers, and the last one puts it on the screen.
What is shown depends on all their members in order and not on how these are divided among passes.  So one pass with
many effects shows what as many passes with one effect each show, and does it in one draw.

* `FrameReady`: a point of a frame from which effect passes can run.
* `runPass_effect`: one effect pass.
* `runEntries_effects`: effect passes up to the end of the frame.
* `fused_eq_sequential`: one pass with many effects, and many passes with one.
-/

namespace ScreenFusion

/-- The plane has the size of another, and full precision. -/
structure Plane.Like (p size : Plane) : Prop where
  sameSize : p.SameSize size
  full : p.precision = .full

theorem Plane.Like.painted {p size : Plane} (like : p.Like size) (texel : Nat → Rgba Float32) :
    (p.painted texel).Like size := ⟨⟨like.sameSize.width, like.sameSize.height⟩, like.full⟩

namespace Pipeline

variable {h k : Host} {f : FrameState} {size : Plane} {picture : List (Rgba Float32)} {depthAt : Uv → Float32}

/-- A point of a frame on a host without armed failures: the screen and the two buffers have one size and full
precision, the read buffer shows a picture, and the depth at a place is as given. -/
structure FrameReady (h : Host) (f : FrameState) (size : Plane) (picture : List (Rgba Float32))
    (depthAt : Uv → Float32) : Prop where
  armed : h.armed = []
  screen : h.device.screen.Like size
  read : ∃ r, h.device.targets.get? f.read = some r ∧ r.Like size ∧ r.picture = picture
  write : ∃ w, h.device.targets.get? f.write = some w ∧ w.Like size
  depth : ∀ t, f.depth = some t → ∃ z, h.device.targets.get? t = some z ∧ ∀ uv, z.sampleDepth uv = depthAt uv
  noDepth : f.depth = none → ∀ uv, depthAt uv = 1

namespace FrameReady

theorem report (ready : FrameReady h f size picture depthAt) (events : List Event) :
    FrameReady (h.report events) f size picture depthAt :=
  ⟨ready.armed, ready.screen, ready.read, ready.write, ready.depth, ready.noDepth⟩

/-- The depth that a draw finds. -/
theorem findBound (ready : FrameReady h f size picture depthAt) :
    ∃ depth, Device.findBound f.depth h.device = (.ok depth, h.device) ∧
      ∀ uv, (depth.map (·.sampleDepth uv)).getD 1 = depthAt uv := by
  cases hf : f.depth with
  | none => exact ⟨none, rfl, fun uv => (ready.noDepth hf uv).symm⟩
  | some t =>
    obtain ⟨z, hz, hdepth⟩ := ready.depth t hf
    exact ⟨some z, Device.findBound_some hz, hdepth⟩

/-- After a draw into the write buffer the buffers change places. -/
theorem drawn (ready : FrameReady h f size picture depthAt) {w : Plane} (hw : h.device.targets.get? f.write = some w)
    (texel : Nat → Rgba Float32) {painted : List (Rgba Float32)} (hpainted : (w.painted texel).picture = painted)
    (command : Command) (answer : Answer) :
    FrameReady (({ h with device := h.device.drawn (some f.write) w texel } : Host).recordCall command answer)
      { f with read := f.write, write := f.read } size painted depthAt := by
  have hlike : (w.painted texel).Like size := by
    obtain ⟨w', hw', like⟩ := ready.write
    rw [hw] at hw'
    cases hw'
    exact like.painted texel
  have htargets (key : Nat) : (h.device.drawn (some f.write) w texel).targets.get? key =
      if key = f.write then some (w.painted texel) else h.device.targets.get? key := Device.drawn_targets _ _ _ _ _
  refine ⟨ready.armed, ready.screen, ?_, ?_, ?_, ready.noDepth⟩
  · exact ⟨w.painted texel, (htargets f.write).trans (if_pos rfl), hlike, hpainted⟩
  · obtain ⟨r, hr, like, -⟩ := ready.read
    by_cases hrw : f.read = f.write
    · exact ⟨w.painted texel, (htargets f.read).trans (if_pos hrw), hlike⟩
    · exact ⟨r, ((htargets f.read).trans (if_neg hrw)).trans hr, like⟩
  · intro t ht
    obtain ⟨z, hz, hdepth⟩ := ready.depth t ht
    by_cases htw : t = f.write
    · rw [htw, hw] at hz
      cases hz
      refine ⟨w.painted texel, (htargets t).trans (if_pos htw), ?_⟩
      intro uv
      rw [Plane.sampleDepth_painted]
      exact hdepth uv
    · exact ⟨z, ((htargets t).trans (if_neg htw)).trans hz, hdepth⟩

end FrameReady

/-! ## One effect pass -/

open EffectPass

variable {made : List Effect} {p : EffectPass} {c : CompiledEffects} {source : ProgramSource} {elapsed : Binary32}

/-- The frame after a pass that fills the write buffer, unless the pass draws to the screen. -/
def turned (last : Bool) (f : FrameState) : FrameState :=
  if last then f else { f with read := f.write, write := f.read }

/-- What a pass at the end of a frame leaves: the screen shows a picture, or the next passes start from it. -/
def Shown (last : Bool) (h : Host) (f : FrameState) (size : Plane) (picture : List (Rgba Float32))
    (depthAt : Uv → Float32) : Prop :=
  if last then h.device.screen.Like size ∧ h.device.screen.picture = picture else FrameReady h f size picture depthAt

/-- A render of an effect pass at a point of a frame. -/
theorem render_effect (r : Runs made p h.device c source) (hlocal : ∀ e ∈ p.effects, e.Local)
    (ready : FrameReady h f size picture depthAt) (hcentred : size.Centred) (deltaTime : Binary32) (last : Bool) :
    ∃ draw k, EffectPass.render ⟨f.read, if last then none else some f.write, f.depth⟩ deltaTime ⟨p, h⟩ =
        (.ok (), ⟨{ p with elapsed := p.elapsed + deltaTime }, k⟩) ∧
      h.Advanced [⟨.drawFullscreen draw, .done⟩] [] k ∧ k.device.programs = h.device.programs ∧
      Shown last k (turned last f) size
        (paint p.effects (placeAt (p.elapsed + deltaTime) deltaTime size depthAt) picture) depthAt := by
  obtain ⟨input, hinput, hin, rfl⟩ := ready.read
  obtain ⟨depth, hbound, hdepth⟩ := ready.findBound
  cases last with
  | true =>
    obtain ⟨draw, hrender⟩ := r.render_eq hlocal ready.armed ⟨f.read, none, f.depth⟩ hinput hbound hdepth rfl
      ready.screen.sameSize deltaTime
    refine ⟨draw, _, hrender, Host.advanced_recordCall h _ h.armed _ _, Device.drawn_programs _ _ _ _, ?_⟩
    refine ⟨ready.screen.painted _, ?_⟩
    exact Plane.picture_painted_shade ready.screen.full ready.screen.sameSize hin.sameSize hcentred _ _
  | false =>
    obtain ⟨w, hw, like⟩ := ready.write
    have hplane : h.device.plane (some f.write) = .ok w := by rw [Device.plane, hw]
    obtain ⟨draw, hrender⟩ := r.render_eq hlocal ready.armed ⟨f.read, some f.write, f.depth⟩ hinput hbound hdepth
      hplane like.sameSize deltaTime
    refine ⟨draw, _, hrender, Host.advanced_recordCall h _ h.armed _ _, Device.drawn_programs _ _ _ _, ?_⟩
    exact ready.drawn hw _ (Plane.picture_painted_shade like.full like.sameSize hin.sameSize hcentred _ _) _ _

theorem Host.report_nil (h : Host) : h.report [] = h := by
  show { h with events := h.events ++ [].toArray } = h
  simp

theorem Host.report_report (h : Host) (events events' : List Event) :
    (h.report events).report events' = h.report (events ++ events') := by
  show { h with events := h.events ++ events.toArray ++ events'.toArray } =
    { h with events := h.events ++ (events ++ events').toArray }
  simp

/-- A report that may be missing. -/
theorem report_if_bind {P β : Type} (condition : Bool) (events : List Event) (x : Act (Staged P) β) (s : Staged P) :
    (if condition then (do Staged.report events; x) else x) s =
      x ⟨s.stage, s.host.report (if condition then events else [])⟩ := by
  cases condition with
  | true => rfl
  | false =>
    show x s = x ⟨s.stage, s.host.report []⟩
    rw [Host.report_nil]

/-- What is reported before an effect pass runs. -/
def missingDepth (f : FrameState) (p : EffectPass) : List Event :=
  if f.depth.isNone && p.attributes.readsDepth then [.depthMissing p.name] else []

/-- An effect pass of the frame whose render succeeds. -/
theorem runPass_of_render_ok (hs : p.settings = .swapping) {last : Bool} {deltaTime : Binary32} {q : EffectPass}
    (hr : EffectPass.render ⟨f.read, if last then none else some f.write, f.depth⟩ deltaTime
      ⟨p, h.report (missingDepth f p)⟩ = (.ok (), ⟨q, k⟩)) (depthNeeded : Bool) :
    ∃ events, runPass deltaTime depthNeeded last f ⟨.effect p, h⟩ =
      (.ok (turned last f), ⟨.effect q, k.report events⟩) := by
  have henabled : (!(Pass.effect p).isEnabled) = false := by
    show (!p.settings.enabled) = false
    rw [hs]
    rfl
  have hterminal : ((Pass.effect p).settings.toScreen || last) = last := by
    show (p.settings.toScreen || last) = last
    rw [hs]
    rfl
  have hswap : (Pass.effect p).settings.needsSwap = true := by
    show p.settings.needsSwap = true
    rw [hs]
    rfl
  have hrender : Pass.render ⟨f.read, if last then none else some f.write, f.depth⟩ deltaTime
      ⟨.effect p, h.report (missingDepth f p)⟩ = (.ok (), ⟨.effect q, k⟩) := by
    show Pass.within Pass.effect p (EffectPass.render _ deltaTime) ⟨.effect p, h.report (missingDepth f p)⟩ = _
    unfold Pass.within
    rw [hr]
  unfold runPass
  rw [Act.bind_of_ok (Staged.get_apply _)]
  dsimp only
  rw [henabled, if_neg Bool.false_ne_true]
  show ∃ events, runColor deltaTime last f ⟨.effect p, h⟩ = _
  unfold runColor
  rw [Act.bind_of_ok (Staged.get_apply _)]
  dsimp only
  have hmissing : (if (f.depth.isNone && (Pass.effect p).attributes.readsDepth) = true then
      [Event.depthMissing (Pass.effect p).name] else []) = missingDepth f p := rfl
  rw [hterminal, hswap, report_if_bind]
  dsimp only
  rw [hmissing, Act.bind_of_ok hrender, Act.bind_of_ok (Staged.report_apply _ _)]
  cases last with
  | true => exact ⟨_, rfl⟩
  | false =>
    refine ⟨[.passRendered p.name false] ++ [.buffersSwapped], ?_⟩
    rw [← Host.report_report]
    rfl

/-- An effect pass of the frame draws once, and hands on what its members make of the picture. -/
theorem runPass_effect (r : Runs made p h.device c source) (hlocal : ∀ e ∈ p.effects, e.Local)
    (hs : p.settings = .swapping) (ready : FrameReady h f size picture depthAt) (hcentred : size.Centred)
    (deltaTime : Binary32) (depthNeeded last : Bool) :
    ∃ draw events q k, runPass deltaTime depthNeeded last f ⟨.effect p, h⟩ = (.ok (turned last f), ⟨.effect q, k⟩) ∧
      h.Advanced [⟨.drawFullscreen draw, .done⟩] events k ∧ k.device.programs = h.device.programs ∧
      Shown last k (turned last f) size
        (paint p.effects (placeAt (p.elapsed + deltaTime) deltaTime size depthAt) picture) depthAt := by
  have r' : Runs made p (h.report (missingDepth f p)).device c source := r
  obtain ⟨draw, k, hrender, adv, hprograms, hshown⟩ :=
    render_effect r' hlocal (ready.report (missingDepth f p)) hcentred deltaTime last
  obtain ⟨events, hrun⟩ := runPass_of_render_ok hs hrender depthNeeded
  have adv' := ((Host.advanced_report h (missingDepth f p)).trans adv).trans (Host.advanced_report k events)
  refine ⟨draw, _, _, k.report events, hrun, adv', hprograms, ?_⟩
  cases last with
  | true => exact hshown
  | false => exact FrameReady.report hshown events

/-! ## Effect passes up to the end of the frame -/

theorem runEntries_of_runPass_ok {entry : PipelineEntry} {entries : List PipelineEntry} {f' : FrameState}
    {deltaTime : Binary32} {depthNeeded : Bool} {pass : Pass}
    (h' : runPass deltaTime depthNeeded (!entries.any isPresenter) f ⟨entry.pass, h⟩ = (.ok f', ⟨pass, k⟩)) :
    runEntries deltaTime depthNeeded (entry :: entries) f h =
      ((runEntries deltaTime depthNeeded entries f' k).1,
        { entry with pass } :: (runEntries deltaTime depthNeeded entries f' k).2.1,
        (runEntries deltaTime depthNeeded entries f' k).2.2) := by
  rw [runEntries, h']

/-- Among effect passes that are left there is one that can present. -/
theorem any_isPresenter_of_effects {passes : List EffectPass} {entries : List PipelineEntry}
    (hentries : entries.map PipelineEntry.pass = passes.map Pass.effect) (hne : passes ≠ [])
    (hs : ∀ p ∈ passes, p.settings = .swapping) : entries.any isPresenter = true := by
  obtain ⟨p, passes, rfl⟩ := List.exists_cons_of_ne_nil hne
  cases entries with
  | nil => cases hentries
  | cons entry entries =>
    have hpass : entry.pass = .effect p := (List.cons.inj hentries).1
    have hpresenter : isPresenter entry = true := by
      unfold isPresenter
      rw [hpass]
      show (p.settings.enabled && true) = true
      rw [hs p List.mem_cons_self]
      rfl
    rw [List.any_cons, hpresenter, Bool.true_or]

/-- Effect passes at the end of a frame draw once each, and the screen shows what all their members in order make of the
picture. -/
theorem runEntries_effects {mades : List (List Effect)} {passes : List EffectPass} {entries : List PipelineEntry}
    (hentries : entries.map PipelineEntry.pass = passes.map Pass.effect) (hne : passes ≠ [])
    (prepared : List.Forall₂ (fun made p => EffectPass.Prepared made p h.device) mades passes)
    (hlocal : ∀ made ∈ mades, ∀ e ∈ made, e.Local)
    (hs : ∀ p ∈ passes, p.settings = .swapping) (helapsed : ∀ p ∈ passes, p.elapsed = elapsed)
    (ready : FrameReady h f size picture depthAt) (hcentred : size.Centred) (deltaTime : Binary32)
    (depthNeeded : Bool) :
    let result := runEntries deltaTime depthNeeded entries f h
    (∃ f', result.1 = .ok f') ∧
    (∃ (draws : List FullscreenDraw) (events : List Event), draws.length = passes.length ∧
      h.Advanced (draws.map fun draw => ⟨.drawFullscreen draw, .done⟩) events result.2.2) ∧
    result.2.2.device.screen.Like size ∧ result.2.2.device.screen.picture =
      paint (passes.flatMap EffectPass.effects) (placeAt (elapsed + deltaTime) deltaTime size depthAt) picture := by
  induction passes generalizing mades entries f h picture with
  | nil => exact absurd rfl hne
  | cons p passes ih =>
    cases entries with
    | nil => cases hentries
    | cons entry entries =>
      obtain ⟨made, mades, hp, hpasses, rfl⟩ := List.forall₂_cons_right_iff.1 prepared
      obtain ⟨hentry, hentries⟩ := List.cons.inj hentries
      have hpass : entry.pass = .effect p := hentry
      have hentries : entries.map PipelineEntry.pass = passes.map Pass.effect := hentries
      obtain ⟨c, source, r⟩ := hp.runs
      obtain ⟨draw, events, q, k, hrun, adv, hprograms, hshown⟩ :=
        runPass_effect r (Effect.local_of_sameProgram r.members (hlocal made List.mem_cons_self))
          (hs p List.mem_cons_self) ready hcentred deltaTime depthNeeded (!entries.any isPresenter)
      rw [← hpass] at hrun
      rw [runEntries_of_runPass_ok hrun]
      rw [helapsed p List.mem_cons_self] at hshown
      cases passes with
      | nil =>
        have hnil : entries = [] := List.map_eq_nil_iff.1 hentries
        subst hnil
        refine ⟨⟨_, rfl⟩, ⟨[draw], events, rfl, adv⟩, ?_⟩
        rw [List.flatMap_singleton]
        exact hshown
      | cons p' passes =>
        have hpresents : entries.any isPresenter = true :=
          any_isPresenter_of_effects hentries (List.cons_ne_nil _ _) fun q hq => hs q (List.mem_cons_of_mem _ hq)
        rw [hpresents] at hshown ⊢
        have prepared' : List.Forall₂ (fun made p => EffectPass.Prepared made p k.device) mades (p' :: passes) :=
          hpasses.imp fun _ _ hq => hq.elsewhere fun _ _ _ hprogram => hprograms ▸ hprogram
        obtain ⟨hrest, ⟨draws, events', hlength, adv'⟩, hlike, hpicture⟩ :=
          ih hentries (List.cons_ne_nil _ _) prepared' (fun m hm => hlocal m (List.mem_cons_of_mem _ hm))
            (fun q hq => hs q (List.mem_cons_of_mem _ hq)) (fun q hq => helapsed q (List.mem_cons_of_mem _ hq)) hshown
        refine ⟨hrest, ⟨draw :: draws, events ++ events', congrArg (· + 1) hlength, adv.trans adv'⟩, hlike, ?_⟩
        rw [List.flatMap_cons, paint_append]
        exact hpicture

/-! ## One pass or many -/

/-- The pass has one member, with an effect's present blend mode and values. -/
def HasOnly (e : Effect) (q : EffectPass) : Prop :=
  ∃ e', q.effects = [e'] ∧ e'.blend = e.blend ∧ e'.uniforms = e.uniforms

/-- Passes with one effect each mean what the members of one pass do, if blend modes and values are the same. -/
theorem forall₂_shade {es ps : List Effect} {qs : List EffectPass} {d : Device}
    (members : List.Forall₂ Effect.SameProgram es ps)
    (prepared : List.Forall₂ (fun e q => EffectPass.Prepared [e] q d) es qs)
    (current : List.Forall₂ HasOnly ps qs) :
    List.Forall₂ (fun e e' => Effect.shade e' = Effect.shade e) ps (qs.flatMap EffectPass.effects) := by
  induction members generalizing qs with
  | nil =>
    cases prepared
    exact .nil
  | cons same _ ih =>
    cases prepared with
    | cons hq prepared =>
      cases current with
      | cons hcurrent current =>
        obtain ⟨e', heffects, hblend, huniforms⟩ := hcurrent
        obtain ⟨c, source, r⟩ := hq.runs
        have members := r.members
        rw [heffects] at members
        have same' := (List.forall₂_cons.1 members).1
        rw [List.flatMap_cons, heffects]
        exact .cons (Effect.shade_congr (same'.kernel_eq.trans same.kernel_eq.symm) hblend huniforms)
          (ih prepared current)

/-- Fusion keeps the meaning of effects.  Take effects whose kernels do not look at the input buffer, one pass with all
of them and as many passes with one of them each, all set up for full precision and alpha and with their programs built;
then let every pass be used quietly, so that blend modes and values may be any, but the same here and there.  At points
of a frame where both screens and all buffers have one size and full precision, the read buffers show the same picture,
the depths are the same, and the places of texels' centres are in these texels, both ways succeed and show the same
picture on the screen; and the one pass gives the device one command, which is a draw. -/
theorem fused_eq_sequential {es : List Effect} {p : EffectPass} {qs : List EffectPass} {g : FrameState}
    {entries : List PipelineEntry} (hne : es ≠ []) (hlocal : ∀ e ∈ es, e.Local)
    (hp : EffectPass.Prepared es p h.device)
    (hqs : List.Forall₂ (fun e q => EffectPass.Prepared [e] q k.device) es qs)
    (hcurrent : List.Forall₂ HasOnly p.effects qs)
    (hsettings : ∀ q ∈ p :: qs, q.settings = .swapping) (helapsed : ∀ q ∈ qs, q.elapsed = p.elapsed)
    (hh : FrameReady h f h.device.screen picture depthAt) (hk : FrameReady k g h.device.screen picture depthAt)
    (hcentred : h.device.screen.Centred) (hentries : entries.map PipelineEntry.pass = qs.map Pass.effect)
    (number : Nat) (deltaTime : Binary32) (depthNeeded : Bool) :
    let fused := runEntries deltaTime depthNeeded [⟨number, .effect p⟩] f h
    let sequential := runEntries deltaTime depthNeeded entries g k
    (∃ f', fused.1 = .ok f') ∧ (∃ g', sequential.1 = .ok g') ∧
    fused.2.2.device.screen.SameSize sequential.2.2.device.screen ∧
    fused.2.2.device.screen.picture = sequential.2.2.device.screen.picture ∧
    ∃ draw, h.issuedSince fused.2.2 = [⟨.drawFullscreen draw, .done⟩] := by
  intro fused sequential
  obtain ⟨c, source, r⟩ := hp.runs
  have hnonempty : qs ≠ [] := by
    rintro rfl
    cases hqs
    exact hne rfl
  have hsingles : List.Forall₂ (fun made q => EffectPass.Prepared made q k.device) (es.map fun e => [e]) qs :=
    List.forall₂_map_left_iff.2 hqs
  have hlocals : ∀ made ∈ es.map fun e => [e], ∀ e ∈ made, e.Local := by
    intro made hmade e he
    obtain ⟨x, hx, rfl⟩ := List.mem_map.1 hmade
    rw [List.mem_singleton.1 he]
    exact hlocal x hx
  have hentry : [(⟨number, .effect p⟩ : PipelineEntry)].map PipelineEntry.pass = [p].map Pass.effect := rfl
  obtain ⟨hf, ⟨draws, events, hlength, adv⟩, hlike, hpicture⟩ :=
    runEntries_effects hentry (List.cons_ne_nil _ _) (.cons hp .nil) (fun _ hm => List.mem_singleton.1 hm ▸ hlocal)
      (fun _ hq => List.mem_singleton.1 hq ▸ hsettings p List.mem_cons_self)
      (fun _ hq => congrArg EffectPass.elapsed (List.mem_singleton.1 hq)) hh hcentred deltaTime depthNeeded
  obtain ⟨hg, -, hlike', hpicture'⟩ :=
    runEntries_effects hentries hnonempty hsingles hlocals (fun q hq => hsettings q (List.mem_cons_of_mem _ hq))
      helapsed hk hcentred deltaTime depthNeeded
  refine ⟨hf, hg, ?_, ?_, ?_⟩
  · exact ⟨hlike.sameSize.width.trans hlike'.sameSize.width.symm,
      hlike.sameSize.height.trans hlike'.sameSize.height.symm⟩
  · have hpaint := paint_congr (forall₂_shade r.members hqs hcurrent)
      (placeAt (p.elapsed + deltaTime) deltaTime h.device.screen depthAt) picture
    rw [List.flatMap_singleton] at hpicture
    exact (hpicture.trans hpaint.symm).trans hpicture'.symm
  · obtain ⟨draw, rfl⟩ := List.length_eq_one_iff.1 hlength
    exact ⟨draw, adv.issuedSince_eq⟩

/-! ## Two tints -/

/-- An effect that computes the value of its uniform. -/
def tinted (id : Nat) (tint : Rgba Float32) (f : BlendFunction) : Effect :=
  (((Effect.create id "tint" "fn main_image").setKernel ⟨1, fun i => i.vec4 "tint"⟩).setUniform "tint"
    (.ofFloats tint)).setBlend f

/-- A red effect. -/
def redTint : Effect := tinted 1 ⟨1, 0, 0, 1⟩ .normal

/-- A green effect that is added to what there is. -/
def greenTint : Effect := tinted 2 ⟨0, 1, 0, 1⟩ .add

/-- A new pass with effects. -/
def newPass (effects : List Effect) : EffectPass :=
  (EffectPass.configure ⟨true, .full⟩ ⟨((EffectPass.create "fx" effects).toOption).getD default, default⟩).2.stage

/-- New passes and their host after their pipeline has compiled. -/
def compiled (passes : List EffectPass) : Except Error Unit × List PipelineEntry × Host :=
  prepareEntries (passes.map fun q => ⟨0, .effect q⟩) (.ofDevice (.create 1 1 [] false))

/-- The host with a screen and two buffers of one texel. -/
def withBuffers (h : Host) : Host :=
  { h with
    armed := []
    device := { h.device with
      screen := .create 1 1 .full false
      targets := (Table.empty.insert 1 (.create 1 1 .full false)).insert 2 (.create 1 1 .full false) } }

/-- A frame of passes whose pipeline has compiled. -/
def frame (passes : List EffectPass) : Except Error FrameState × List PipelineEntry × Host :=
  runEntries .zero false (compiled passes).2.1 ⟨1, 2, none, false⟩ (withBuffers (compiled passes).2.2)

theorem frameReady_withBuffers (h k : Host) :
    FrameReady (withBuffers h) ⟨1, 2, none, false⟩ (withBuffers k).device.screen [.transparent] fun _ => 1 where
  armed := rfl
  screen := ⟨.refl _, rfl⟩
  read := ⟨.create 1 1 .full false, rfl, ⟨.refl _, rfl⟩, rfl⟩
  write := ⟨.create 1 1 .full false, rfl, ⟨.refl _, rfl⟩⟩
  depth := nofun
  noDepth := fun _ _ => rfl

theorem compiled_newPasses {mades : List (List Effect)} {passes : List EffectPass}
    (hnew : List.Forall₂ NewPass mades passes) (hok : (compiled passes).1.toOption = some ()) :
    ∃ ready : List EffectPass, (compiled passes).2.1.map PipelineEntry.pass = ready.map Pass.effect ∧
      List.Forall₂ (fun made p => JustCompiled made p (withBuffers (compiled passes).2.2).device) mades ready := by
  have hentries : (passes.map fun q => (⟨0, .effect q⟩ : PipelineEntry)).map PipelineEntry.pass =
      passes.map Pass.effect := by
    rw [List.map_map]
    rfl
  rcases hc : compiled passes with ⟨e | u, entries, k⟩
  · rw [hc] at hok
    cases hok
  · obtain ⟨-, ready, hready, hcompiled⟩ := compiled_of_prepareEntries hentries hnew hc
    refine ⟨ready, hready, hcompiled.imp ?_⟩
    intro made p hp
    exact ⟨hp.prepared.elsewhere fun _ _ _ hfound => hfound, hp.effects, hp.settings, hp.elapsed⟩

theorem centred_one : (Plane.create 1 1 .full false).Centred := by
  intro i hi
  have hi : i = 0 := Nat.lt_one_iff.1 hi
  subst hi
  decide +kernel

/-- A red effect and a green one show the same in one pass and in two. -/
theorem fused_eq_sequential_tints :
    let one := frame [newPass [redTint, greenTint]]
    let two := frame [newPass [redTint], newPass [greenTint]]
    (∃ f, one.1 = .ok f) ∧ (∃ g, two.1 = .ok g) ∧ one.2.2.device.screen.picture = two.2.2.device.screen.picture := by
  have hlocal : ∀ e ∈ [redTint, greenTint], e.Local := by
    simp only [List.forall_mem_cons]
    refine ⟨?_, ?_, List.forall_mem_nil _⟩
    all_goals
      rintro k ⟨⟩ i sample
      rfl
  have hone : List.Forall₂ NewPass [[redTint, greenTint]] [newPass [redTint, greenTint]] :=
    .cons ⟨"fx", _, default, rfl, rfl⟩ .nil
  have htwo : List.Forall₂ NewPass [[redTint], [greenTint]] [newPass [redTint], newPass [greenTint]] :=
    .cons ⟨"fx", _, default, rfl, rfl⟩ (.cons ⟨"fx", _, default, rfl, rfl⟩ .nil)
  obtain ⟨ready, hready, hcompiled⟩ := compiled_newPasses hone (by decide +kernel)
  obtain ⟨ready', hready', hcompiled'⟩ := compiled_newPasses htwo (by decide +kernel)
  obtain ⟨p, _, hp, hnil, rfl⟩ := List.forall₂_cons_left_iff.1 hcompiled
  cases hnil
  obtain ⟨q, _, hq, hrest, rfl⟩ := List.forall₂_cons_left_iff.1 hcompiled'
  obtain ⟨q', _, hq', hnil, rfl⟩ := List.forall₂_cons_left_iff.1 hrest
  cases hnil
  obtain ⟨⟨number, pass⟩, hentries, hpass⟩ := List.map_eq_singleton_iff.1 hready
  have hpass : pass = .effect p := hpass
  have hcurrent : List.Forall₂ HasOnly p.effects [q, q'] := by
    rw [hp.effects]
    exact .cons ⟨_, hq.effects, rfl, rfl⟩ (.cons ⟨_, hq'.effects, rfl, rfl⟩ .nil)
  have hsettings : ∀ x ∈ [p, q, q'], x.settings = .swapping := by
    simp only [List.forall_mem_cons]
    exact ⟨hp.settings, hq.settings, hq'.settings, List.forall_mem_nil _⟩
  have helapsed : ∀ x ∈ [q, q'], x.elapsed = p.elapsed := by
    simp only [List.forall_mem_cons]
    exact ⟨hq.elapsed.trans hp.elapsed.symm, hq'.elapsed.trans hp.elapsed.symm, List.forall_mem_nil _⟩
  have same := fused_eq_sequential (List.cons_ne_nil _ _) hlocal hp.prepared
    (.cons hq.prepared (.cons hq'.prepared .nil)) hcurrent hsettings helapsed (frameReady_withBuffers _ _)
    (frameReady_withBuffers _ _) centred_one hready' number .zero false
  unfold frame
  rw [hentries, hpass]
  exact ⟨same.1, same.2.1, same.2.2.2.1⟩

end Pipeline

end ScreenFusion
