import ScreenFusion.Proofs.Device.Coat
import ScreenFusion.Proofs.Pass.Forcing
import ScreenFusion.Proofs.Pipeline.DepthSupply
import ScreenFusion.Proofs.Pipeline.Roster

/-!
# ScreenFusion.Proofs.Pipeline.Opacity — which texels of the screen a frame leaves translucent

A pipeline without an alpha channel has its programs force alpha.  Nothing else of a frame does: a pass that clears or
that draws a scene leaves the alpha of its colours, and a program that was kept after a build that failed can be one
with an alpha channel.  So what matters is which pass is the last to paint a texel of the screen.

* `Host.Coats`: the commands between two states of a host are what has painted the screen.
* `Turn.coat`, `lastCoat`: what a turn paints, and the last turn that paints a texel.
* `Turn.Rendered.coats`, `Plays.coated`: turns, and passes in order, leave the screen so.
* `Turn.Forces`, `Turn.Forces.alpha`: turns that paint no translucent texel.
* `solid_iff`: the screen after a frame.
-/

namespace ScreenFusion

open Holder Staged

/-! ## Commands of a host -/

namespace Host

variable {h k : Host}

/-- What the calls paint on the screen of a device. -/
def coatOf (d : Device) (calls : List Call) (i : Nat) : Option (Rgba Float32) :=
  calls.findSome? fun c => d.coat c.command i

/-- The screen of the second host is that of the first with what has been painted in between. -/
def Coats (h k : Host) : Prop := h.device.screen.Coated (coatOf h.device (h.issuedSince k)) k.device.screen

theorem Coats.refl (h : Host) : h.Coats h := by
  unfold Coats
  rw [(Advanced.refl h).issuedSince_eq]
  exact .refl h.device.screen

theorem coats_of_issue_ok {α : Type} {command : Command} {answer : α → Answer} {run : Act Device α} {a : α}
    (hi : issue command answer run h = (.ok a, k))
    (hc : h.device.screen.Coated (h.device.coat command) k.device.screen) : h.Coats k := by
  unfold Coats
  rw [(advanced_of_issue_ok hi).issuedSince_eq]
  refine fun i => (hc i).trans ?_
  unfold coatOf
  rw [List.findSome?_cons]
  cases h.device.coat command i <;> rfl

theorem coats_of_clear_ok {target : Option Nat} {color : Option (Rgba Float32)} {depth : Option Float32}
    (hc : clear target color depth h = (.ok (), k)) : h.Coats k :=
  coats_of_issue_ok hc (Device.coated_clear (run_of_issue_ok hc))

theorem coats_of_renderScene_ok {draw : SceneDraw} (hr : renderScene draw h = (.ok (), k)) : h.Coats k :=
  coats_of_issue_ok hr (Device.coated_renderScene (run_of_issue_ok hr))

theorem coats_of_drawFullscreen_ok {draw : FullscreenDraw} (hd : drawFullscreen draw h = (.ok (), k)) : h.Coats k :=
  coats_of_issue_ok hd (Device.coated_drawFullscreen (run_of_issue_ok hd))

end Host

/-! ## Passes -/

namespace Pass

variable {p : Pass} {h : Host} {s : Staged Pass} {io : PassIo} {deltaTime : Binary32} {n : Nat}

theorem parts_of_within_ok {P α : Type} (wrap : P → Pass) (q : P) (x : Act (Staged P) α) {a : α}
    (hw : within wrap q x ⟨p, h⟩ = (.ok a, s)) : ∃ q', x ⟨q, h⟩ = (.ok a, ⟨q', s.host⟩) := by
  unfold within at hw
  rcases hx : x ⟨q, h⟩ with ⟨r, q', k⟩
  rw [hx] at hw
  cases hw
  exact ⟨q', rfl⟩

/-- The render of a pass that is ready and has a program is a draw of that program. -/
theorem draw_of_render_ok (ready : p.builder.Ready) (hn : program? p = some n)
    (hr : render io deltaTime ⟨p, h⟩ = (.ok (), s)) :
    ∃ draw, draw.program = n ∧ Host.drawFullscreen draw h = (.ok (), s.host) := by
  cases p with
  | material p =>
    obtain ⟨c, hc, rfl⟩ := Option.map_eq_some_iff.1 hn
    obtain ⟨q, hq⟩ := parts_of_within_ok material p (MaterialPass.render io deltaTime) hr
    rw [MaterialPass.render_of_ready ready hc] at hq
    obtain ⟨hok, hs⟩ := Prod.ext_iff.1 hq
    exact ⟨_, rfl, Prod.ext hok (congrArg Staged.host hs)⟩
  | effect p =>
    obtain ⟨c, hc, rfl⟩ := Option.map_eq_some_iff.1 hn
    have kept : p.Kept c := ⟨ready.live, ready.clean, hc⟩
    obtain ⟨q, hq⟩ := parts_of_within_ok effect p (EffectPass.render io deltaTime) hr
    rw [kept.render_eq] at hq
    obtain ⟨hok, hs⟩ := Prod.ext_iff.1 hq
    exact ⟨_, rfl, Prod.ext hok (congrArg Staged.host hs)⟩
  | _ => cases hn

theorem exists_program_of_ready (ready : p.builder.Ready) (ho : p.options?.isSome = true) :
    ∃ n, program? p = some n := by
  have made {C : Type} {compiled : Option C} (program : C → Nat) (hc : compiled.isSome = true) :
      ∃ n, compiled.map program = some n := by
    obtain ⟨c, rfl⟩ := Option.isSome_iff_exists.1 hc
    exact ⟨program c, rfl⟩
  cases p with
  | material p => exact made CompiledMaterial.program ready.compiled
  | effect p => exact made CompiledEffects.program ready.compiled
  | _ => cases ho

end Pass

namespace Pipeline

variable {deltaTime : Binary32} {depthNeeded : Bool} {f f' : FrameState} {h k : Host} {es : List PipelineEntry}
  {turns : List Turn} {i : Nat} {c : Rgba Float32}

/-! ## Turns -/

namespace Turn

variable {t : Turn}

/-- The colour that the turn leaves on a texel of the screen, if it paints it. -/
def coat (t : Turn) : Nat → Option (Rgba Float32) := Host.coatOf t.start.device (t.start.issuedSince t.finish.host)

theorem Rendered.coats (hr : t.Rendered deltaTime) (ready : t.pass.builder.Ready) : t.start.Coats t.finish.host := by
  obtain ⟨p, io, h, s⟩ := t
  have hr : Pass.render io deltaTime ⟨p, h⟩ = (.ok (), s) := hr
  show h.Coats s.host
  cases p with
  | clear p =>
    obtain ⟨q, hq⟩ := Pass.parts_of_within_ok .clear p (ClearPass.render io) hr
    unfold ClearPass.render at hq
    rw [Act.bind_of_ok (get_apply _)] at hq
    split at hq
    · cases hq
      exact .refl _
    · obtain ⟨hok, hs⟩ := Prod.ext_iff.1 hq
      exact Host.coats_of_clear_ok (Prod.ext hok (congrArg Staged.host hs))
  | scene p =>
    obtain ⟨q, hq⟩ := Pass.parts_of_within_ok .scene p (ScenePass.render io) hr
    unfold ScenePass.render at hq
    rw [Act.bind_of_ok (get_apply _)] at hq
    obtain ⟨hok, hs⟩ := Prod.ext_iff.1 hq
    exact Host.coats_of_renderScene_ok (Prod.ext hok (congrArg Staged.host hs))
  | depth p =>
    -- the commands of a depth pass paint nothing, and its buffer is not the screen
    obtain ⟨target, ht, -, adv⟩ := Pass.render_depth_ok hr
    have hdest : destination ⟨.depth p, io, h, s⟩ = some target := ht
    have writes := Rendered.writesOnly (t := ⟨.depth p, io, h, s⟩) hr
    have hplane : s.host.device.plane none = h.device.plane none := writes.planes none (hdest ▸ nofun)
    have hscreen : s.host.device.screen = h.device.screen := Except.ok.inj hplane
    unfold Host.Coats
    rw [adv.issuedSince_eq, hscreen]
    exact .refl h.device.screen
  | material p =>
    obtain ⟨n, hn⟩ := Pass.exists_program_of_ready ready rfl
    obtain ⟨draw, -, hd⟩ := Pass.draw_of_render_ok ready hn hr
    exact Host.coats_of_drawFullscreen_ok hd
  | effect p =>
    obtain ⟨n, hn⟩ := Pass.exists_program_of_ready ready rfl
    obtain ⟨draw, -, hd⟩ := Pass.draw_of_render_ok ready hn hr
    exact Host.coats_of_drawFullscreen_ok hd

/-- The pass of the turn runs a program that forces alpha. -/
def Forces (t : Turn) : Prop := ∃ n, program? t.pass = some n ∧ t.start.device.Forces n true

/-- Such a turn paints no translucent texel. -/
theorem Forces.alpha (forces : t.Forces) (hr : t.Rendered deltaTime) (ready : t.pass.builder.Ready)
    (hc : t.coat i = some c) : c.a = 1 := by
  obtain ⟨n, hn, hf⟩ := forces
  obtain ⟨draw, rfl, hd⟩ := Pass.draw_of_render_ok ready hn hr
  unfold coat at hc
  rw [(Host.advanced_of_issue_ok hd).issuedSince_eq] at hc
  obtain ⟨call, hcall, hc⟩ := List.exists_of_findSome?_eq_some hc
  cases List.mem_singleton.1 hcall
  exact Device.alpha_of_forces hf.found hc

end Turn

/-! ## Passes in order -/

/-- The last of the turns that paints a texel of the screen, and the colour that it leaves there. -/
def lastCoat : List Turn → Nat → Option (Turn × Rgba Float32)
  | [], _ => none
  | t :: turns, i => lastCoat turns i <|> (t.coat i).map (t, ·)

theorem map_snd_lastCoat_cons (t : Turn) (turns : List Turn) (i : Nat) :
    (lastCoat (t :: turns) i).map Prod.snd = ((lastCoat turns i).map Prod.snd <|> t.coat i) := by
  rw [lastCoat]
  cases lastCoat turns i <;> cases t.coat i <;> rfl

theorem mem_of_lastCoat {t : Turn} (hl : lastCoat turns i = some (t, c)) : t ∈ turns ∧ t.coat i = some c := by
  induction turns with
  | nil => cases hl
  | cons u turns ih =>
    rw [lastCoat] at hl
    cases hrest : lastCoat turns i with
    | some last =>
      rw [hrest] at hl
      cases hl
      exact ⟨List.mem_cons_of_mem _ (ih hrest).1, (ih hrest).2⟩
    | none =>
      rw [hrest] at hl
      obtain ⟨c', hc', heq⟩ := Option.map_eq_some_iff.1 hl
      cases heq
      exact ⟨List.mem_cons_self, hc'⟩

/-- Passes that are run in order leave on each texel of the screen what the last turn that paints it leaves there. -/
theorem Plays.coated (plays : Plays deltaTime depthNeeded es f h turns f' k) (ready : ReadyToRun es) :
    h.device.screen.Coated (fun i => (lastCoat turns i).map Prod.snd) k.device.screen := by
  have first {e : PipelineEntry} {io : PassIo} {h k : Host} {s : Staged Pass}
      {turns : List Turn} (hready : e.pass.builder.Ready) (hr : Turn.Rendered deltaTime ⟨e.pass, io, h, s⟩)
      (rest : s.host.device.screen.Coated (fun i => (lastCoat turns i).map Prod.snd) k.device.screen) :
      h.device.screen.Coated (fun i => (lastCoat (⟨e.pass, io, h, s⟩ :: turns) i).map Prod.snd) k.device.screen := by
    simp only [map_snd_lastCoat_cons]
    exact (hr.coats hready).trans rest
  induction plays with
  | nil => exact .refl _
  | skip _ _ ih => exact ih (List.forall_mem_cons.1 ready).2
  | depth henabled _ _ _ hr _ ih =>
    obtain ⟨hready, hrest⟩ := List.forall_mem_cons.1 ready
    exact first (hready henabled) hr (ih hrest)
  | color henabled _ hr _ ih =>
    obtain ⟨hready, hrest⟩ := List.forall_mem_cons.1 ready
    exact first (hready henabled) hr (ih hrest)

/-! ## Frames -/

/-- In a pipeline without an alpha channel, a pass that runs the program of a build that succeeded runs one that forces
alpha. -/
theorem Turn.Taken.forces {t : Turn} {p : Pipeline} (taken : t.Taken deltaTime p.entries) (tallied : Tallied p)
    (ready : t.pass.builder.Ready) (halpha : p.options.alpha = false) (ho : t.pass.options?.isSome = true)
    (he : t.pass.builder.lastError = none) : t.Forces := by
  obtain ⟨e, hmem, hpass, -⟩ := taken.entry
  obtain ⟨o, ho'⟩ := Option.isSome_iff_exists.1 ho
  obtain ⟨n, hn⟩ := Pass.exists_program_of_ready ready ho
  have hsetup : o = p.setup.options := tallied.options e hmem o (hpass ▸ ho')
  have forces := taken.used.forces_of_ready ready he ho' hn
  have hforced : (!o.alpha) = true := by
    rw [hsetup]
    show (!p.options.alpha) = true
    rw [halpha]
    rfl
  rw [hforced] at forces
  exact ⟨n, hn, forces⟩

/-- After a frame that succeeds, a texel of the screen has the colour that the last turn to paint it left there, or has
not been painted.  In a pipeline without an alpha channel the turns of passes that run programs force alpha, except for
a program that is kept after a build that failed.  So all texels that have been painted are solid exactly if those are
that a pass without such a program was the last to paint. -/
theorem solid_iff {s t : Staged Pipeline} (used : Used s) (halpha : s.stage.options.alpha = false)
    (hr : render deltaTime s = (.ok (), t)) :
    ∃ turns, Performs deltaTime s t turns ∧
      s.host.device.screen.Coated (fun i => (lastCoat turns i).map Prod.snd) t.host.device.screen ∧
      (∀ turn ∈ turns, turn.pass.options?.isSome = true → turn.pass.builder.lastError = none → turn.Forces) ∧
      ((∀ i < s.host.device.screen.texels, ∀ turn c, lastCoat turns i = some (turn, c) → c.a = 1) ↔
        ∀ i < s.host.device.screen.texels, ∀ turn c, lastCoat turns i = some (turn, c) → ¬turn.Forces → c.a = 1) := by
  obtain ⟨turns, performs⟩ := performs_of_render_ok hr
  obtain ⟨read, write, ready, host, f, hb, hprepare, plays⟩ := performs
  have readies := readies_of_prepareEntries hprepare
  have readyToRun := readyToRun_of_madeReady readies.madeReady
  have allUsed : AllUsed ready host := readies.onwards.used used.pass
  have tallied : Tallied { s.stage with entries := ready } := used.tallied.follows rfl rfl readies.follows
  have taken (turn : Turn) (hturn : turn ∈ turns) : turn.Taken deltaTime ready := plays.taken allUsed turn hturn
  have turnReady (turn : Turn) (hturn : turn ∈ turns) : turn.pass.builder.Ready := by
    obtain ⟨e, hmem, hpass, henabled⟩ := (taken turn hturn).entry
    exact hpass ▸ readyToRun e hmem henabled
  have hscreen : host.device.screen = s.host.device.screen := Except.ok.inj (readies.plane_eq none)
  refine ⟨turns, ⟨read, write, ready, host, f, hb, hprepare, plays⟩, ?_, fun turn hturn ho he => ?_, ?_⟩
  · rw [← hscreen]
    exact plays.coated readyToRun
  · exact (taken turn hturn).forces tallied (turnReady turn hturn) halpha ho he
  · refine ⟨fun hall i hi turn c hl _ => hall i hi turn c hl, fun hothers i hi turn c hl => ?_⟩
    obtain ⟨hturn, hcoat⟩ := mem_of_lastCoat hl
    by_cases forces : turn.Forces
    · exact forces.alpha (taken turn hturn).rendered (turnReady turn hturn) hcoat
    · exact hothers i hi turn c hl forces

/-- A new pipeline without an alpha channel, with passes. -/
def withoutAlpha (passes : List Pass) : Staged Pipeline :=
  match create { (default : PipelineOptions) with alpha := false } (.ofDevice (Device.create 1 1 [] false)) with
  | (.ok p, h) => after (passes.map fun pass => .addPass pass none) ⟨p, h⟩
  | (.error _, h) => ⟨default, h⟩

theorem used_withoutAlpha {passes : List Pass} (made : ∀ p ∈ passes, p.Made) : Used (withoutAlpha passes) := by
  have hok : (create { (default : PipelineOptions) with alpha := false }
      (.ofDevice (Device.create 1 1 [] false))).1.toOption.isSome = true := by decide +kernel
  unfold withoutAlpha
  rcases hc : create { (default : PipelineOptions) with alpha := false }
    (.ofDevice (Device.create 1 1 [] false)) with ⟨e | p, h⟩ <;> rw [hc] at hok
  · cases hok
  · exact Used.addPasses (.created hc) made

/-- An effect whose colour is translucent. -/
def glaze : Effect := (Effect.create 1 "glaze" "fn main_image").setKernel ⟨2, fun _ => ⟨1, 0, 0, 0⟩⟩

/-- A pass with the effect. -/
def glazed : List Pass := [.effect ((EffectPass.create "fx" [glaze]).toOption.getD default)]

theorem used_glazed : Used (withoutAlpha glazed) := by
  have glaze_made : glaze.Made := .changed (.kernel _) (.created 1 "glaze" "fn main_image")
  refine used_withoutAlpha fun p hp => ?_
  cases List.mem_singleton.1 hp
  exact .effect (fun _ he => List.mem_singleton.1 he ▸ glaze_made) (List.nodup_singleton _) rfl

/-- The program forces alpha, and what it leaves on the screen is solid. -/
theorem solid_glazed : Used (withoutAlpha glazed) ∧ ∃ t turns turn c,
    render .zero (withoutAlpha glazed) = (.ok (), t) ∧ Performs .zero (withoutAlpha glazed) t turns ∧
    t.host.device.screen.picture = [⟨1, 0, 0, 1⟩] ∧ lastCoat turns 0 = some (turn, c) ∧ turn.Forces ∧ c.a = 1 := by
  have used := used_glazed
  have halpha : (withoutAlpha glazed).stage.options.alpha = false := by decide +kernel
  have hok : (render .zero (withoutAlpha glazed)).1.toOption.isSome = true := by decide +kernel
  have hbefore : (withoutAlpha glazed).host.device.screen.picture = [.transparent] := by decide +kernel
  have hafter : (render .zero (withoutAlpha glazed)).2.host.device.screen.picture = [⟨1, 0, 0, 1⟩] := by decide +kernel
  have hbuilt : ((prepareEntries (withoutAlpha glazed).stage.entries (withoutAlpha glazed).host).2.1.all fun e =>
      e.pass.options?.isSome && e.pass.builder.lastError.isNone) = true := by decide +kernel
  have hchanged : ([.transparent] : List (Rgba Float32)) ≠ [⟨1, 0, 0, 1⟩] := by decide +kernel
  refine ⟨used, ?_⟩
  rcases hr : render .zero (withoutAlpha glazed) with ⟨e | _, t⟩ <;> rw [hr] at hok hafter
  · cases hok
  · obtain ⟨turns, performs, coated, forced, hiff⟩ := solid_iff used halpha hr
    have forces (turn : Turn) (hturn : turn ∈ turns) : turn.Forces := by
      obtain ⟨read, write, ready, host, f, -, hprepare, plays⟩ := performs
      rw [hprepare] at hbuilt
      have allUsed : AllUsed ready host := (readies_of_prepareEntries hprepare).onwards.used used.pass
      obtain ⟨e, he, hpass, -⟩ := (plays.taken allUsed turn hturn).entry
      obtain ⟨hruns, hnone⟩ := Bool.and_eq_true_iff.1 (List.all_eq_true.1 hbuilt e he)
      rw [hpass] at hruns hnone
      exact forced turn hturn hruns (Option.isNone_iff_eq_none.1 hnone)
    have hone : 0 < (withoutAlpha glazed).host.device.screen.texels :=
      Nat.mul_pos (withoutAlpha glazed).host.device.screen.width_pos (withoutAlpha glazed).host.device.screen.height_pos
    have hfirst := coated 0
    rw [hbefore, hafter] at hfirst
    dsimp only at hfirst
    cases hlast : lastCoat turns 0 with
    | none =>
      rw [hlast] at hfirst
      exact absurd (congrArg Option.toList hfirst).symm hchanged
    | some last =>
      obtain ⟨turn, c⟩ := last
      have solid := hiff.2 (fun i _ turn c hl hno => absurd (forces turn (mem_of_lastCoat hl).1) hno)
      exact ⟨t, turns, turn, c, rfl, performs, hafter, hlast, forces turn (mem_of_lastCoat hlast).1,
        solid 0 hone turn c hlast⟩

/-- A pass that clears the screen to a translucent colour. -/
def wiped : List Pass := [.clear (ClearPass.create (some ⟨1, 0, 0, 0⟩) true)]

/-- In a pipeline without an alpha channel it leaves the screen translucent. -/
theorem wiped_translucent : Used (withoutAlpha wiped) ∧ (withoutAlpha wiped).stage.options.alpha = false ∧
    ∃ t, render .zero (withoutAlpha wiped) = (.ok (), t) ∧
      (withoutAlpha wiped).host.issuedSince t.host = [⟨.clear none (some ⟨1, 0, 0, 0⟩) (some 1), .done⟩] ∧
      t.host.device.screen.picture = [⟨1, 0, 0, 0⟩] := by
  have used : Used (withoutAlpha wiped) :=
    used_withoutAlpha fun p hp => List.mem_singleton.1 hp ▸ .clear (some ⟨1, 0, 0, 0⟩) true
  have halpha : (withoutAlpha wiped).stage.options.alpha = false := by decide +kernel
  have hok : (render .zero (withoutAlpha wiped)).1.toOption.isSome = true := by decide +kernel
  have hissued : (withoutAlpha wiped).host.issuedSince (render .zero (withoutAlpha wiped)).2.host =
      [⟨.clear none (some ⟨1, 0, 0, 0⟩) (some 1), .done⟩] := by decide +kernel
  have hafter : (render .zero (withoutAlpha wiped)).2.host.device.screen.picture = [⟨1, 0, 0, 0⟩] := by decide +kernel
  refine ⟨used, halpha, ?_⟩
  rcases hr : render .zero (withoutAlpha wiped) with ⟨e | _, t⟩ <;> rw [hr] at hok hissued hafter
  · cases hok
  · exact ⟨t, rfl, hissued, hafter⟩

end Pipeline

end ScreenFusion
