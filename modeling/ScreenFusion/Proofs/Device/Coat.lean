import ScreenFusion.Proofs.Device.Draw

/-!
# ScreenFusion.Proofs.Device.Coat — what commands paint on the screen

A command that writes colours paints some texels of one buffer, and leaves the others.  What it paints on the screen is
read off the device before it: the colour of a clear, the fragments of a scene and its background, or what a program
makes of each texel.  The colours are stored in the precision of the screen.

* `Plane.Coated`: a plane with some texels painted over.
* `Device.coat`: what a command paints on the screen.
* `Device.coated_clear`, `Device.coated_renderScene`, `Device.coated_drawFullscreen`: commands that succeed paint it.
* `Device.alpha_of_forces`: a program that forces alpha paints no translucent texel.
-/

namespace ScreenFusion

/-- An act in two parts that succeeds is one whose parts do. -/
theorem Act.parts_of_bind_ok {σ α β : Type} {x : Act σ α} {f : α → Act σ β} {s u : σ} {b : β}
    (h : (x >>= f) s = (.ok b, u)) : ∃ a t, x s = (.ok a, t) ∧ f a t = (.ok b, u) := by
  rcases hx : x s with ⟨e | a, t⟩
  · cases (Act.bind_of_error hx).symm.trans h
  · exact ⟨a, t, rfl, (Act.bind_of_ok hx).symm.trans h⟩

/-- One can be stored in any precision. -/
theorem Precision.quantize_one (p : Precision) : p.quantize 1 = 1 := by cases p <;> decide +kernel

namespace Plane

variable {p q r : Plane} {f g : Nat → Option (Rgba Float32)}

/-- The second plane shows the first with some texels painted over. -/
def Coated (p : Plane) (f : Nat → Option (Rgba Float32)) (q : Plane) : Prop :=
  ∀ i, q.picture[i]? = (p.picture[i]?).map fun c => (f i).getD c

theorem Coated.refl (p : Plane) : p.Coated (fun _ => none) p := fun _ => Option.map_id'.symm

/-- Of two coats the second is seen where there is one. -/
theorem Coated.trans (hp : p.Coated f q) (hq : q.Coated g r) : p.Coated (fun i => g i <|> f i) r := by
  intro i
  rw [hq i, hp i, Option.map_map]
  refine congrArg (Option.map · _) (funext fun c => ?_)
  cases hg : g i <;> simp [hg]

theorem coated_mapColor (p : Plane) (f : Nat → Option (Rgba Float32)) :
    p.Coated (fun i => (f i).map (Rgba.quantize p.precision)) (p.mapColor fun i _ => f i) := by
  intro i
  show (p.color.mapIdx fun i c => ((f i).map (Rgba.quantize p.precision)).getD c).toList[i]? = p.color.toList[i]?.map _
  rw [Vector.getElem?_toList, Vector.getElem?_toList, Vector.getElem?_mapIdx]

theorem coated_mapDepth (p : Plane) (f : Nat → Float32 → Float32) : p.Coated (fun _ => none) (p.mapDepth f) :=
  Coated.refl p

/-- A plane filled with a colour and a depth, each if given. -/
def filled (p : Plane) (color : Option (Rgba Float32)) (depth : Option Float32) : Plane :=
  let p := match color with
    | some c => p.mapColor fun _ _ => some c
    | none => p
  match depth with
  | some x => p.mapDepth fun _ _ => x
  | none => p

theorem coated_filled (p : Plane) (color : Option (Rgba Float32)) (depth : Option Float32) :
    p.Coated (fun _ => color.map (Rgba.quantize p.precision)) (p.filled color depth) := by
  have colored : p.Coated (fun _ => color.map (Rgba.quantize p.precision)) (p.filled color none) := by
    cases color with
    | none => exact .refl p
    | some c => exact p.coated_mapColor fun _ => some c
  cases depth with
  | none => exact colored
  | some x => exact colored.trans ((p.filled color none).coated_mapDepth fun _ _ => x)

end Plane

namespace Device

variable {d d' : Device} {target : Option Nat} {p q : Plane} {f : Nat → Option (Rgba Float32)}

/-! ## Coats -/

/-- The colour that a draw of a scene gives to a texel of the screen, if it gives one. -/
def sceneTexel? (d : Device) (draw : SceneDraw) (i : Nat) : Option (Rgba Float32) :=
  ((d.scenes.get? draw.scene).bind fun scene => (scene.shade (d.screen.centre i) draw.layers).map Fragment.color) <|>
    draw.background

/-- A buffer that may be missing. -/
def bound? (d : Device) (target : Option Nat) : Option Plane := target.bind d.targets.get?

/-- The colour that a draw of a program gives to a texel of the screen. -/
def drawTexel? (d : Device) (draw : FullscreenDraw) (i : Nat) : Option (Rgba Float32) := do
  let program ← d.programs.get? draw.program
  let values ← unpackBlock? program.kinds draw.block
  let uv := d.screen.centre i
  return DrawContext.run ⟨values, uv, ((d.bound? draw.depth).map (·.sampleDepth uv)).getD 1, d.screen.texelSize,
    fun uv => ((d.bound? draw.input).map (·.sample uv)).getD .transparent⟩ program

/-- The colour that a command leaves on a texel of the screen, if it paints it. -/
def coat (d : Device) (command : Command) (i : Nat) : Option (Rgba Float32) :=
  let texel : Option (Rgba Float32) := match command with
    | .clear none color _ => color
    | .renderScene draw => if draw.target = none ∧ draw.mode = .color then d.sceneTexel? draw i else none
    | .drawFullscreen draw => if draw.output = none then d.drawTexel? draw i else none
    | _ => none
  texel.map (Rgba.quantize d.screen.precision)

/-! ## Parts of commands -/

theorem plane_of_findPlane_ok (h : findPlane target d = (.ok p, d')) : d' = d ∧ d.plane target = .ok p := by
  obtain ⟨hp, hd⟩ := Prod.ext_iff.1 h
  exact ⟨hd.symm, hp⟩

theorem bound?_of_findBound_ok {b : Option Plane} (h : findBound target d = (.ok b, d')) :
    d' = d ∧ b = d.bound? target := by
  cases target with
  | none =>
    cases h
    exact ⟨rfl, rfl⟩
  | some t =>
    obtain ⟨p, d₁, hp, hpure⟩ := Act.parts_of_bind_ok h
    obtain ⟨rfl, hplane⟩ := plane_of_findPlane_ok hp
    cases hpure
    refine ⟨rfl, ?_⟩
    unfold plane at hplane
    dsimp only at hplane
    show some p = d'.targets.get? t
    cases ht : d'.targets.get? t <;> rw [ht] at hplane <;> cases hplane
    rfl

theorem program_of_findProgram_ok {n : Nat} {program : Program} (h : findProgram n d = (.ok program, d')) :
    d.programs.get? n = some program ∧ d' = d := by
  unfold findProgram at h
  rw [Act.bind_of_ok (Act.get_apply d)] at h
  cases hp : d.programs.get? n <;> rw [hp] at h <;> cases h
  exact ⟨rfl, rfl⟩

/-- What a command does to its buffer, the screen or not. -/
theorem coated_setPlane (hp : d.plane target = .ok p) (hc : p.Coated f q) :
    d.screen.Coated (fun i => if target = none then f i else none) (d.setPlane target q).screen := by
  cases target with
  | none =>
    cases hp
    exact hc
  | some t => exact .refl d.screen

/-! ## Commands -/

theorem coated_clear {color : Option (Rgba Float32)} {depth : Option Float32}
    (hr : clear target color depth d = (.ok (), d')) :
    d.screen.Coated (d.coat (.clear target color depth)) d'.screen := by
  obtain ⟨p, d₁, hp, hd'⟩ := Act.parts_of_bind_ok hr
  obtain ⟨rfl, hplane⟩ := plane_of_findPlane_ok hp
  cases hd'
  have coated := coated_setPlane hplane (p.coated_filled color depth)
  cases target with
  | none =>
    cases hplane
    exact coated
  | some t => exact coated

theorem coated_renderScene {draw : SceneDraw} (hr : renderScene draw d = (.ok (), d')) :
    d.screen.Coated (d.coat (.renderScene draw)) d'.screen := by
  unfold renderScene at hr
  rw [Act.bind_of_ok (Act.get_apply d)] at hr
  cases hs : d.scenes.get? draw.scene with
  | none =>
    rw [hs] at hr
    cases hr
  | some scene =>
    rw [hs] at hr
    obtain ⟨p, d₁, hp, hd'⟩ := Act.parts_of_bind_ok hr
    obtain ⟨rfl, hplane⟩ := plane_of_findPlane_ok hp
    obtain ⟨n, layers, mode, target, background⟩ := draw
    cases mode with
    | color =>
      cases hd'
      have coated := coated_setPlane hplane (p.coated_mapColor fun i =>
        (scene.shade (p.centre i) layers).map Fragment.color <|> background)
      cases target with
      | none =>
        cases hplane
        refine fun i => (coated i).trans ?_
        simp only [coat, sceneTexel?, hs, and_self, if_true, Option.bind_some]
      | some t => exact coated
    | depth =>
      obtain ⟨_, d₂, hrequire, hwrite⟩ := Act.parts_of_bind_ok hd'
      obtain rfl : d₂ = d₁ := by
        unfold Act.require at hrequire
        split at hrequire <;> cases hrequire
        rfl
      cases hwrite
      have coated := coated_setPlane hplane (p.coated_mapDepth fun i x =>
        ((scene.shade (p.centre i) layers).map fun f => nearerDepth x f.depth).getD x)
      refine fun i => (coated i).trans ?_
      simp only [coat, ite_self, reduceCtorEq, and_false, if_false, Option.map_none]

theorem coated_drawFullscreen {draw : FullscreenDraw} (hr : drawFullscreen draw d = (.ok (), d')) :
    d.screen.Coated (d.coat (.drawFullscreen draw)) d'.screen := by
  obtain ⟨program, d₁, hprogram, hrest⟩ := Act.parts_of_bind_ok hr
  obtain ⟨hfound, rfl⟩ := program_of_findProgram_ok hprogram
  dsimp only at hrest
  cases hvalues : unpackBlock? program.kinds draw.block with
  | none =>
    rw [hvalues] at hrest
    cases hrest
  | some values =>
    rw [hvalues] at hrest
    obtain ⟨input, d₂, hinput, hrest⟩ := Act.parts_of_bind_ok hrest
    obtain ⟨rfl, rfl⟩ := bound?_of_findBound_ok hinput
    obtain ⟨depth, d₃, hdepth, hrest⟩ := Act.parts_of_bind_ok hrest
    obtain ⟨rfl, rfl⟩ := bound?_of_findBound_ok hdepth
    obtain ⟨output, d₄, houtput, hrest⟩ := Act.parts_of_bind_ok hrest
    obtain ⟨rfl, hplane⟩ := plane_of_findPlane_ok houtput
    cases hrest
    have coated := coated_setPlane hplane (output.coated_mapColor fun i => some (DrawContext.run ⟨values,
      output.centre i, ((d₄.bound? draw.depth).map (·.sampleDepth (output.centre i))).getD 1, output.texelSize,
      fun uv => ((d₄.bound? draw.input).map (·.sample uv)).getD .transparent⟩ program))
    refine fun i => (coated i).trans ?_
    cases ho : draw.output with
    | none =>
      rw [ho] at hplane
      cases hplane
      simp only [coat, drawTexel?, ho, if_true, hfound, hvalues, Option.pure_def, Option.bind_eq_bind,
        Option.bind_some]
    | some t => simp only [coat, ho, reduceCtorEq, if_false, Option.map_none]

/-! ## Alpha -/

theorem DrawContext.alpha_run {c : DrawContext} {program : Program} (hf : program.forcesAlpha = true) :
    (c.run program).a = 1 := by
  unfold DrawContext.run
  rw [if_pos hf]

/-- A program that forces alpha paints no translucent texel. -/
theorem alpha_of_forces {draw : FullscreenDraw} {i : Nat} {c : Rgba Float32}
    (hf : ∀ program, d.programs.get? draw.program = some program → program.forcesAlpha = true)
    (hc : d.coat (.drawFullscreen draw) i = some c) : c.a = 1 := by
  obtain ⟨texel, htexel, rfl⟩ := Option.map_eq_some_iff.1 hc
  dsimp only at htexel
  by_cases ho : draw.output = none
  · rw [if_pos ho] at htexel
    obtain ⟨program, hprogram, htexel⟩ := Option.bind_eq_some_iff.1 htexel
    obtain ⟨values, -, htexel⟩ := Option.bind_eq_some_iff.1 htexel
    cases htexel
    show d.screen.precision.quantize (DrawContext.run _ program).a = 1
    rw [DrawContext.alpha_run (hf program hprogram), Precision.quantize_one]
  · rw [if_neg ho] at htexel
    cases htexel

end Device

end ScreenFusion
