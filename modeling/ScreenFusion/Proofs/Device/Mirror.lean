import ScreenFusion.Proofs.Device.Memory

/-!
# ScreenFusion.Proofs.Device.Mirror — operations on memory do what they do on the device

Buffers of a device fit their sizes, and so each operation on the memory of a device comes to its end, with the result
and the memory of the device after the operation.  The sides of buffers have to be 32-bit numbers: where coordinates are
made cells, they pass through 64-bit integers.

* `Device.Carries`: what an operation leaves as it should be.
* `Mirrors`: an act on memory does what one on a device does, without a fault.
* `Mirrors.bind`, `Mirrors.orFault`: the parts of an act.
* `Device.mirrors_upload`, `Device.mirrors_renderScene`, `Device.mirrors_drawFullscreen`: operations on texels.
-/

namespace ScreenFusion

namespace Device

variable {d d' d'' : Device} {p : Plane} {target : Option Nat}

/-- The sides of all buffers are 32-bit numbers. -/
def Modest (d : Device) : Prop := ∀ target p, d.plane target = .ok p → p.Modest

/-- The scenes are the same, numbers have not been taken back, and the sides of buffers still are 32-bit numbers. -/
structure Carries (d d' : Device) : Prop where
  scenes : d'.scenes = d.scenes
  nextId : d.nextId ≤ d'.nextId
  modest : d.Modest → d'.Modest

theorem Carries.refl (d : Device) : Carries d d := ⟨rfl, Nat.le_refl _, id⟩

theorem Carries.trans (c : Carries d d') (c' : Carries d' d'') : Carries d d'' :=
  ⟨c'.scenes.trans c.scenes, Nat.le_trans c.nextId c'.nextId, c'.modest ∘ c.modest⟩

theorem plane_setPlane_self (d : Device) (target : Option Nat) (p : Plane) :
    (d.setPlane target p).plane target = .ok p := by
  cases target with
  | none => rfl
  | some t =>
    unfold plane setPlane
    dsimp only
    rw [Table.get?_insert, if_pos rfl]

theorem modest_setPlane (m : d.Modest) (target : Option Nat) (hp : p.Modest) : (d.setPlane target p).Modest := by
  intro b q hq
  by_cases hb : b = target
  · rw [hb, plane_setPlane_self] at hq
    exact Except.ok.inj hq ▸ hp
  · rw [plane_setPlane_of_ne hb] at hq
    exact m b q hq

theorem carries_setPlane (target : Option Nat) (hp : p.Modest) : Carries d (d.setPlane target p) :=
  ⟨by cases target <;> rfl, by cases target <;> exact Nat.le_refl _, fun m => modest_setPlane m target hp⟩

theorem Carries.count (c : Carries d d') (f : Stats → Stats) : Carries d (d'.count f) :=
  ⟨c.scenes, c.nextId, fun m target p hp => c.modest m target p (by cases target <;> exact hp)⟩

end Device

/-! ## Acts on memory -/

/-- The act on memory has no fault, and its result and the device after it are those of the act on the device. -/
structure Mirrors {α β : Type} (x : Act Device α) (y : Risky StoredDevice β) (r : α → β) (d : Device) : Prop where
  run : y d.stored = some ((x d).1.map r, (x d).2.stored)
  carries : Device.Carries d (x d).2

namespace Mirrors

open Risky Device

variable {α α' β β' : Type} {d t : Device} {x : Act Device α} {f : α → Act Device β} {g : α' → Risky StoredDevice β'}
  {r : β → β'}

theorem of_ok {y : Risky StoredDevice α'} {r : α → α'} {a : α} {u : StoredDevice} (hx : x d = (.ok a, t))
    (hy : y d.stored = some (.ok (r a), u)) (hu : t.stored = u) (c : Carries d t) : Mirrors x y r d :=
  ⟨by rw [hx, hy, ← hu]; rfl, by rw [hx]; exact c⟩

theorem modify {f : Device → Device} {g : StoredDevice → StoredDevice} (h : (f d).stored = g d.stored)
    (c : Carries d (f d)) : Mirrors (Act.modify f) (safely (Act.modify g)) id d := of_ok rfl rfl h c

theorem fail (e : Error) {r : α → α'} : Mirrors (Act.fail e) (safely (Act.fail e)) r d := ⟨rfl, .refl d⟩

/-- A part that does not change the device, and the rest. -/
theorem bind {y : Act StoredDevice α'} (s : α → α') {outcome : Except Error α} (hx : x d = (outcome, d))
    (hy : y d.stored = (outcome.map s, d.stored)) (h : ∀ a, outcome = .ok a → Mirrors (f a) (g (s a)) r d) :
    Mirrors (x >>= f) (safely y >>= g) r d := by
  have hsafely : safely y d.stored = some (outcome.map s, d.stored) := congrArg some hy
  cases outcome with
  | error e =>
    have hfail := Act.bind_of_error (f := f) hx
    exact ⟨by rw [hfail]; exact Risky.bind_of_error hsafely, by rw [hfail]; exact .refl d⟩
  | ok a =>
    have hok := Act.bind_of_ok (f := f) hx
    have hrest := h a rfl
    exact ⟨by rw [hok]; exact (Risky.bind_of_ok hsafely).trans hrest.run, by rw [hok]; exact hrest.carries⟩

/-- A computation that has no fault. -/
theorem orFault {o : Option α'} {a : α'} {x : Act Device β} (ho : o = some a) (h : Mirrors x (g a) r d) :
    Mirrors x (orFault o >>= g) r d := by
  subst ho
  exact ⟨h.run, h.carries⟩

/-- A result that is only renamed. -/
theorem map {y : Risky StoredDevice α} (h : Mirrors x y id d) (f : α → β) :
    Mirrors (do return f (← x) : Act Device β) (do return f (← y) : Risky StoredDevice β) id d := by
  obtain ⟨hrun, hcarries⟩ := h
  rcases hx : x d with ⟨e | a, t⟩ <;> rw [hx] at hrun hcarries
  · have hfail := Act.bind_of_error (f := fun a => (pure (f a) : Act Device β)) hx
    exact ⟨by rw [hfail]; exact Risky.bind_of_error hrun, by rw [hfail]; exact hcarries⟩
  · have hok := Act.bind_of_ok (f := fun a => (pure (f a) : Act Device β)) hx
    exact ⟨by rw [hok]; exact Risky.bind_of_ok hrun, by rw [hok]; exact hcarries⟩

/-! ### Parts of operations -/

theorem require {condition : Bool} {e : Error} {f : Unit → Act Device β} {g : Unit → Risky StoredDevice β'}
    (h : condition = true → Mirrors (f ()) (g ()) r d) :
    Mirrors (Act.require condition e >>= f) (safely (Act.require condition e) >>= g) r d := by
  cases condition with
  | true => exact bind id rfl rfl fun _ _ => h rfl
  | false => exact bind id rfl rfl fun _ => nofun

theorem get {f : Device → Act Device β} {g : StoredDevice → Risky StoredDevice β'}
    (h : Mirrors (f d) (g d.stored) r d) : Mirrors (Act.get >>= f) (safely Act.get >>= g) r d :=
  bind Device.stored rfl rfl fun _ ha => Except.ok.inj ha ▸ h

theorem findPlane {target : Option Nat} {f : Plane → Act Device β} {g : StoredPlane → Risky StoredDevice β'}
    (h : ∀ p, d.plane target = .ok p → Mirrors (f p) (g p.stored) r d) :
    Mirrors (Device.findPlane target >>= f) (safely (StoredDevice.findPlane target) >>= g) r d :=
  bind Plane.stored rfl (congrArg (·, d.stored) (stored_plane d target)) h

theorem findBound {target : Option Nat} {f : Option Plane → Act Device β}
    {g : Option StoredPlane → Risky StoredDevice β'}
    (h : ∀ p, (∀ q, p = some q → d.plane target = .ok q) → Mirrors (f p) (g (p.map Plane.stored)) r d) :
    Mirrors (Device.findBound target >>= f) (safely (StoredDevice.findBound target) >>= g) r d := by
  cases target with
  | none => exact bind (Option.map Plane.stored) rfl rfl fun p hp => h p (by cases hp; nofun)
  | some t =>
    have hstored := stored_plane d (some t)
    cases hp : d.plane (some t) with
    | error e =>
      rw [hp] at hstored
      have hx : Device.findBound (some t) d = (.error e, d) := Act.bind_of_error (congrArg (·, d) hp)
      have hy : StoredDevice.findBound (some t) d.stored = (.error e, d.stored) :=
        Act.bind_of_error (congrArg (·, d.stored) hstored)
      exact bind (Option.map Plane.stored) hx hy fun _ => nofun
    | ok p =>
      rw [hp] at hstored
      have hx : Device.findBound (some t) d = (.ok (some p), d) := Act.bind_of_ok (congrArg (·, d) hp)
      have hy : StoredDevice.findBound (some t) d.stored = (.ok (some p.stored), d.stored) :=
        Act.bind_of_ok (congrArg (·, d.stored) hstored)
      refine bind (Option.map Plane.stored) hx hy fun q hq => h q fun p' hp' => ?_
      cases hq
      cases hp'
      exact hp

theorem findProgram {program : Nat} {f : Program → Act Device β} {g : Program → Risky StoredDevice β'}
    (h : ∀ p, Mirrors (f p) (g p) r d) :
    Mirrors (Device.findProgram program >>= f) (safely (StoredDevice.findProgram program) >>= g) r d := by
  let outcome : Except Error Program :=
    (d.programs.get? program).elim (.error (.resource (.unknownProgram program))) .ok
  have hx : Device.findProgram program d = (outcome, d) := by
    unfold Device.findProgram
    rw [Act.bind_of_ok (Act.get_apply d)]
    dsimp only [outcome]
    cases d.programs.get? program <;> rfl
  have hy : StoredDevice.findProgram program d.stored = (outcome.map id, d.stored) := by
    unfold StoredDevice.findProgram
    rw [Act.bind_of_ok (Act.get_apply d.stored)]
    dsimp only [outcome, stored]
    cases d.programs.get? program <;> rfl
  exact bind id hx hy fun p _ => h p

theorem ofExcept {outcome : Except Error α} {f : α → Act Device β} {g : α → Risky StoredDevice β'}
    (h : ∀ a, Mirrors (f a) (g a) r d) :
    Mirrors (Act.ofExcept outcome >>= f) (safely (Act.ofExcept outcome) >>= g) r d := by
  refine bind id rfl ?_ fun a _ => h a
  cases outcome <;> rfl

/-- The last part of an operation that writes a buffer. -/
theorem write {target : Option Nat} {p : Plane} (m : p.Modest) (f : Stats → Stats) :
    Mirrors (Act.modify fun d : Device => (d.setPlane target p).count f)
      (safely (Act.modify fun d => (d.setPlane target p.stored).count f)) id d := by
  refine modify ?_ ((carries_setPlane target m).count f)
  show (d.setPlane target p).stored.count f = _
  rw [stored_setPlane]

end Mirrors

/-! ## Operations -/

namespace Device

variable {d : Device}

theorem stored_releaseTarget (d : Device) (target : Nat) :
    d.stored.releaseTarget target = ((d.releaseTarget target).1, (d.releaseTarget target).2.stored) := by
  have hcontains : d.stored.targets.contains target = d.targets.contains target := by
    unfold Table.contains
    exact (congrArg Option.isSome (Table.get?_mapValues _ _ target)).trans Option.isSome_map
  unfold StoredDevice.releaseTarget releaseTarget
  rw [hcontains]
  split
  · refine Prod.ext rfl ?_
    unfold stored count StoredDevice.count
    dsimp only
    rw [Table.mapValues_erase]
  · rfl

theorem stored_releaseProgram (d : Device) (program : Nat) :
    d.stored.releaseProgram program = ((d.releaseProgram program).1, (d.releaseProgram program).2.stored) := by
  have hprograms : d.stored.programs = d.programs := rfl
  unfold StoredDevice.releaseProgram releaseProgram
  rw [hprograms]
  split <;> rfl

theorem mirrors_setOutputSize {width height : Nat} (hw : width < 2 ^ 32) (hh : height < 2 ^ 32) :
    Mirrors (setOutputSize width height) (StoredDevice.setOutputSize width height) id d := by
  refine .require fun hsize => ?_
  obtain ⟨hwidth, hheight⟩ := Bool.and_eq_true_iff.1 hsize
  have hscreen : (d.setPlane none (d.screen.resized width height)).stored =
      d.stored.setPlane none (d.stored.screen.resized width height) := by
    rw [stored_setPlane, Plane.stored_resized d.screen (of_decide_eq_true hwidth) (of_decide_eq_true hheight)]
    rfl
  by_cases hsame : d.outputSize = (width, height)
  · refine .modify ?_ ?_
    · rw [if_pos hsame]
      exact (if_pos hsame).symm
    · rw [if_pos hsame]
      exact .refl d
  · refine .modify ?_ ?_
    · rw [if_neg hsame]
      exact hscreen.trans (if_neg hsame).symm
    · rw [if_neg hsame]
      exact carries_setPlane none (Plane.modest_create hw hh _ _)

theorem mirrors_createTarget (spec : TargetSpec) (hw : spec.width < 2 ^ 32) (hh : spec.height < 2 ^ 32) :
    Mirrors (createTarget spec) (StoredDevice.createTarget spec) id d := by
  refine .require fun hsize => .get (.require fun _ => ?_)
  obtain ⟨hwidth, hheight⟩ := Bool.and_eq_true_iff.1 hsize
  -- the number is taken first, and then the target is put under it
  let p := Plane.create spec.width spec.height spec.precision spec.depth
  let base : Device := { d with nextId := d.nextId + 1 }
  have hstored : (base.setPlane (some d.nextId) p).stored = base.stored.setPlane (some d.nextId)
      (.create spec.width spec.height spec.precision spec.depth) := by
    rw [stored_setPlane, Plane.stored_create_of_pos (of_decide_eq_true hwidth) (of_decide_eq_true hheight)]
  have c : Carries d base := ⟨rfl, Nat.le_succ _, id⟩
  let counted (s : Stats) : Stats := { s with targetsCreated := s.targetsCreated + 1 }
  refine .of_ok (a := d.nextId) (t := (base.setPlane (some d.nextId) p).count counted) rfl rfl ?_ ?_
  · exact congrArg (StoredDevice.count · counted) hstored
  · exact (c.trans (carries_setPlane _ (Plane.modest_create hw hh _ _))).count _

theorem mirrors_resizeTarget {target width height : Nat} (hw : width < 2 ^ 32) (hh : height < 2 ^ 32) :
    Mirrors (resizeTarget target width height) (StoredDevice.resizeTarget target width height) id d := by
  refine .require fun hsize => .findPlane fun p _ => ?_
  obtain ⟨hwidth, hheight⟩ := Bool.and_eq_true_iff.1 hsize
  rw [← Plane.stored_resized p (of_decide_eq_true hwidth) (of_decide_eq_true hheight)]
  exact .modify (stored_setPlane ..) (carries_setPlane _ (Plane.modest_create hw hh _ _))

theorem mirrors_compileProgram (source : ProgramSource) :
    Mirrors (compileProgram source) (StoredDevice.compileProgram source) id d := by
  have hfault : d.stored.programFault? source = d.programFault? source := rfl
  refine .get ?_
  rw [hfault]
  cases d.programFault? source with
  | some cause => exact .fail _
  | none =>
    refine .of_ok (a := d.nextId) rfl rfl rfl ⟨rfl, Nat.le_succ _, fun m target p hp => m target p ?_⟩
    cases target <;> exact hp

theorem mirrors_clear (m : d.Modest) (target : Option Nat) (color : Option (Rgba Float32)) (depth : Option Float32) :
    Mirrors (clear target color depth) (StoredDevice.clear target color depth) id d := by
  refine .findPlane fun p hp => ?_
  have hm := m target p hp
  cases color with
  | none =>
    cases depth with
    | none => exact .write hm _
    | some x =>
      dsimp only
      rw [← Plane.stored_fillDepth]
      exact .write (hm.mapDepth _) _
  | some c =>
    dsimp only
    rw [← Plane.stored_fill]
    cases depth with
    | none => exact .write (hm.mapColor _) _
    | some x =>
      dsimp only
      rw [← Plane.stored_fillDepth]
      exact .write ((hm.mapColor _).mapDepth _) _

/-- Colours written one after the other. -/
theorem stored_paint?_list {p : Plane} {pixels : List (Rgba Float32)} {g : Nat → Option (Rgba Float32)}
    (h : pixels.length = p.width * p.height) (hg : ∀ i < p.width * p.height, pixels[i]? = g i) :
    p.stored.paint? pixels.length (fun _ i => pixels[i]?.map some) = some (p.mapColor fun i _ => g i).stored := by
  rw [h]
  refine Plane.stored_paint? fun color i hi => ?_
  rw [← hg i hi, List.getElem?_eq_getElem (by omega)]
  rfl

theorem mirrors_upload (m : d.Modest) (target : Option Nat) (pixels : List (Rgba Float32)) :
    Mirrors (upload target pixels) (StoredDevice.upload target pixels) id d := by
  refine .findPlane fun p hp => ?_
  have hlength : p.stored.color.length = p.texels := Vector.length_toList
  dsimp only
  rw [hlength]
  refine .require fun hcount => ?_
  have hpixels := stored_paint?_list (p := p) (beq_iff_eq.1 hcount) fun _ _ => rfl
  simp only [List.getElem?_toArray]
  exact .orFault hpixels (.modify (stored_setPlane ..) (carries_setPlane _ ((m target p hp).mapColor _)))

theorem mirrors_renderScene (m : d.Modest) (draw : SceneDraw) :
    Mirrors (renderScene draw) (StoredDevice.renderScene draw) id d := by
  have hscenes : d.stored.scenes = d.scenes := rfl
  refine .get ?_
  dsimp only
  rw [hscenes]
  cases d.scenes.get? draw.scene with
  | none => exact .fail _
  | some scene =>
    refine .findPlane fun p hp => ?_
    have hm := m draw.target p hp
    cases draw.mode with
    | color =>
      have hpaint : p.stored.paint? p.stored.color.length (fun q i =>
          (q.centre? i).map fun uv => ((scene.shade uv draw.layers).map Fragment.color) <|> draw.background) =
            some (p.mapColor fun i _ =>
              ((scene.shade (p.centre i) draw.layers).map Fragment.color) <|> draw.background).stored := by
        rw [show p.stored.color.length = p.width * p.height from Vector.length_toList]
        exact Plane.stored_paint? fun color i _ => congrArg (Option.map _) (Plane.stored_centre? p i)
      exact .orFault hpaint (.write (hm.mapColor _) _)
    | depth =>
      refine .orFault (Plane.stored_centres? p) ?_
      have hdepth : p.stored.depth.isSome = p.depth.isSome := Option.isSome_map
      dsimp only
      rw [hdepth]
      refine .require fun _ => ?_
      rw [← Plane.stored_mapDepth]
      exact .write (hm.mapDepth _) _

/-- The input of a draw at every place. -/
theorem stored_sampler?_bound {input : Option Plane} (h : ∀ p, input = some p → p.Modest) :
    (match input.map Plane.stored with
      | some p => p.sampler?
      | none => some fun _ => .transparent) = some fun uv => (input.map (·.sample uv)).getD .transparent := by
  cases input with
  | none => rfl
  | some p => exact Plane.stored_sampler? (h p rfl)

/-- The texels of a draw. -/
theorem stored_texel? (program : Program) (values : List UniformValue) {depth : Option Plane}
    (h : ∀ p, depth = some p → p.Modest) (output : Plane) (sample : Uv → Rgba Float32) (i : Nat) :
    StoredDevice.texel? program values (depth.map Plane.stored) output.stored sample i =
      some (DrawContext.run ⟨values, output.centre i, (depth.map (·.sampleDepth (output.centre i))).getD 1,
        output.texelSize, sample⟩ program) := by
  rw [StoredDevice.texel?, Plane.stored_centre?]
  cases depth with
  | none => rfl
  | some p =>
    show (p.stored.sampleDepth? (output.centre i)).bind _ = _
    rw [Plane.stored_sampleDepth? (h p rfl)]
    rfl

theorem mirrors_drawFullscreen (m : d.Modest) (draw : FullscreenDraw) :
    Mirrors (drawFullscreen draw) (StoredDevice.drawFullscreen draw) id d := by
  rw [drawFullscreen_eq]
  refine .findProgram fun program => .ofExcept fun values => ?_
  refine .findBound fun input hinput => .findBound fun depth hdepth => .findPlane fun output houtput => ?_
  refine .orFault (stored_sampler?_bound fun p hp => m _ p (hinput p hp)) ?_
  refine .orFault (mapM_eq_some_map fun i _ =>
    stored_texel? program values (fun p hp => m _ p (hdepth p hp)) output _ i) ?_
  have hlength : output.stored.color.length = output.width * output.height := Vector.length_toList
  refine .orFault (stored_paint?_list ?_ fun i hi => ?_) (.write ((m _ output houtput).mapColor _) _)
  · rw [List.length_map, List.length_range, hlength]
  · rw [List.getElem?_map, hlength, List.getElem?_range hi]
    rfl

end Device

end ScreenFusion
