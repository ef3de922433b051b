import ScreenFusion.Host

/-!
# ScreenFusion.Proofs.Device.Draw — what a draw leaves

A draw that finds its program and its buffers changes the colours of its output and nothing else: planes keep their
sizes and depths, and the programs stay.  The new colours are computed from the planes as they were, so that the output
may be the input or hold the depths.

* `compileProgram_ok`, `keeps_of_compileProgram_ok`: where programs are found.
* `drawFullscreen_of_found`: the device after a draw.
* `Host.drawFullscreen_of_not_armed`: the host after it.
* `Plane.picture_painted`: the colours of the output.
-/

namespace ScreenFusion

namespace Plane

variable {p q : Plane}

/-! ## Planes of one size -/

/-- The planes have the same size. -/
structure SameSize (p q : Plane) : Prop where
  width : p.width = q.width
  height : p.height = q.height

theorem SameSize.refl (p : Plane) : SameSize p p := ⟨rfl, rfl⟩

theorem SameSize.centre_eq (s : SameSize p q) (i : Nat) : p.centre i = q.centre i := by
  unfold centre size
  rw [s.width, s.height]

theorem SameSize.texelSize_eq (s : SameSize p q) : p.texelSize = q.texelSize := by
  unfold texelSize size
  rw [s.width, s.height]

theorem SameSize.texelAt_eq (s : SameSize p q) (uv : Uv) : (p.texelAt uv).val = (q.texelAt uv).val := by
  show cellIndex (uv.v * (UInt64.ofNat p.height).toFloat32) p.height * p.width +
      cellIndex (uv.u * (UInt64.ofNat p.width).toFloat32) p.width =
    cellIndex (uv.v * (UInt64.ofNat q.height).toFloat32) q.height * q.width +
      cellIndex (uv.u * (UInt64.ofNat q.width).toFloat32) q.width
  rw [s.width, s.height]

/-! ## Pictures -/

/-- The colours row by row. -/
def picture (p : Plane) : List (Rgba Float32) := p.color.toList

/-- The place of each texel's centre is in that texel. -/
def Centred (p : Plane) : Prop := ∀ i < p.width * p.height, (p.texelAt (p.centre i)).val = i

theorem SameSize.centred (s : SameSize p q) (hq : q.Centred) : p.Centred := by
  intro i hi
  rw [s.texelAt_eq, s.centre_eq]
  exact hq i (by rwa [← s.width, ← s.height])

theorem length_picture (p : Plane) : p.picture.length = p.width * p.height := Vector.length_toList

theorem Centred.picture_centre (hp : p.Centred) {i : Nat} (hi : i < p.width * p.height) :
    p.picture[i]? = some (p.sample (p.centre i)) := by
  have hat : p.texelAt (p.centre i) = ⟨i, hi⟩ := Fin.ext (hp i hi)
  have hsample : p.sample (p.centre i) = p.color[(⟨i, hi⟩ : Fin (p.width * p.height))] := congrArg (p.color[·]) hat
  rw [hsample, picture, Vector.getElem?_toList]
  exact Vector.getElem?_eq_getElem hi

/-- The plane with each texel painted. -/
def painted (p : Plane) (f : Nat → Rgba Float32) : Plane := p.mapColor fun i _ => some (f i)

theorem sampleDepth_painted (p : Plane) (f : Nat → Rgba Float32) (uv : Uv) :
    (p.painted f).sampleDepth uv = p.sampleDepth uv := by
  obtain ⟨width, height, precision, color, depth, _, _⟩ := p
  cases depth <;> rfl

/-- At full precision the plane shows what was painted. -/
theorem picture_painted (hp : p.precision = .full) (f : Nat → Rgba Float32) :
    (p.painted f).picture = (List.range (p.width * p.height)).map f := by
  refine List.ext_getElem? fun i => ?_
  have hpainted : (p.painted f).color[i]? = (p.color[i]?).map fun _ => f i := by
    show (p.color.mapIdx fun i c => (((some (f i)).map (Rgba.quantize p.precision)).getD c))[i]? = _
    rw [Vector.getElem?_mapIdx, hp]
    rfl
  show (p.painted f).color.toList[i]? = _
  rw [Vector.getElem?_toList, hpainted, List.getElem?_map]
  by_cases hi : i < p.width * p.height
  · rw [Vector.getElem?_eq_getElem hi, List.getElem?_range hi]
    rfl
  · rw [Vector.getElem?_eq_none (by omega), List.getElem?_eq_none (by rw [List.length_range]; omega)]
    rfl

end Plane

namespace Device

variable {d : Device} {output : Plane}

theorem setPlane_programs (d : Device) (target : Option Nat) (p : Plane) :
    (d.setPlane target p).programs = d.programs := by
  cases target <;> rfl

/-- A program that is made gets the next number. -/
theorem compileProgram_ok {source : ProgramSource} {id : Nat} {d' : Device}
    (h : compileProgram source d = (.ok id, d')) :
    id = d.nextId ∧ d'.nextId = d.nextId + 1 ∧ d'.programs =
      d.programs.insert d.nextId ⟨source.label, source.stages, source.kinds, source.forcesAlpha⟩ := by
  unfold compileProgram at h
  rw [Act.bind_of_ok (Act.get_apply d)] at h
  cases hf : d.programFault? source with
  | some cause =>
    rw [hf] at h
    cases h
  | none =>
    rw [hf] at h
    cases h
    exact ⟨rfl, rfl, rfl⟩

/-- A target that is made gets the next number. -/
theorem createTarget_ok {spec : TargetSpec} {id : Nat} {d' : Device} (h : createTarget spec d = (.ok id, d')) :
    id = d.nextId ∧ d'.nextId = d.nextId + 1 ∧ d'.programs = d.programs ∧ d'.scenes = d.scenes ∧ d'.targets =
      d.targets.insert d.nextId (.create spec.width spec.height spec.precision spec.depth) := by
  unfold createTarget checkSize at h
  rw [Act.bind_apply] at h
  cases hsize : (0 < spec.width && 0 < spec.height : Bool) <;> rw [hsize] at h
  · cases h
  · have h : (Act.require (d.supports spec.precision) _ >>= _ : Act Device Nat) d = (.ok id, d') := h
    rw [Act.bind_apply] at h
    cases hp : d.supports spec.precision <;> rw [hp] at h <;> cases h
    exact ⟨rfl, rfl, rfl, rfl, rfl⟩

/-- The device has gone on without touching the programs that there were. -/
structure Keeps (d d' : Device) : Prop where
  nextId : d.nextId ≤ d'.nextId
  programs : ∀ n < d.nextId, d'.programs.get? n = d.programs.get? n

theorem Keeps.refl (d : Device) : Keeps d d := ⟨Nat.le_refl _, fun _ _ => rfl⟩

theorem Keeps.trans {d d' d'' : Device} (h : Keeps d d') (h' : Keeps d' d'') : Keeps d d'' := by
  refine ⟨Nat.le_trans h.nextId h'.nextId, ?_⟩
  intro n hn
  rw [h'.programs n (Nat.lt_of_lt_of_le hn h.nextId), h.programs n hn]

theorem keeps_of_compileProgram_ok {source : ProgramSource} {id : Nat} {d' : Device}
    (h : compileProgram source d = (.ok id, d')) : Keeps d d' := by
  obtain ⟨-, hnext, hprograms⟩ := compileProgram_ok h
  refine ⟨by omega, ?_⟩
  intro n hn
  rw [hprograms, Table.get?_insert, if_neg (by omega)]

/-! ## Draws -/

/-- The device after a draw of the given texels. -/
def drawn (d : Device) (target : Option Nat) (output : Plane) (f : Nat → Rgba Float32) : Device :=
  (d.setPlane target (output.painted f)).count fun s => { s with draws := s.draws + 1 }

theorem drawn_programs (d : Device) (target : Option Nat) (output : Plane) (f : Nat → Rgba Float32) :
    (d.drawn target output f).programs = d.programs := setPlane_programs d target _

theorem drawn_targets (d : Device) (t : Nat) (output : Plane) (f : Nat → Rgba Float32) (key : Nat) :
    (d.drawn (some t) output f).targets.get? key =
      if key = t then some (output.painted f) else d.targets.get? key :=
  Table.get?_insert d.targets t key (output.painted f)

theorem findPlane_of_plane {target : Option Nat} {p : Plane} (h : d.plane target = .ok p) :
    findPlane target d = (.ok p, d) := by
  unfold findPlane
  rw [Act.bind_of_ok (Act.get_apply d), h]
  rfl

theorem findBound_some {t : Nat} {p : Plane} (h : d.targets.get? t = some p) :
    findBound (some t) d = (.ok (some p), d) := by
  have hplane : findPlane (some t) d = (.ok p, d) := findPlane_of_plane (by rw [plane, h])
  show (findPlane (some t) >>= fun p => pure (some p)) d = _
  rw [Act.bind_of_ok hplane]
  rfl

/-- A draw that finds its program, its values and its buffers. -/
theorem drawFullscreen_of_found {draw : FullscreenDraw} {program : Program} {values : List UniformValue}
    {input depth : Option Plane} (hprogram : d.programs.get? draw.program = some program)
    (hvalues : unpackBlock? program.kinds draw.block = some values)
    (hinput : findBound draw.input d = (.ok input, d)) (hdepth : findBound draw.depth d = (.ok depth, d))
    (houtput : d.plane draw.output = .ok output) :
    drawFullscreen draw d = (.ok (), d.drawn draw.output output fun i =>
      DrawContext.run ⟨values, output.centre i, (depth.map (·.sampleDepth (output.centre i))).getD 1, output.texelSize,
        fun uv => (input.map (·.sample uv)).getD .transparent⟩ program) := by
  have hfind : findProgram draw.program d = (.ok program, d) := by
    unfold findProgram
    rw [Act.bind_of_ok (Act.get_apply d), hprogram]
    rfl
  unfold drawFullscreen
  rw [Act.bind_of_ok hfind]
  dsimp only
  rw [hvalues]
  dsimp only
  rw [Act.bind_of_ok hinput, Act.bind_of_ok hdepth, Act.bind_of_ok (findPlane_of_plane houtput)]
  rfl

end Device

/-- A draw on a host without armed failures. -/
theorem Host.drawFullscreen_of_not_armed {h : Host} {draw : FullscreenDraw} {d : Device} (ha : h.armed = [])
    (hd : Device.drawFullscreen draw h.device = (.ok (), d)) :
    drawFullscreen draw h = (.ok (), { h with device := d }.recordCall (.drawFullscreen draw) .done) := by
  obtain ⟨device, calls, events, armed⟩ := h
  cases ha
  unfold drawFullscreen issue
  dsimp only at hd ⊢
  rw [hd]
  rfl

end ScreenFusion
