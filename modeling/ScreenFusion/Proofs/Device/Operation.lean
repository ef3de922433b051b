import ScreenFusion.Proofs.Uniform.Access

/-!
# ScreenFusion.Proofs.Device.Operation — the operations of a device and their refusals

A device refuses an operation for a size without texels, a precision that it does not have, a fault of a program, a
number that is not known, a target without depths, or data of the wrong length.  Every operation looks for its faults in
a fixed order, and changes the device only after that.

* `DeviceOp`: the operations with their arguments.
* `Act.Guarded`: an act that fails before it changes anything, and with which error.
* `Device.refusal?`: the first fault of an operation.
* `DeviceOp.run_error_iff`: an operation fails exactly if it has a fault, and then changes nothing.
-/

namespace ScreenFusion

/-! ## Acts that fail before they change anything -/

namespace Act

variable {σ α β : Type}

/-- With a fault, the act fails with it and leaves the state; without one, it gives a result and a state as they should
be. -/
def Guarded (x : Act σ α) (s : σ) (Q : α → σ → Prop) : Option Error → Prop
  | some e => x s = (.error e, s)
  | none => ∃ a t, x s = (.ok a, t) ∧ Q a t

variable {x : Act σ α} {s : σ} {P : α → Prop} {Q : α → σ → Prop} {fault : Option Error}

theorem Guarded.mono (h : x.Guarded s Q fault) {Q' : α → σ → Prop} (hQ : ∀ a t, Q a t → Q' a t) :
    x.Guarded s Q' fault := by
  cases fault with
  | some e => exact h
  | none =>
    obtain ⟨a, t, hx, ht⟩ := h
    exact ⟨a, t, hx, hQ a t ht⟩

/-- A check that leaves the state, and an act after it. -/
theorem Guarded.bind {f : α → Act σ β} {R : β → σ → Prop} {later : Option Error}
    (hx : x.Guarded s (fun a t => t = s ∧ P a) fault) (hf : ∀ a, P a → (f a).Guarded s R later) :
    (x >>= f).Guarded s R (fault.or later) := by
  cases fault with
  | some e => exact bind_of_error hx
  | none =>
    obtain ⟨a, s, hx, rfl, ha⟩ := hx
    have hrest := hf a ha
    have hbind : (x >>= f) s = f a s := bind_of_ok hx
    cases later with
    | some e => exact hbind.trans hrest
    | none =>
      obtain ⟨b, t, hb, ht⟩ := hrest
      exact ⟨b, t, hbind.trans hb, ht⟩

/-- An act whose result is only renamed. -/
theorem Guarded.map (h : x.Guarded s Q fault) (f : α → β) :
    (do return f (← x) : Act σ β).Guarded s (fun _ _ => True) fault := by
  cases fault with
  | some e => exact bind_of_error h
  | none =>
    obtain ⟨a, t, hx, -⟩ := h
    exact ⟨f a, t, bind_of_ok hx, trivial⟩

theorem guarded_require (condition : Bool) (e : Error) (s : σ) :
    (require condition e : Act σ Unit).Guarded s (fun _ t => t = s ∧ condition = true)
      (if condition then none else some e) := by
  cases condition with
  | true => exact ⟨(), s, rfl, rfl, rfl⟩
  | false => exact rfl

theorem Guarded.get_bind {f : σ → Act σ α} (h : (f s).Guarded s Q fault) : (get >>= f).Guarded s Q fault := by
  cases fault <;> exact h

/-- An act without faults. -/
theorem guarded_of_ok {a : α} {t : σ} (h : x s = (.ok a, t)) : x.Guarded s (fun _ _ => True) none := ⟨a, t, h, trivial⟩

/-- The last check of an act. -/
theorem Guarded.bind_ok {f : α → Act σ β} (hx : x.Guarded s (fun a t => t = s ∧ P a) fault) {b : α → β} {next : α → σ}
    (hf : ∀ a, f a s = (.ok (b a), next a)) : (x >>= f).Guarded s (fun _ _ => True) fault := by
  rw [← Option.or_none (o := fault)]
  exact hx.bind fun a _ => guarded_of_ok (hf a)

theorem Guarded.error_iff (h : x.Guarded s Q fault) (e : Error) (t : σ) :
    x s = (.error e, t) ↔ fault = some e ∧ t = s := by
  cases fault with
  | some e' =>
    rw [show x s = (.error e', s) from h, Prod.mk.injEq, Except.error.injEq, Option.some.injEq, eq_comm (a := s)]
  | none =>
    obtain ⟨a, t', hx, -⟩ := h
    rw [hx]
    exact ⟨nofun, nofun⟩

end Act

/-! ## Operations -/

/-- An operation of a device with its arguments. -/
inductive DeviceOp where
  | setOutputSize (width height : UInt32)
  | createTarget (label : String) (width height : UInt32) (precision : Precision) (alpha depth : Bool)
  | resizeTarget (target : Nat) (width height : UInt32)
  | releaseTarget (target : Nat)
  | compileProgram (source : ProgramSource)
  | releaseProgram (program : Nat)
  | clear (target : Option Nat) (color : Option (Rgba Float32)) (depth : Option Float32)
  | upload (target : Option Nat) (pixels : List (Rgba Float32))
  | addScene (scene : Scene)
  | removeScene (scene : Nat)
  | renderScene (draw : SceneDraw)
  | drawFullscreen (draw : FullscreenDraw)
  /-- From now on targets cannot have the precision. -/
  | exclude (precision : Precision)

/-- What an operation answers. -/
inductive DeviceAnswer where
  | done
  /-- The number of what was made. -/
  | made (id : Nat)
  /-- Whether there was something to take away. -/
  | removed (found : Bool)
  deriving DecidableEq, Inhabited

namespace DeviceOp

/-- The operation on a device. -/
def run : DeviceOp → Act Device DeviceAnswer
  | setOutputSize width height => do return (fun _ => .done) (← Device.setOutputSize width.toNat height.toNat)
  | createTarget label width height precision alpha depth => do
    return .made (← Device.createTarget ⟨label, width.toNat, height.toNat, precision, alpha, depth⟩)
  | resizeTarget target width height => do
    return (fun _ => .done) (← Device.resizeTarget target width.toNat height.toNat)
  | releaseTarget target => fun d => (.ok (.removed (d.releaseTarget target).1), (d.releaseTarget target).2)
  | compileProgram source => do return .made (← Device.compileProgram source)
  | releaseProgram program => fun d => (.ok (.removed (d.releaseProgram program).1), (d.releaseProgram program).2)
  | clear target color depth => do return (fun _ => .done) (← Device.clear target color depth)
  | upload target pixels => do return (fun _ => .done) (← Device.upload target pixels)
  | addScene scene => fun d => (.ok (.made (d.addScene scene).1), (d.addScene scene).2)
  | removeScene scene => fun d => (.ok (.removed (d.removeScene scene).1), (d.removeScene scene).2)
  | renderScene draw => do return (fun _ => .done) (← Device.renderScene draw)
  | drawFullscreen draw => do return (fun _ => .done) (← Device.drawFullscreen draw)
  | exclude precision => fun d => (.ok .done, { d with unsupported := d.unsupported ++ [precision] })

end DeviceOp

/-! ## Faults -/

namespace Device

variable {d : Device}

/-- The fault of a size without texels. -/
def sizeFault? (label : String) (width height : Nat) : Option Error :=
  if width = 0 ∨ height = 0 then some (.resource (.invalidSize label width height)) else none

/-- The fault of a precision that targets cannot have. -/
def precisionFault? (d : Device) (label : String) (precision : Precision) : Option Error :=
  if d.supports precision then none else some (.resource (.unsupportedPrecision label precision))

/-- The fault of a target that is not there; the screen always is. -/
def targetFault? (d : Device) : Option Nat → Option Error
  | none => none
  | some t => if d.targets.contains t then none else some (.resource (.unknownTarget t))

/-- The fault of a number of texels that does not fill a buffer. -/
def uploadFault? (d : Device) (target : Option Nat) (count : Nat) : Option Error :=
  match d.plane target with
  | .ok p => if count = p.width * p.height then none else some (.resource (.uploadSize count p.width p.height))
  | .error _ => none

/-- The fault of a buffer without depths that is to get some. -/
def depthFault? (d : Device) (target : Option Nat) : SceneMode → Option Error
  | .color => none
  | .depth => match d.plane target with
    | .ok p => if p.depth = none then some (.resource (.noDepthPlane p.width p.height)) else none
    | .error _ => none

/-- The fault of a scene that is not there. -/
def sceneFault? (d : Device) (scene : Nat) : Option Error :=
  if d.scenes.contains scene then none else some (.resource (.unknownScene scene))

/-- The fault of a program that is not there. -/
def unknownProgramFault? (d : Device) (program : Nat) : Option Error :=
  if d.programs.contains program then none else some (.resource (.unknownProgram program))

/-- The fault of a block that does not fill the slots of its program. -/
def blockFault? (d : Device) (program : Nat) (block : List UInt8) : Option Error :=
  match d.programs.get? program with
  | some p =>
    if block.length = 16 * p.kinds.length then none
    else some (.resource (.blockSize p.label block.length (16 * p.kinds.length)))
  | none => none

/-- The first fault of an operation. -/
def refusal? (d : Device) : DeviceOp → Option Error
  | .setOutputSize width height => sizeFault? "display" width.toNat height.toNat
  | .createTarget label width height precision _ _ =>
    (sizeFault? label width.toNat height.toNat).or (d.precisionFault? label precision)
  | .resizeTarget target width height => (sizeFault? "target" width.toNat height.toNat).or (d.targetFault? target)
  | .compileProgram source => (d.programFault? source).map (.compile source.label)
  | .clear target _ _ => d.targetFault? target
  | .upload target pixels => (d.targetFault? target).or (d.uploadFault? target pixels.length)
  | .renderScene draw =>
    (d.sceneFault? draw.scene).or ((d.targetFault? draw.target).or (d.depthFault? draw.target draw.mode))
  | .drawFullscreen draw =>
    (d.unknownProgramFault? draw.program).or <| (d.blockFault? draw.program draw.block).or <|
      (d.targetFault? draw.input).or <| (d.targetFault? draw.depth).or <| d.targetFault? draw.output
  | .releaseTarget _ | .releaseProgram _ | .addScene _ | .removeScene _ | .exclude _ => none

/-! ## Checks -/

theorem guarded_checkSize (label : String) (width height : Nat) (d : Device) :
    (checkSize label width height).Guarded d (fun _ t => t = d ∧ True) (sizeFault? label width height) := by
  have h := Act.guarded_require (0 < width && 0 < height) (.resource (.invalidSize label width height)) d
  have hfault : sizeFault? label width height =
      if (0 < width && 0 < height : Bool) then none else some (.resource (.invalidSize label width height)) := by
    unfold sizeFault?
    grind
  rw [hfault]
  exact h.mono fun _ _ ⟨ht, _⟩ => ⟨ht, trivial⟩

theorem guarded_findPlane (target : Option Nat) (d : Device) :
    (findPlane target).Guarded d (fun p t => t = d ∧ d.plane target = .ok p) (d.targetFault? target) := by
  cases target with
  | none => exact ⟨d.screen, d, rfl, rfl, rfl⟩
  | some t =>
    have happly : findPlane (some t) d = (d.plane (some t), d) := rfl
    cases hp : d.targets.get? t with
    | some p =>
      have hplane : d.plane (some t) = .ok p := by rw [plane, hp]
      have hfault : d.targetFault? (some t) = none := by simp [targetFault?, Table.contains, hp]
      rw [hfault]
      exact ⟨p, d, by rw [happly, hplane], rfl, hplane⟩
    | none =>
      have hplane : d.plane (some t) = .error (.resource (.unknownTarget t)) := by rw [plane, hp]
      have hfault : d.targetFault? (some t) = some (.resource (.unknownTarget t)) := by
        simp [targetFault?, Table.contains, hp]
      rw [hfault]
      exact happly.trans (by rw [hplane])

theorem guarded_findBound (target : Option Nat) (d : Device) :
    (findBound target).Guarded d (fun _ t => t = d ∧ True) (d.targetFault? target) := by
  cases target with
  | none => exact ⟨none, d, rfl, rfl, trivial⟩
  | some t =>
    have h : (do return some (← findPlane (some t)) : Act Device (Option Plane)).Guarded d
        (fun _ u => u = d ∧ True) ((d.targetFault? (some t)).or none) :=
      (guarded_findPlane (some t) d).bind fun p _ => ⟨some p, d, rfl, rfl, trivial⟩
    rwa [Option.or_none] at h

theorem guarded_findProgram (program : Nat) (d : Device) :
    (findProgram program).Guarded d (fun p t => t = d ∧ d.programs.get? program = some p)
      (d.unknownProgramFault? program) := by
  refine .get_bind ?_
  unfold unknownProgramFault? Table.contains
  cases d.programs.get? program with
  | some p => exact ⟨p, d, rfl, rfl, rfl⟩
  | none => exact rfl

theorem guarded_unpackBlock (label : String) (kinds : List SlotKind) (block : List UInt8) (d : Device) :
    (Act.ofExcept (unpackBlock label kinds block)).Guarded d (fun _ t => t = d ∧ True)
      (if block.length = 16 * kinds.length then none
        else some (.resource (.blockSize label block.length (16 * kinds.length)))) := by
  split
  · next h => exact ⟨_, d, by rw [Act.ofExcept_apply, unpackBlock_of_length_eq h], rfl, trivial⟩
  · next h =>
    show Act.ofExcept (unpackBlock label kinds block) d = _
    rw [Act.ofExcept_apply, unpackBlock_of_length_ne h]

/-! ## Operations with checks -/

theorem guarded_setOutputSize (width height : Nat) (d : Device) :
    (setOutputSize width height).Guarded d (fun _ _ => True) (sizeFault? "display" width height) :=
  (guarded_checkSize "display" width height d).bind_ok fun _ => rfl

theorem guarded_createTarget (spec : TargetSpec) (d : Device) :
    (createTarget spec).Guarded d (fun _ _ => True)
      ((sizeFault? spec.label spec.width spec.height).or (d.precisionFault? spec.label spec.precision)) := by
  refine (guarded_checkSize spec.label spec.width spec.height d).bind fun _ _ => .get_bind ?_
  exact (Act.guarded_require (d.supports spec.precision) _ d).bind_ok fun _ => rfl

theorem guarded_resizeTarget (target width height : Nat) (d : Device) :
    (resizeTarget target width height).Guarded d (fun _ _ => True)
      ((sizeFault? "target" width height).or (d.targetFault? target)) := by
  refine (guarded_checkSize "target" width height d).bind fun _ _ => ?_
  exact (guarded_findPlane target d).bind_ok fun _ => rfl

theorem guarded_compileProgram (source : ProgramSource) (d : Device) :
    (compileProgram source).Guarded d (fun _ _ => True) ((d.programFault? source).map (.compile source.label)) := by
  refine .get_bind ?_
  cases d.programFault? source with
  | some cause => exact rfl
  | none => exact Act.guarded_of_ok rfl

theorem guarded_clear (target : Option Nat) (color : Option (Rgba Float32)) (depth : Option Float32) (d : Device) :
    (clear target color depth).Guarded d (fun _ _ => True) (d.targetFault? target) :=
  (guarded_findPlane target d).bind_ok fun _ => rfl

theorem guarded_upload (target : Option Nat) (pixels : List (Rgba Float32)) (d : Device) :
    (upload target pixels).Guarded d (fun _ _ => True)
      ((d.targetFault? target).or (d.uploadFault? target pixels.length)) := by
  refine (guarded_findPlane target d).bind fun p hp => ?_
  have hfault : d.uploadFault? target pixels.length =
      if pixels.length == p.texels then none else some (.resource (.uploadSize pixels.length p.width p.height)) := by
    simp [uploadFault?, hp, Plane.texels]
  rw [hfault]
  exact (Act.guarded_require _ _ d).bind_ok fun _ => rfl

theorem guarded_renderScene (draw : SceneDraw) (d : Device) :
    (renderScene draw).Guarded d (fun _ _ => True)
      ((d.sceneFault? draw.scene).or ((d.targetFault? draw.target).or (d.depthFault? draw.target draw.mode))) := by
  refine .get_bind ?_
  unfold sceneFault? Table.contains
  cases d.scenes.get? draw.scene with
  | none => exact rfl
  | some scene =>
    refine (guarded_findPlane draw.target d).bind fun p hp => ?_
    cases draw.mode with
    | color => exact Act.guarded_of_ok rfl
    | depth =>
      have hfault : d.depthFault? draw.target .depth =
          if p.depth.isSome then none else some (.resource (.noDepthPlane p.width p.height)) := by
        cases hd : p.depth <;> simp [depthFault?, hp, hd]
      rw [hfault]
      exact (Act.guarded_require p.depth.isSome _ d).bind_ok fun _ => rfl

theorem guarded_drawFullscreen (draw : FullscreenDraw) (d : Device) :
    (drawFullscreen draw).Guarded d (fun _ _ => True) ((d.unknownProgramFault? draw.program).or <|
      (d.blockFault? draw.program draw.block).or <| (d.targetFault? draw.input).or <|
        (d.targetFault? draw.depth).or <| d.targetFault? draw.output) := by
  rw [drawFullscreen_eq]
  refine (guarded_findProgram draw.program d).bind fun p hp => ?_
  unfold blockFault?
  rw [hp]
  refine (guarded_unpackBlock p.label p.kinds draw.block d).bind fun values _ => ?_
  refine (guarded_findBound draw.input d).bind fun input _ => ?_
  refine (guarded_findBound draw.depth d).bind fun depth _ => ?_
  exact (guarded_findPlane draw.output d).bind_ok fun _ => rfl

end Device

/-! ## All operations -/

theorem DeviceOp.guarded_run (op : DeviceOp) (d : Device) : op.run.Guarded d (fun _ _ => True) (d.refusal? op) := by
  cases op with
  | setOutputSize width height => exact (Device.guarded_setOutputSize _ _ d).map _
  | createTarget label width height precision alpha depth =>
    exact (Device.guarded_createTarget ⟨_, _, _, _, _, _⟩ d).map _
  | resizeTarget target width height => exact (Device.guarded_resizeTarget _ _ _ d).map _
  | compileProgram source => exact (Device.guarded_compileProgram source d).map _
  | clear target color depth => exact (Device.guarded_clear target color depth d).map _
  | upload target pixels => exact (Device.guarded_upload target pixels d).map _
  | renderScene draw => exact (Device.guarded_renderScene draw d).map _
  | drawFullscreen draw => exact (Device.guarded_drawFullscreen draw d).map _
  | releaseTarget | releaseProgram | addScene | removeScene | exclude => exact Act.guarded_of_ok rfl

/-- An operation fails exactly if it has a fault, with the first one that it has, and then the device is as before. -/
theorem DeviceOp.run_error_iff (op : DeviceOp) (d d' : Device) (e : Error) :
    op.run d = (.error e, d') ↔ d.refusal? op = some e ∧ d' = d :=
  (op.guarded_run d).error_iff e d'

end ScreenFusion
