import ScreenFusion.Pipeline.Frame

/-!
# ScreenFusion.Studio — effects, passes and a pipeline by number

A studio holds a host and what works on it.  Effects and passes have numbers in order of creation and keep them wherever
they go: an effect is loose or a member of a pass, a pass is loose or in the pipeline.  What is thrown away is nowhere.

* `effect?_keepEffect`: an effect that is kept is found under its number.
-/

namespace ScreenFusion

/-- A host and what works on it. -/
structure Studio where
  host : Host
  pipeline : Option Pipeline
  /-- The effects that are in no pass. -/
  effects : Table Effect
  /-- The passes that are in no pipeline. -/
  passes : Table Pass
  /-- The numbers that passes last had in a pipeline. -/
  entryIds : Table Nat
  nextEffect : Nat
  nextPass : Nat
  nextKernel : Nat
  deriving Inhabited

namespace Studio

variable {α β : Type}

/-- A studio with a device and nothing else. -/
def ofDevice (device : Device) : Studio where
  host := .ofDevice device
  pipeline := none
  effects := .empty
  passes := .empty
  entryIds := .empty
  nextEffect := 1
  nextPass := 1
  nextKernel := 1

/-- Fails because nothing of some kind has a number. -/
def unknown (kind : String) (id : Nat) : Act Studio α := Act.fail (.resource (.unknownItem kind id))

/-! ## Acts of parts -/

/-- An act of the host. -/
def onHost (x : Act Host α) : Act Studio α := fun s =>
  let (r, host) := x s.host
  (r, { s with host })

/-- An act of the device that is no command. -/
def onDevice (x : Act Device α) : Act Studio α :=
  onHost fun h =>
    let (r, device) := x h.device
    (r, { h with device })

/-- The device. -/
def device : Act Studio Device := fun s => (.ok s.host.device, s)

/-- A change that cannot fail and has a result, as an act. -/
def always (f : α → β × α) : Act α β := fun a => (.ok (f a).1, (f a).2)

/-- An act of the pipeline. -/
def onPipeline (x : Act (Staged Pipeline) α) : Act Studio α := fun s =>
  match s.pipeline with
  | none => unknown "pipeline" 0 s
  | some p =>
    let (r, t) := x ⟨p, s.host⟩
    (r, { s with pipeline := some t.stage, host := t.host })

/-- The number and the pass of a numbered pass that is in the pipeline. -/
def entry? (s : Studio) (n : Nat) : Option (Nat × Pass) := do
  let id ← s.entryIds.get? n
  let pass ← (← s.pipeline).pass? id
  return (id, pass)

/-- An act of a pass, wherever it is. -/
def onPass (n : Nat) (x : Act (Staged Pass) α) : Act Studio α := fun s =>
  match s.passes.get? n with
  | some p =>
    let (r, t) := x ⟨p, s.host⟩
    (r, { s with passes := s.passes.insert n t.stage, host := t.host })
  | none =>
    match s.entry? n with
    | some (id, p) =>
      let (r, t) := x ⟨p, s.host⟩
      (r, { s with pipeline := s.pipeline.map (·.modifyPass id fun _ => t.stage), host := t.host })
    | none => unknown "pass" n s

/-- An act of an effect pass, wherever it is. -/
def onEffectPass (n : Nat) (x : Act (Staged EffectPass) α) : Act Studio α :=
  onPass n do
    match ← Staged.get with
    | .effect p => Pass.within .effect p x
    | _ => Act.fail (.resource (.unknownItem "effect pass" n))

/-- An act of a material pass, wherever it is. -/
def onMaterialPass (n : Nat) (x : Act (Staged MaterialPass) α) : Act Studio α :=
  onPass n do
    match ← Staged.get with
    | .material p => Pass.within .material p x
    | _ => Act.fail (.resource (.unknownItem "material pass" n))

/-- An act of a depth pass, wherever it is. -/
def onDepthPass (n : Nat) (x : Act (Staged DepthPass) α) : Act Studio α :=
  onPass n do
    match ← Staged.get with
    | .depth p => Pass.within .depth p x
    | _ => Act.fail (.resource (.unknownItem "depth pass" n))

/-! ## Effects -/

/-- A serial number for a kernel. -/
def takeKernel : Act Studio Nat := always fun s => (s.nextKernel, { s with nextKernel := s.nextKernel + 1 })

/-- The passes, loose or in the pipeline. -/
def allPasses (s : Studio) : List Pass :=
  s.passes.entries.map Prod.snd ++ (s.pipeline.toList.flatMap Pipeline.entries).map PipelineEntry.pass

/-- The effect with a number, wherever it is. -/
def effect? (s : Studio) (n : Nat) : Option Effect :=
  s.effects.get? n <|> s.allPasses.findSome? fun p => p.effects.find? fun e => e.id == n

/-- Replaces the effect with the same number, wherever it is. -/
def putEffect (s : Studio) (e : Effect) : Studio :=
  let put (p : Pass) : Pass := p.modifyEffect e.id fun _ => e
  { s with
    effects := s.effects.modify e.id fun _ => e
    passes := ⟨s.passes.entries.map fun p => (p.1, put p.2)⟩
    pipeline := s.pipeline.map fun p =>
      { p with entries := p.entries.map fun x => { x with pass := put x.pass } } }

/-- An act of an effect, wherever it is: the result and the effect after it. -/
def onEffect (n : Nat) (x : Act (Staged Effect) α) : Act Studio (α × Effect) := fun s =>
  match s.effect? n with
  | none => unknown "effect" n s
  | some e =>
    let (r, t) := x ⟨e, s.host⟩
    (r.map fun a => (a, t.stage), { s.putEffect t.stage with host := t.host })

/-- Keeps an effect as a loose one. -/
def keepEffect (s : Studio) (e : Effect) : Studio := { s with effects := s.effects.insert e.id e }

/-- Makes an effect: its number.  If that fails, no number is used up. -/
def addEffect (make : Nat → Except Error Effect) : Act Studio Nat := do
  let s ← Act.get
  let e ← Act.ofExcept (make s.nextEffect)
  Act.set { s.keepEffect { e with id := s.nextEffect } with nextEffect := s.nextEffect + 1 }
  return s.nextEffect

/-- Takes a loose effect away. -/
def takeEffect (n : Nat) : Act Studio Effect := do
  let s ← Act.get
  match s.effects.get? n with
  | none => unknown "effect" n
  | some e =>
    Act.set { s with effects := s.effects.erase n }
    return e

/-- Takes loose effects away in order. -/
def takeEffects : List Nat → Act Studio (List Effect)
  | [] => return []
  | n :: ns => do
    let e ← takeEffect n
    return e :: (← takeEffects ns)

/-- Inserts a loose effect into a pass, at the end without an index.  If that fails, the effect is thrown away. -/
def joinPass (n effect : Nat) (index : Option Nat) : Act Studio Unit := do
  let e ← takeEffect effect
  onEffectPass n <| match index with
    | some i => EffectPass.insertEffect i e
    | none => EffectPass.addEffect e

/-- Takes a member out of a pass, which makes it loose: whether it was one. -/
def leavePass (n effect : Nat) : Act Studio Bool := do
  let removed ← onEffectPass n <| always fun s =>
    let (removed, p) := s.stage.removeEffect effect
    (removed, { s with stage := p })
  Act.modify fun s => removed.toList.foldl keepEffect s
  return removed.isSome

/-- Replaces the members of a pass by loose effects; the members before become loose.  If that fails, the new ones are
thrown away. -/
def exchangeEffects (n : Nat) (effects : List Nat) : Act Studio (List Effect) := do
  let effects ← takeEffects effects
  let old ← onEffectPass n fun s =>
    match s.stage.setEffects effects with
    | .ok (old, p) => (.ok old, { s with stage := p })
    | .error e => (.error e, s)
  Act.modify fun s => old.foldl keepEffect s
  return old

/-! ## Passes -/

/-- Keeps a new pass as a loose one: its number. -/
def addPass (p : Pass) : Act Studio Nat := always fun s =>
  (s.nextPass, { s with passes := s.passes.insert s.nextPass p, nextPass := s.nextPass + 1 })

/-- Puts a loose pass into the pipeline: its number there.  If that fails, the pass is thrown away. -/
def enterPipeline (n : Nat) (index : Option Nat) : Act Studio Nat := do
  let s ← Act.get
  match s.passes.get? n with
  | none => unknown "pass" n
  | some p =>
    Act.set { s with passes := s.passes.erase n }
    let id ← onPipeline (Pipeline.addPass p index)
    Act.modify fun s => { s with entryIds := s.entryIds.insert n id }
    return id

/-- The number that a pass last had in a pipeline. -/
def entryId (n : Nat) : Act Studio Nat := do
  match (← Act.get).entryIds.get? n with
  | some id => return id
  | none => unknown "pass" n

/-- Takes a pass out of the pipeline, which disposes of it and makes it loose: whether it was there. -/
def leavePipeline (n : Nat) : Act Studio Bool := do
  match ← onPipeline (Pipeline.removePass (← entryId n)) with
  | none => return false
  | some p =>
    Act.modify fun s => { s with passes := s.passes.insert n p }
    return true

/-- Enables or disables a pass of the pipeline: whether it is there. -/
def setEnabled (n : Nat) (enabled : Bool) : Act Studio Bool := do
  let id ← entryId n
  onPipeline <| always fun s =>
    let (found, p) := s.stage.setEnabled id enabled
    (found, { s with stage := p })

/-- Starts a pipeline, in place of the one before, which is not disposed of: its read and write buffers. -/
def startPipeline (options : PipelineOptions) : Act Studio (Option (Nat × Nat)) := do
  let p ← onHost (Pipeline.create options)
  Act.modify fun s => { s with pipeline := some p }
  return p.buffers

/-- The calls and events since the record was last taken. -/
def takeRecord (s : Studio) : Array Call × Array Event × Studio :=
  (s.host.calls, s.host.events, { s with host := { s.host with calls := #[], events := #[] } })

theorem effect?_keepEffect (s : Studio) (e : Effect) : (s.keepEffect e).effect? e.id = some e := by
  simp [effect?, keepEffect, Table.get?_insert]

end Studio

end ScreenFusion
