import ScreenFusion.Proofs.Effect.Change
import ScreenFusion.Proofs.Pass.EffectCommit

/-!
# ScreenFusion.Proofs.Pass.EffectHistory — what becomes of an effect pass

An effect pass is made and then used in any order and on any host: between two uses the host may have been used by
others.  What holds of every pass that can be had so is an invariant: its members are told apart and not acknowledged
ahead of their versions, its versions count the programs made for it, its program was made from members with its key,
and if nothing has changed since a commit without error, that key is the present one.

* `EffectPassOp`: the uses of a pass as data.
* `Reached`: the passes that can be had, each with the calls that it has given.
* `Reached.invariant`: the invariant.
-/

namespace ScreenFusion

open Fusion

/-- The calls that a host has been given since. -/
def Host.issuedSince (h k : Host) : List Call := k.calls.toList.drop h.calls.size

/-- The builds of effect passes that have been reported to a host since. -/
def Host.buildsSince (h k : Host) : Nat := (k.events.toList.drop h.events.size).countP Event.isBuildReport

theorem Host.Advanced.issuedSince_eq {h k : Host} {calls : List Call} {events : List Event}
    (a : h.Advanced calls events k) : h.issuedSince k = calls := by
  rw [Host.issuedSince, a.calls_eq, ← Array.length_toList, List.drop_left]

theorem Host.Advanced.buildsSince_eq {h k : Host} {calls : List Call} {events : List Event}
    (a : h.Advanced calls events k) : h.buildsSince k = events.countP Event.isBuildReport := by
  rw [Host.buildsSince, a.events_eq, ← Array.length_toList, List.drop_left]

/-- A change of an effect reports no build. -/
theorem EffectChange.countP_events (c : EffectChange) (e : Effect) : (c.events e).countP Event.isBuildReport = 0 := by
  cases c with
  | dispose =>
    show e.dispose.2.1.countP Event.isBuildReport = 0
    unfold Effect.dispose
    split <;> rfl
  | _ => rfl

/-- A use of an effect pass. -/
inductive EffectPassOp where
  | insert (index : Nat) (e : Effect)
  | add (e : Effect)
  | remove (id : Nat)
  | replace (effects : List Effect)
  | attributes (id : Nat) (attributes : Attributes)
  /-- A change of a member through a reference to it. -/
  | change (id : Nat) (c : EffectChange)
  /-- A change of the first member with a name through a reference to it. -/
  | changeNamed (name : String) (c : EffectChange)
  | camera (planes : CameraPlanes)
  | settings (s : PassSettings)
  | configure (setup : Setup)
  | commit
  | render (io : PassIo) (deltaTime : Binary32)
  | dispose

namespace EffectPass

/-- A change of a member, if there is one with the number. -/
def changeEffect (id : Nat) (c : EffectChange) : Act (Staged EffectPass) Unit := do
  let p ← Staged.get
  match p.effect? id with
  | none => return ()
  | some e =>
    Staged.report (c.events e)
    Staged.modify fun p => p.modifyEffect id c.apply

end EffectPass

namespace EffectPassOp

open EffectPass in
/-- What a use does. -/
def run : EffectPassOp → Act (Staged EffectPass) Unit
  | insert index e => insertEffect index e
  | add e => addEffect e
  | remove id => Staged.modify fun p => (p.removeEffect id).2
  | replace effects => do
    let (_, p) ← Act.ofExcept ((← Staged.get).setEffects effects)
    Staged.modify fun _ => p
  | attributes id a => setEffectAttributes id a
  | change id c => changeEffect id c
  | changeNamed name c => do
    match (← Staged.get).effectByName? name with
    | none => return ()
    | some e => changeEffect e.id c
  | camera planes => Staged.modify fun p => { p with camera := planes }
  | settings s => Staged.modify fun p => { p with settings := s }
  | configure setup => EffectPass.configure setup
  | commit => do let _ ← EffectPass.commit
  | render io deltaTime => EffectPass.render io deltaTime
  | dispose => do let _ ← EffectPass.dispose

theorem run_commit (s : Staged EffectPass) : (run .commit s).2 = (EffectPass.commit s).2 :=
  congrArg Prod.snd (Act.drop_apply EffectPass.commit s)

theorem run_dispose (s : Staged EffectPass) : (run .dispose s).2 = (EffectPass.dispose s).2 :=
  congrArg Prod.snd (Act.drop_apply EffectPass.dispose s)

theorem run_changeNamed (name : String) (c : EffectChange) (p : EffectPass) (h : Host) :
    run (.changeNamed name c) ⟨p, h⟩ = match p.effectByName? name with
      | none => (.ok (), ⟨p, h⟩)
      | some e => EffectPass.changeEffect e.id c ⟨p, h⟩ := by
  unfold run
  dsimp only
  rw [Act.bind_of_ok (Staged.get_apply _)]
  cases p.effectByName? name <;> rfl

/-- An effect is in at most one place: what is put into a pass can be had and is not yet there. -/
def Admissible (p : EffectPass) : EffectPassOp → Prop
  | insert _ e | add e => e.Made ∧ e.id ∉ p.effects.map Effect.id
  | replace effects => (∀ e ∈ effects, e.Made) ∧ (effects.map Effect.id).Nodup
  | _ => True

end EffectPassOp

/-- Whether a use builds the program if that is due. -/
def EffectPassOp.builds : EffectPassOp → Bool
  | commit | render .. => true
  | _ => false

namespace EffectPass

/-- The passes that can be had, each with the calls that it has given so far. -/
inductive Reached : EffectPass → List Call → Prop where
  | created {name : String} {effects : List Effect} {p : EffectPass} : (∀ e ∈ effects, e.Made) →
      (effects.map Effect.id).Nodup → create name effects = .ok p → Reached p []
  | used {p : EffectPass} {calls : List Call} (op : EffectPassOp) (h : Host) : Reached p calls → op.Admissible p →
      Reached (op.run ⟨p, h⟩).2.stage (calls ++ h.issuedSince (op.run ⟨p, h⟩).2.host)

end EffectPass

/-- The program was made from effects with its key. -/
def CompiledEffects.Genuine (name : String) (c : CompiledEffects) : Prop :=
  ∃ (effects : List Effect) (source : ProgramSource) (h : Host),
    effects.map EffectKey.of = c.key.effects ∧
    (fuse name (effects.map FuseUnit.ofEffect) c.key.options).2 = .ok source ∧
    (Host.compileProgram source h).1 = .ok c.program ∧
    c.layout = source.layout ∧ c.slotCount = source.slots.length ∧ c.text = source.text

namespace EffectPass

/-- What holds of every pass that can be had. -/
structure Invariant (p : EffectPass) (calls : List Call) : Prop where
  acknowledged : ∀ e ∈ p.effects, e.acknowledged ≤ e.version
  distinct : (p.effects.map Effect.id).Nodup
  versions : p.programVersion = calls.countP Call.madeProgram
  genuine : ∀ c, p.compiled = some c → c.Genuine p.name
  fresh : p.isDirty = false → p.lastError = none → ∀ c, p.compiled = some c → c.key = p.key

/-! ## What uses do -/

/-- What a change of a member keeps of it is kept of all. -/
theorem map_modifyEffect {α : Type} {g : Effect → α} {f : Effect → Effect} (hg : ∀ e, g (f e) = g e) (p : EffectPass)
    (id : Nat) : (p.modifyEffect id f).effects.map g = p.effects.map g := by
  show (p.effects.map _).map g = _
  rw [List.map_map]
  refine List.map_congr_left fun e _ => ?_
  show g (if e.id = id then f e else e) = g e
  split
  · exact hg e
  · rfl

theorem changeEffect_eq (id : Nat) (c : EffectChange) (p : EffectPass) (h : Host) :
    changeEffect id c ⟨p, h⟩ = (.ok (), match p.effect? id with
      | none => ⟨p, h⟩
      | some e => ⟨p.modifyEffect id c.apply, h.report (c.events e)⟩) := by
  unfold changeEffect
  rw [Act.bind_of_ok (Staged.get_apply _)]
  cases p.effect? id <;> rfl

theorem insertEffect_eq (index : Nat) (e : Effect) (p : EffectPass) (h : Host) :
    insertEffect index e ⟨p, h⟩ = match checkMembers p.name (p.effects ++ [e]) with
      | .error err => (.error err, ⟨p, h⟩)
      | .ok _ => (.ok (),
        ⟨{ p with effects := p.effects.insertIdx (min index p.effects.length) e, membersChanged := true },
          h.report [.effectInserted p.name e.name (min index p.effects.length)]⟩) := by
  unfold insertEffect
  rw [Act.bind_of_ok (Staged.get_apply _)]
  cases checkMembers p.name (p.effects ++ [e]) <;> rfl

theorem run_replace (effects : List Effect) (p : EffectPass) (h : Host) :
    EffectPassOp.run (.replace effects) ⟨p, h⟩ = match checkMembers p.name effects with
      | .error err => (.error err, ⟨p, h⟩)
      | .ok _ => (.ok (), ⟨{ p with effects, membersChanged := true }, h⟩) := by
  show (Act.ofExcept (p.setEffects effects) >>= fun r => Staged.modify fun _ => r.2) ⟨p, h⟩ = _
  unfold setEffects
  cases checkMembers p.name effects <;> rfl

theorem setEffectAttributes_eq (id : Nat) (a : Attributes) (p : EffectPass) (h : Host) :
    setEffectAttributes id a ⟨p, h⟩ = match p.effect? id with
      | none => (.error (.configuration p.name (.unknownEffect id)), ⟨p, h⟩)
      | some e =>
        match checkMembers p.name (p.modifyEffect id (·.setAttributes a)).effects with
        | .ok _ => (.ok (), ⟨p.modifyEffect id (·.setAttributes a), h⟩)
        | .error err => (.error err,
          ⟨(p.modifyEffect id (·.setAttributes a)).modifyEffect id (·.setAttributes e.attributes), h⟩) := by
  unfold setEffectAttributes
  rw [Act.bind_of_ok (Staged.get_apply _)]
  cases p.effect? id with
  | none => rfl
  | some e =>
    dsimp only
    rw [Act.bind_of_ok (Staged.modify_apply _ _), Act.bind_of_ok (Staged.get_apply _)]
    cases checkMembers p.name (p.modifyEffect id (·.setAttributes a)).effects <;> rfl

/-! ## Uses that build nothing -/

/-- What a use that builds nothing leaves: if it leaves the pass without changes, there were none and its key is the
same. -/
structure Carried (p q : EffectPass) : Prop where
  name : q.name = p.name
  compiled : q.compiled = p.compiled ∨ q.compiled = none
  lastError : q.lastError = p.lastError
  versions : q.programVersion = p.programVersion
  acknowledged : (∀ e ∈ p.effects, e.acknowledged ≤ e.version) → ∀ e ∈ q.effects, e.acknowledged ≤ e.version
  distinct : (p.effects.map Effect.id).Nodup → (q.effects.map Effect.id).Nodup
  clean : (∀ e ∈ p.effects, e.acknowledged ≤ e.version) → q.isDirty = false → p.isDirty = false ∧ q.key = p.key

namespace Carried

variable {p q r : EffectPass}

theorem refl (p : EffectPass) : Carried p p := ⟨rfl, .inl rfl, rfl, rfl, id, id, fun _ h => ⟨h, rfl⟩⟩

theorem trans (pq : Carried p q) (qr : Carried q r) : Carried p r := by
  refine ⟨qr.name.trans pq.name, ?_, qr.lastError.trans pq.lastError, qr.versions.trans pq.versions,
    fun h => qr.acknowledged (pq.acknowledged h), fun h => qr.distinct (pq.distinct h), ?_⟩
  · rcases qr.compiled with h | h
    · rw [h]
      exact pq.compiled
    · exact .inr h
  · intro ha hr
    obtain ⟨hq, hrq⟩ := qr.clean (pq.acknowledged ha) hr
    obtain ⟨hp, hqp⟩ := pq.clean ha hq
    exact ⟨hp, hrq.trans hqp⟩

/-- Other members or options, and the mark that says so. -/
theorem marked {effects : List Effect} {options : FuseOptions}
    (ha : (∀ e ∈ p.effects, e.acknowledged ≤ e.version) → ∀ e ∈ effects, e.acknowledged ≤ e.version)
    (hd : (p.effects.map Effect.id).Nodup → (effects.map Effect.id).Nodup) :
    Carried p { p with effects, options, membersChanged := true } := by
  refine ⟨rfl, .inl rfl, rfl, rfl, ha, hd, fun _ h => ?_⟩
  have h : (true || effects.any Effect.isChanged) = false := h
  cases h

/-- The members changed in place, each so that its version is raised or its key stays. -/
theorem mapped {f : Effect → Effect} (hf : ∀ e, EffectChange.Spec e (f e)) :
    Carried p { p with effects := p.effects.map f } := by
  refine ⟨rfl, .inl rfl, rfl, rfl, ?_, ?_, ?_⟩
  · intro ha e' he'
    obtain ⟨e, he, rfl⟩ := List.mem_map.1 he'
    have := ha e he
    rw [(hf e).acknowledged_eq]
    rcases (hf e).version with hv | ⟨hv, -⟩ <;> omega
  · intro hd
    have hids : (p.effects.map f).map Effect.id = p.effects.map Effect.id := by
      rw [List.map_map]
      exact List.map_congr_left fun e _ => (hf e).id_eq
    exact hids ▸ hd
  · intro ha hq
    obtain ⟨hm, hany⟩ : p.membersChanged = false ∧ (p.effects.map f).any Effect.isChanged = false := by
      simpa [isDirty] using hq
    have hsame (e : Effect) (he : e ∈ p.effects) : e.isChanged = false ∧ EffectKey.of (f e) = EffectKey.of e := by
      have hfe : (f e).isChanged = false := by
        simp only [List.any_eq_false] at hany
        simpa using hany (f e) (List.mem_map.2 ⟨e, he, rfl⟩)
      have hver : (f e).version = (f e).acknowledged := by simpa [Effect.isChanged] using hfe
      rw [(hf e).acknowledged_eq] at hver
      have hle := ha e he
      rcases (hf e).version with hv | ⟨hv, hk⟩
      · omega
      · refine ⟨?_, hk⟩
        rw [hv] at hver
        simp [Effect.isChanged, hver]
    refine ⟨?_, ?_⟩
    · simp only [isDirty, hm, Bool.false_or, List.any_eq_false]
      intro e he
      simp [(hsame e he).1]
    · have hkeys : (p.effects.map f).map EffectKey.of = p.effects.map EffectKey.of := by
        rw [List.map_map]
        exact List.map_congr_left fun e he => (hsame e he).2
      unfold key
      rw [hkeys]

theorem modifyEffect (id : Nat) {f : Effect → Effect} (hf : ∀ e, EffectChange.Spec e (f e)) :
    Carried p (p.modifyEffect id f) := by
  refine mapped fun e => ?_
  split
  · exact hf e
  · exact .same e

/-- A pass that differs in nothing that a build depends on. -/
theorem untouched (hn : q.name = p.name) (hc : q.compiled = p.compiled) (hl : q.lastError = p.lastError)
    (hv : q.programVersion = p.programVersion) (he : q.effects = p.effects) (ho : q.options = p.options)
    (hm : q.membersChanged = p.membersChanged) : Carried p q := by
  refine ⟨hn, .inl hc, hl, hv, by rw [he]; exact id, by rw [he]; exact id, fun _ h => ⟨?_, ?_⟩⟩
  · unfold isDirty at h ⊢
    rw [hm, he] at h
    exact h
  · unfold key
    rw [he, ho]

theorem invariant {calls issued : List Call} (c : Carried p q) (i : Invariant p calls)
    (hi : issued.countP Call.madeProgram = 0) : Invariant q (calls ++ issued) := by
  refine ⟨c.acknowledged i.acknowledged, c.distinct i.distinct, ?_, ?_, ?_⟩
  · rw [List.countP_append, hi, c.versions, i.versions]
    rfl
  · intro x hx
    rw [c.name]
    rcases c.compiled with hc | hc
    · exact i.genuine x (hc ▸ hx)
    · rw [hc] at hx
      cases hx
  · intro hq hl x hx
    obtain ⟨hp, hk⟩ := c.clean i.acknowledged hq
    rcases c.compiled with hc | hc
    · rw [hk]
      exact i.fresh hp (c.lastError ▸ hl) x (hc ▸ hx)
    · rw [hc] at hx
      cases hx

end Carried

/-- What a use that builds nothing leaves of the pass and of its host. -/
structure Leaves (p : EffectPass) (h : Host) (s : Staged EffectPass) : Prop where
  stage : Carried p s.stage
  host : h.Spends 0 0 s.host

theorem Leaves.refl (p : EffectPass) (h : Host) : Leaves p h ⟨p, h⟩ := ⟨.refl p, .refl h⟩

theorem leaves_changeEffect (id : Nat) (c : EffectChange) (p : EffectPass) (h : Host) :
    Leaves p h (changeEffect id c ⟨p, h⟩).2 := by
  rw [changeEffect_eq]
  cases p.effect? id with
  | none => exact .refl p h
  | some e =>
    have spends := Host.spends_report (c.events e) h
    rw [EffectChange.countP_events] at spends
    exact ⟨.modifyEffect id c.apply_spec, spends⟩

theorem leaves_insertEffect {e : Effect} (he : e.Made ∧ e.id ∉ p.effects.map Effect.id) (index : Nat) (h : Host) :
    Leaves p h (insertEffect index e ⟨p, h⟩).2 := by
  rw [insertEffect_eq]
  cases checkMembers p.name (p.effects ++ [e]) with
  | error err => exact .refl p h
  | ok a =>
    have hle : min index p.effects.length ≤ p.effects.length := Nat.min_le_right _ _
    have hperm := List.perm_insertIdx e p.effects hle
    refine ⟨.marked ?_ ?_, Host.spends_report _ h⟩
    · intro ha x hx
      rcases List.mem_cons.1 (hperm.mem_iff.1 hx) with rfl | hx
      · exact he.1.acknowledged_le
      · exact ha x hx
    · intro hd
      rw [(hperm.map Effect.id).nodup_iff, List.map_cons, List.nodup_cons]
      exact ⟨he.2, hd⟩

theorem leaves_setEffectAttributes (id : Nat) (a : Attributes) (p : EffectPass) (h : Host) :
    Leaves p h (setEffectAttributes id a ⟨p, h⟩).2 := by
  have hset (b : Attributes) : Carried p (p.modifyEffect id (·.setAttributes b)) :=
    .modifyEffect id (EffectChange.attributes b).apply_spec
  rw [setEffectAttributes_eq]
  cases p.effect? id with
  | none => exact .refl p h
  | some e =>
    cases checkMembers p.name (p.modifyEffect id (·.setAttributes a)).effects with
    | ok _ => exact ⟨hset a, .refl h⟩
    | error err =>
      exact ⟨(hset a).trans (.modifyEffect id (EffectChange.attributes e.attributes).apply_spec), .refl h⟩

theorem dispose_of_live (hd : p.disposed = false) (h : Host) :
    dispose ⟨p, h⟩ = (.ok true,
      ⟨{ p with disposed := true, compiled := none, effects := p.effects.map EffectChange.dispose.apply },
        (p.retire h).report (p.effects.flatMap EffectChange.dispose.events ++ [.passDisposed p.name])⟩) := by
  unfold dispose
  rw [Act.bind_of_ok (Staged.get_apply _), if_neg (by simp [hd])]
  have hevents (effects : List Effect) :
      (effects.map Effect.dispose).flatMap (fun d => d.2.1) = effects.flatMap EffectChange.dispose.events := by
    rw [List.flatMap_map]
    rfl
  have heffects (effects : List Effect) :
      (effects.map Effect.dispose).map (fun d => d.2.2) = effects.map EffectChange.dispose.apply := by
    rw [List.map_map]
    rfl
  rw [← hevents, ← heffects]
  obtain ⟨name, settings, effects, options, compiled, _, _, _, _, _, _⟩ := p
  cases compiled with
  | none => rfl
  | some old => rfl

theorem dispose_of_disposed (hd : p.disposed = true) (h : Host) : dispose ⟨p, h⟩ = (.ok false, ⟨p, h⟩) := by
  unfold dispose
  rw [Act.bind_of_ok (Staged.get_apply _), if_pos hd]
  rfl

theorem leaves_dispose (p : EffectPass) (h : Host) : Leaves p h (dispose ⟨p, h⟩).2 := by
  cases hd : p.disposed with
  | true =>
    rw [dispose_of_disposed hd]
    exact .refl p h
  | false =>
    rw [dispose_of_live hd]
    have mapped : Carried p { p with effects := p.effects.map EffectChange.dispose.apply } :=
      .mapped EffectChange.dispose.apply_spec
    refine ⟨⟨rfl, .inr rfl, rfl, rfl, mapped.acknowledged, mapped.distinct, mapped.clean⟩, ?_⟩
    have hevents : (p.effects.flatMap EffectChange.dispose.events).countP Event.isBuildReport = 0 := by
      rw [List.countP_eq_zero]
      intro event he
      obtain ⟨e, -, he⟩ := List.mem_flatMap.1 he
      exact List.countP_eq_zero.1 (EffectChange.dispose.countP_events e) event he
    have reported := Host.spends_report
      (p.effects.flatMap EffectChange.dispose.events ++ [.passDisposed p.name]) (p.retire h)
    rw [List.countP_append, hevents] at reported
    exact (spends_retire p h).trans reported

theorem leaves_run {op : EffectPassOp} (hb : op.builds = false) (ha : op.Admissible p) (h : Host) :
    Leaves p h (op.run ⟨p, h⟩).2 := by
  cases op with
  | insert index e => exact leaves_insertEffect ha index h
  | add e => exact leaves_insertEffect ha _ h
  | remove id =>
    refine ⟨?_, .refl h⟩
    show Carried p (p.removeEffect id).2
    unfold removeEffect
    cases p.effect? id with
    | none => exact .refl p
    | some e =>
      refine .marked (fun ha x hx => ha x (List.mem_of_mem_eraseP hx)) fun hd => ?_
      exact hd.sublist (List.eraseP_sublist.map _)
  | replace effects =>
    rw [run_replace]
    cases checkMembers p.name effects with
    | error e => exact .refl p h
    | ok a => exact ⟨.marked (fun _ x hx => (ha.1 x hx).acknowledged_le) fun _ => ha.2, .refl h⟩
  | attributes id a => exact leaves_setEffectAttributes id a p h
  | change id c => exact leaves_changeEffect id c p h
  | changeNamed name c =>
    rw [EffectPassOp.run_changeNamed]
    cases p.effectByName? name with
    | none => exact .refl p h
    | some e => exact leaves_changeEffect e.id c p h
  | camera planes => exact ⟨.untouched rfl rfl rfl rfl rfl rfl rfl, .refl h⟩
  | settings s => exact ⟨.untouched rfl rfl rfl rfl rfl rfl rfl, .refl h⟩
  | configure setup =>
    refine ⟨?_, .refl h⟩
    show Carried p (if p.options = _ then p else _)
    split
    · exact .refl p
    · exact .marked id id
  | dispose =>
    rw [EffectPassOp.run_dispose]
    exact leaves_dispose p h
  | commit => cases hb
  | render io deltaTime => cases hb

/-! ## Every use -/

/-- A commit keeps the invariant, with the calls that it gives. -/
theorem Invariant.commit {calls : List Call} (i : Invariant p calls) (h : Host) :
    Invariant (EffectPass.commit ⟨p, h⟩).2.stage (calls ++ h.issuedSince (EffectPass.commit ⟨p, h⟩).2.host) := by
  have acknowledged : ∀ e ∈ p.acknowledgeAll.effects, e.acknowledged ≤ e.version := by
    intro e' he'
    obtain ⟨e, -, rfl⟩ := List.mem_map.1 he'
    exact Nat.le_refl _
  have distinct : (p.acknowledgeAll.effects.map Effect.id).Nodup := by
    unfold acknowledgeAll
    rw [List.map_map]
    exact i.distinct
  have out := commit_outcome p h
  obtain ⟨programs, builds, ⟨issued, events, adv, hissued, -⟩, hversion, -⟩ := out.spends
  rw [adv.issuedSince_eq]
  have versions : (EffectPass.commit ⟨p, h⟩).2.stage.programVersion = (calls ++ issued).countP Call.madeProgram := by
    rw [hversion, List.countP_append, hissued, i.versions]
  clear hversion adv
  generalize (EffectPass.commit ⟨p, h⟩).1 = r at out
  generalize (EffectPass.commit ⟨p, h⟩).2.stage = q at out versions ⊢
  generalize (EffectPass.commit ⟨p, h⟩).2.host = k at out
  cases out with
  | disposed _ => exact ⟨i.acknowledged, i.distinct, versions, i.genuine, i.fresh⟩
  | clean _ _ _ => exact ⟨i.acknowledged, i.distinct, versions, i.genuine, i.fresh⟩
  | failedBefore _ _ _ _ => exact ⟨i.acknowledged, i.distinct, versions, i.genuine, i.fresh⟩
  | takenBack _ _ hc hk =>
    refine ⟨acknowledged, distinct, versions, i.genuine, ?_⟩
    intro _ _ x hx
    have hx : p.compiled = some x := hx
    rw [hc] at hx
    cases hx
    exact hk.trans p.key_acknowledgeAll.symm
  | built _ _ b =>
    obtain ⟨-, source, hsource, hmade, hc⟩ := b
    refine ⟨acknowledged, distinct, versions, ?_, ?_⟩
    · intro x hx
      cases hx
      rw [hc]
      exact ⟨p.effects, source, h.report p.fusingEvents, rfl, hsource, congrArg Prod.fst hmade, rfl, rfl, rfl⟩
    · intro _ _ x hx
      cases hx
      exact (congrArg CompiledEffects.key hc).trans p.key_acknowledgeAll.symm
  | failed _ _ _ =>
    refine ⟨acknowledged, distinct, versions, i.genuine, ?_⟩
    intro _ hl
    cases hl

theorem Leaves.invariant {s : Staged EffectPass} {calls : List Call} (l : Leaves p h s) (i : Invariant p calls) :
    Invariant s.stage (calls ++ h.issuedSince s.host) := by
  obtain ⟨issued, events, adv, hi, -⟩ := l.host
  rw [adv.issuedSince_eq]
  exact l.stage.invariant i hi

/-- A render keeps the invariant: it is a commit and, if that succeeds, a use that builds nothing. -/
theorem Invariant.render {calls : List Call} (i : Invariant p calls) (h : Host) (io : PassIo) (deltaTime : Binary32) :
    Invariant (EffectPass.render io deltaTime ⟨p, h⟩).2.stage
      (calls ++ h.issuedSince (EffectPass.render io deltaTime ⟨p, h⟩).2.host) := by
  have ic := i.commit h
  obtain ⟨_, _, ⟨issued, events, adv, -, -⟩, -, -⟩ := (commit_outcome p h).spends
  rcases hc : EffectPass.commit ⟨p, h⟩ with ⟨e | b, q, k⟩
  · rw [render_of_commit_error hc]
    rw [hc] at ic
    exact ic
  · obtain ⟨c, hq⟩ := compiled_of_commit_ok hc
    rw [hc] at ic adv
    rw [adv.issuedSince_eq] at ic
    rw [render_of_commit_ok hc hq]
    obtain ⟨drawn, reported, adv', hdrawn, -⟩ :=
      Host.spends_drawFullscreen (({ q with elapsed := q.elapsed + deltaTime } : EffectPass).drawOf c io deltaTime
        k.device) k
    rw [(adv.trans adv').issuedSince_eq, ← List.append_assoc]
    have ic : Invariant q (calls ++ issued) := ic
    have carried : Carried q { q with elapsed := q.elapsed + deltaTime } := .untouched rfl rfl rfl rfl rfl rfl rfl
    exact carried.invariant ic hdrawn

/-- Every use of a pass keeps the invariant. -/
theorem Invariant.used {calls : List Call} (i : Invariant p calls) (op : EffectPassOp) (h : Host)
    (ha : op.Admissible p) :
    Invariant (op.run ⟨p, h⟩).2.stage (calls ++ h.issuedSince (op.run ⟨p, h⟩).2.host) := by
  cases op with
  | commit =>
    rw [EffectPassOp.run_commit]
    exact i.commit h
  | render io deltaTime => exact i.render h io deltaTime
  | _ => exact (leaves_run rfl ha h).invariant i

/-- The invariant holds of every pass that can be had. -/
theorem Reached.invariant {calls : List Call} (r : Reached p calls) : Invariant p calls := by
  induction r with
  | @created name effects p hm hd hp =>
    unfold create at hp
    obtain ⟨a, -, hp⟩ := ok_of_bind hp
    cases hp
    refine ⟨fun e he => (hm e he).acknowledged_le, hd, rfl, ?_, ?_⟩
    · intro c hc
      cases hc
    · intro _ _ c hc
      cases hc
  | used op h _ ha ih => exact ih.used op h ha

end EffectPass

end ScreenFusion
