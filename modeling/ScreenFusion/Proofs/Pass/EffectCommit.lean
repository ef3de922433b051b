import ScreenFusion.Proofs.Pass.Filling

/-!
# ScreenFusion.Proofs.Pass.EffectCommit — what a commit can do

A commit ends in one of six ways: the pass is disposed of, it has nothing to build, its last build has failed and
nothing has changed since, its changes have been taken back, a program is built, or a build fails.  Each way is said
with all that it depends on and all that it leaves.

* `build_of_ok`, `build_of_error`: what a build gives the device and reports.
* `CommitOutcome`, `commit_outcome`: the six ways.
* `render_eq`: a render is a commit, the passing of time, and a draw.
-/

namespace ScreenFusion

/-! ## The record of a host -/

/-- Whether the event is the report of a build of an effect pass, successful or not. -/
def Event.isBuildReport : Event → Bool
  | .fused .. | .programKept .. | .passDisabled .. => true
  | _ => false

/-- Whether the call has made a program. -/
def Call.madeProgram (c : Call) : Bool :=
  match c.command, c.answer with
  | .compileProgram .., .handle _ => true
  | _, _ => false

namespace Host

/-- A host has been given calls and reports since. -/
structure Advanced (h : Host) (calls : List Call) (events : List Event) (k : Host) : Prop where
  calls_eq : k.calls.toList = h.calls.toList ++ calls
  events_eq : k.events.toList = h.events.toList ++ events

theorem Advanced.refl (h : Host) : h.Advanced [] [] h := ⟨by simp, by simp⟩

theorem Advanced.trans {h k l : Host} {calls calls' : List Call} {events events' : List Event}
    (hk : h.Advanced calls events k) (kl : k.Advanced calls' events' l) :
    h.Advanced (calls ++ calls') (events ++ events') l := by
  refine ⟨?_, ?_⟩
  · rw [kl.calls_eq, hk.calls_eq, List.append_assoc]
  · rw [kl.events_eq, hk.events_eq, List.append_assoc]

theorem advanced_report (h : Host) (events : List Event) : h.Advanced [] events (h.report events) := by
  refine ⟨?_, ?_⟩
  · rw [List.append_nil]
    rfl
  · show (h.events ++ events.toArray).toList = _
    simp

theorem advanced_recordCall (h : Host) (d : Device) (armed : List ArmedFailure) (command : Command) (answer : Answer) :
    h.Advanced [⟨command, answer⟩] [] (({ h with device := d, armed } : Host).recordCall command answer) := by
  refine ⟨?_, ?_⟩
  · show (h.calls.push _).toList = _
    simp
  · rw [List.append_nil]
    rfl

theorem advanced_releaseProgram (h : Host) (program : Nat) :
    ∃ found, h.Advanced [⟨.releaseProgram program, .released found⟩] [] (h.releaseProgram program).2 :=
  ⟨_, advanced_recordCall h _ h.armed _ _⟩

/-- The numbers of programs made and of builds reported between two states of a host. -/
def Spends (h : Host) (programs builds : Nat) (k : Host) : Prop :=
  ∃ calls events, h.Advanced calls events k ∧
    calls.countP Call.madeProgram = programs ∧ events.countP Event.isBuildReport = builds

theorem Spends.refl (h : Host) : h.Spends 0 0 h := ⟨[], [], .refl h, rfl, rfl⟩

theorem Spends.trans {h k l : Host} {m n m' n' : Nat} (hk : h.Spends m n k) (kl : k.Spends m' n' l) :
    h.Spends (m + m') (n + n') l := by
  obtain ⟨calls, events, adv, hc, he⟩ := hk
  obtain ⟨calls', events', adv', hc', he'⟩ := kl
  refine ⟨_, _, adv.trans adv', ?_, ?_⟩
  · rw [List.countP_append, hc, hc']
  · rw [List.countP_append, he, he']

theorem spends_report (events : List Event) (h : Host) :
    h.Spends 0 (events.countP Event.isBuildReport) (h.report events) :=
  ⟨[], events, advanced_report h events, rfl, rfl⟩

theorem spends_releaseProgram (h : Host) (program : Nat) : h.Spends 0 0 (h.releaseProgram program).2 := by
  obtain ⟨found, adv⟩ := advanced_releaseProgram h program
  exact ⟨_, _, adv, rfl, rfl⟩

/-- A command that can fail is recorded once, with the answer that its result has. -/
theorem advanced_issue {α : Type} (command : Command) (answer : α → Answer) (run : Act Device α) (h : Host) :
    h.Advanced [⟨command, match (issue command answer run h).1 with
      | .ok a => answer a
      | .error _ => .failed⟩] [] (issue command answer run h).2 := by
  unfold issue
  rcases countDown command.name h.armed with ⟨fires, armed⟩
  cases fires with
  | true => exact advanced_recordCall h h.device armed command .failed
  | false =>
    simp only [Bool.false_eq_true, if_false]
    rcases run h.device with ⟨e | a, d⟩
    · exact advanced_recordCall h d armed command .failed
    · exact advanced_recordCall h d armed command (answer a)

theorem spends_drawFullscreen (draw : FullscreenDraw) (h : Host) : h.Spends 0 0 (drawFullscreen draw h).2 :=
  ⟨_, _, advanced_issue _ _ _ h, rfl, rfl⟩

/-- What a command that succeeds gives is what the device gives. -/
theorem run_of_issue_ok {α : Type} {command : Command} {answer : α → Answer} {run : Act Device α} {h k : Host} {a : α}
    (hi : issue command answer run h = (.ok a, k)) : run h.device = (.ok a, k.device) := by
  unfold issue at hi
  rcases hc : countDown command.name h.armed with ⟨fires, armed⟩
  rw [hc] at hi
  cases fires with
  | true => cases hi
  | false =>
    simp only [Bool.false_eq_true, if_false] at hi
    rcases hr : run h.device with ⟨e | b, d⟩
    · rw [hr] at hi
      cases hi
    · rw [hr] at hi
      cases hi
      rfl

end Host

namespace EffectPass

open Fusion

variable {p : EffectPass} {h k : Host} {key : ProgramKey} {c : CompiledEffects} {e : Error}

/-! ## Builds -/

/-- What is reported while the members are fused. -/
def fusingEvents (p : EffectPass) : List Event := (fuse p.name (p.effects.map FuseUnit.ofEffect) p.options).1

/-- The program of the members, if they can be fused. -/
def fusedSource (p : EffectPass) : Except Error ProgramSource :=
  (fuse p.name (p.effects.map FuseUnit.ofEffect) p.options).2

/-- A build has made a program out of the members. -/
structure Builds (p : EffectPass) (h : Host) (c : CompiledEffects) (k : Host) : Prop where
  fits : ∃ a, checkMembers p.name p.effects = .ok a
  made : ∃ source, p.fusedSource = .ok source ∧
    Host.compileProgram source (h.report p.fusingEvents) = (.ok c.program, k) ∧
    c = ⟨c.program, p.key, source.layout, source.slots.length, source.text⟩

theorem build_eq (key : ProgramKey) (p : EffectPass) (h : Host) :
    build key ⟨p, h⟩ = match checkMembers p.name p.effects, p.fusedSource with
      | .error e, _ => (.error e, ⟨p, h⟩)
      | .ok _, .error e => (.error e, ⟨p, h.report p.fusingEvents⟩)
      | .ok _, .ok source =>
        match Host.compileProgram source (h.report p.fusingEvents) with
        | (.error e, k) => (.error e, ⟨p, k⟩)
        | (.ok program, k) => (.ok ⟨program, key, source.layout, source.slots.length, source.text⟩, ⟨p, k⟩) := by
  unfold build fusedSource fusingEvents
  rw [Act.bind_of_ok (Staged.get_apply _)]
  cases hm : checkMembers p.name p.effects with
  | error e => rfl
  | ok a =>
    rw [Act.bind_of_ok (Act.ofExcept_apply _ _)]
    rcases hf : fuse p.name (p.effects.map FuseUnit.ofEffect) p.options with ⟨events, r⟩
    simp only []
    rw [Act.bind_of_ok (Staged.report_apply _ _)]
    cases r with
    | error e => rfl
    | ok source =>
      rw [Act.bind_of_ok (Act.ofExcept_apply _ _), Act.bind_apply, Staged.onHost_apply]
      rcases hk : Host.compileProgram source (h.report events) with ⟨e | program, k⟩
      · simp only [hk]
      · simp only [hk]
        rfl

theorem build_of_ok (hb : build p.key ⟨p, h⟩ = (.ok c, ⟨p, k⟩)) : Builds p h c k := by
  rw [build_eq] at hb
  cases hm : checkMembers p.name p.effects with
  | error e =>
    rw [hm] at hb
    cases hb
  | ok a =>
    cases hf : p.fusedSource with
    | error e =>
      rw [hm, hf] at hb
      cases hb
    | ok source =>
      rw [hm, hf] at hb
      rcases hc : Host.compileProgram source (h.report p.fusingEvents) with ⟨e | program, k'⟩
      · simp only [hc] at hb
        cases hb
      · simp only [hc] at hb
        cases hb
        exact ⟨⟨a, hm⟩, source, hf, hc, rfl⟩

theorem countP_fusingEvents (p : EffectPass) : p.fusingEvents.countP Event.isBuildReport = 0 := by
  rw [List.countP_eq_zero]
  intro event he
  obtain ⟨uniform, unit, member, rfl⟩ := mem_fuse_events he
  simp [Event.isBuildReport]

theorem spends_fusingEvents (p : EffectPass) (h : Host) : h.Spends 0 0 (h.report p.fusingEvents) := by
  have spends := Host.spends_report p.fusingEvents h
  rw [countP_fusingEvents] at spends
  exact spends

/-- A build that succeeds makes one program. -/
theorem Builds.spends (b : Builds p h c k) : h.Spends 1 0 k := by
  obtain ⟨-, source, -, hc, -⟩ := b
  have adv := Host.advanced_issue (.compileProgram source.label (source.slots.map Prod.fst)) .handle
    (Device.compileProgram source) (h.report p.fusingEvents)
  have hc' : Host.issue (.compileProgram source.label (source.slots.map Prod.fst)) .handle
      (Device.compileProgram source) (h.report p.fusingEvents) = (.ok c.program, k) := hc
  rw [hc'] at adv
  exact (spends_fusingEvents p h).trans ⟨_, _, adv, rfl, rfl⟩

/-- A build that fails leaves the pass as it is, makes no program and reports no build itself. -/
theorem build_of_error {s : Staged EffectPass} (hb : build key ⟨p, h⟩ = (.error e, s)) :
    s.stage = p ∧ h.Spends 0 0 s.host := by
  rw [build_eq] at hb
  cases hm : checkMembers p.name p.effects with
  | error e =>
    rw [hm] at hb
    cases hb
    exact ⟨rfl, .refl h⟩
  | ok a =>
    have hreport := spends_fusingEvents p h
    cases hf : p.fusedSource with
    | error e =>
      rw [hm, hf] at hb
      cases hb
      exact ⟨rfl, hreport⟩
    | ok source =>
      rw [hm, hf] at hb
      have adv := Host.advanced_issue (.compileProgram source.label (source.slots.map Prod.fst)) .handle
        (Device.compileProgram source) (h.report p.fusingEvents)
      rcases hc : Host.compileProgram source (h.report p.fusingEvents) with ⟨e | program, k'⟩
      · simp only [hc] at hb
        cases hb
        have hc' : Host.issue (.compileProgram source.label (source.slots.map Prod.fst)) .handle
            (Device.compileProgram source) (h.report p.fusingEvents) = (.error e, k') := hc
        rw [hc'] at adv
        exact ⟨rfl, hreport.trans ⟨_, _, adv, rfl, rfl⟩⟩
      · simp only [hc] at hb
        cases hb

/-! ## Commits -/

/-- The key does not depend on what is acknowledged. -/
theorem key_acknowledgeAll (p : EffectPass) : p.acknowledgeAll.key = p.key := by
  unfold key acknowledgeAll
  rw [List.map_map]
  rfl

/-- The pass with a new program. -/
def adopt (p : EffectPass) (c : CompiledEffects) : EffectPass :=
  { p.acknowledgeAll with compiled := some c, programVersion := p.programVersion + 1, lastError := none }

/-- The pass after a build that failed. -/
def giveUp (p : EffectPass) (e : Error) : EffectPass :=
  { p.acknowledgeAll with
    lastError := some e
    settings := if p.compiled.isSome then p.settings else { p.settings with enabled := false } }

/-- The host after the program that the pass has is released. -/
def retire (p : EffectPass) (h : Host) : Host :=
  match p.compiled with
  | some old => (h.releaseProgram old.program).2
  | none => h

theorem spends_retire (p : EffectPass) (h : Host) : h.Spends 0 0 (p.retire h) := by
  unfold retire
  cases p.compiled with
  | none => exact .refl h
  | some old => exact h.spends_releaseProgram old.program

/-- The report of a build that failed. -/
def failureEvent (p : EffectPass) (e : Error) : Event :=
  if p.compiled.isSome then .programKept p.name e else .passDisabled p.name e

theorem rebuild_of_ok (hb : build key ⟨p, h⟩ = (.ok c, ⟨p, k⟩)) :
    rebuild key ⟨p, h⟩ =
      (.ok (), ⟨p.adopt c, (p.retire k).report [.fused p.name p.effects.length (p.programVersion + 1)]⟩) := by
  have ha : Act.attempt (build key) ⟨p, h⟩ = (.ok (.ok c), ⟨p, k⟩) := by rw [Act.attempt_apply, hb]
  unfold rebuild
  rw [Act.bind_of_ok ha]
  obtain ⟨name, settings, effects, options, compiled, _, _, _, _, _, _⟩ := p
  have hl : (effects.map Effect.acknowledge).length = effects.length := List.length_map _
  unfold retire adopt
  rw [← hl]
  cases compiled with
  | none => rfl
  | some old => rfl

theorem rebuild_of_error (hb : build key ⟨p, h⟩ = (.error e, ⟨p, k⟩)) :
    rebuild key ⟨p, h⟩ = (.error e, ⟨p.giveUp e, k.report [p.failureEvent e]⟩) := by
  have ha : Act.attempt (build key) ⟨p, h⟩ = (.ok (.error e), ⟨p, k⟩) := by rw [Act.attempt_apply, hb]
  unfold rebuild
  rw [Act.bind_of_ok ha]
  obtain ⟨name, settings, effects, options, compiled, _, _, _, _, _, _⟩ := p
  cases compiled with
  | none => rfl
  | some old => rfl

/-- Whether a commit of a live pass builds. -/
def WantsBuild (p : EffectPass) : Prop :=
  (p.isDirty = true ∨ p.compiled = none ∧ p.lastError = none) ∧ p.compiled.map CompiledEffects.key ≠ some p.key

/-- The ways in which a commit can end: its result, the pass and the host. -/
inductive CommitOutcome (p : EffectPass) (h : Host) : Except Error Bool → EffectPass → Host → Prop where
  | disposed : p.disposed = true → CommitOutcome p h (.error (.resource (.disposedPass p.name))) p h
  | clean {c : CompiledEffects} : p.disposed = false → p.isDirty = false → p.compiled = some c →
      CommitOutcome p h (.ok false) p h
  | failedBefore {e : Error} : p.disposed = false → p.isDirty = false → p.compiled = none → p.lastError = some e →
      CommitOutcome p h (.error e) p h
  | takenBack {c : CompiledEffects} : p.disposed = false → p.isDirty = true → p.compiled = some c → c.key = p.key →
      CommitOutcome p h (.ok false) { p.acknowledgeAll with lastError := none } h
  | built {c : CompiledEffects} {k : Host} : p.disposed = false → p.WantsBuild → Builds p h c k →
      CommitOutcome p h (.ok true) (p.adopt c)
        ((p.retire k).report [.fused p.name p.effects.length (p.programVersion + 1)])
  | failed {e : Error} {k : Host} : p.disposed = false → p.WantsBuild → h.Spends 0 0 k →
      CommitOutcome p h (.error e) (p.giveUp e) (k.report [p.failureEvent e])

theorem stage_build (key : ProgramKey) (p : EffectPass) (h : Host) : (build key ⟨p, h⟩).2.stage = p := by
  rw [build_eq]
  split
  · rfl
  · rfl
  · split <;> rfl

theorem rebuild_outcome (hd : p.disposed = false) (hw : p.WantsBuild) :
    CommitOutcome p h ((rebuild p.key ⟨p, h⟩).1.map fun _ => true) (rebuild p.key ⟨p, h⟩).2.stage
      (rebuild p.key ⟨p, h⟩).2.host := by
  have hstage := stage_build p.key p h
  rcases hb : build p.key ⟨p, h⟩ with ⟨e | c, q, k⟩ <;> rw [hb] at hstage <;> cases hstage
  · rw [rebuild_of_error hb]
    exact .failed hd hw (build_of_error hb).2
  · rw [rebuild_of_ok hb]
    exact .built hd hw (build_of_ok hb)

theorem commit_of_disposed (hd : p.disposed = true) (h : Host) :
    commit ⟨p, h⟩ = (.error (.resource (.disposedPass p.name)), ⟨p, h⟩) := by
  unfold commit
  rw [Act.bind_of_ok (Staged.get_apply _), if_pos hd]
  rfl

/-- A commit of a live pass that wants a build is one. -/
theorem commit_of_wantsBuild (hd : p.disposed = false) (hw : p.WantsBuild) (h : Host) :
    commit ⟨p, h⟩ = ((rebuild p.key ⟨p, h⟩).1.map fun _ => true, (rebuild p.key ⟨p, h⟩).2) := by
  obtain ⟨hdue, hk⟩ := hw
  have hclean : ¬((!p.isDirty && p.compiled.isSome) = true) := by
    rcases hdue with hdirty | ⟨hnone, -⟩
    · simp [hdirty]
    · simp [hnone]
  have herror : (if p.isDirty then none else p.lastError) = none := by
    rcases hdue with hdirty | ⟨-, hnone⟩
    · rw [if_pos hdirty]
    · rw [hnone, ite_self]
  unfold commit
  rw [Act.bind_of_ok (Staged.get_apply _)]
  dsimp only
  rw [if_neg (by simp [hd]), if_neg hclean, herror]
  dsimp only
  rw [if_neg hk, Act.bind_apply]
  rcases rebuild p.key ⟨p, h⟩ with ⟨e | u, t⟩ <;> rfl

/-- Every commit ends in one of the six ways. -/
theorem commit_outcome (p : EffectPass) (h : Host) :
    CommitOutcome p h (commit ⟨p, h⟩).1 (commit ⟨p, h⟩).2.stage (commit ⟨p, h⟩).2.host := by
  cases hd : p.disposed with
  | true =>
    rw [commit_of_disposed hd]
    exact .disposed hd
  | false =>
    by_cases hw : p.WantsBuild
    · rw [commit_of_wantsBuild hd hw]
      exact rebuild_outcome hd hw
    · unfold commit
      rw [Act.bind_of_ok (Staged.get_apply _)]
      dsimp only
      rw [if_neg (by simp [hd])]
      cases hdirty : p.isDirty with
      | true =>
        have hk : p.compiled.map CompiledEffects.key = some p.key := not_not.1 fun hk => hw ⟨.inl hdirty, hk⟩
        obtain ⟨c, hc, hck⟩ := Option.map_eq_some_iff.1 hk
        rw [if_neg (by simp), if_pos rfl]
        dsimp only
        rw [if_pos hk]
        exact .takenBack hd hdirty hc hck
      | false =>
        cases hc : p.compiled with
        | some c => exact .clean hd hdirty hc
        | none =>
          cases he : p.lastError with
          | some e => exact .failedBefore hd hdirty hc he
          | none => exact absurd ⟨.inr ⟨hc, he⟩, by rw [hc]; nofun⟩ hw

theorem outcome_of_commit {r : Except Error Bool} {q : EffectPass} (hc : commit ⟨p, h⟩ = (r, ⟨q, k⟩)) :
    CommitOutcome p h r q k := by
  have out := commit_outcome p h
  rw [hc] at out
  exact out

/-- A commit makes the programs that the pass counts, and reports one build if a live pass wants one and else none. -/
theorem CommitOutcome.spends {r : Except Error Bool} {q : EffectPass} (out : CommitOutcome p h r q k) :
    ∃ programs builds, h.Spends programs builds k ∧ q.programVersion = p.programVersion + programs ∧
      (p.disposed = false ∧ p.WantsBuild ∧ builds = 1 ∨ ¬(p.disposed = false ∧ p.WantsBuild) ∧ builds = 0) := by
  cases out with
  | disposed hd =>
    refine ⟨0, 0, .refl h, rfl, .inr ⟨?_, rfl⟩⟩
    rintro ⟨hd', -⟩
    rw [hd] at hd'
    cases hd'
  | clean _ hdirty hc =>
    refine ⟨0, 0, .refl h, rfl, .inr ⟨?_, rfl⟩⟩
    rintro ⟨-, hw | ⟨hw, -⟩, -⟩
    · rw [hdirty] at hw
      cases hw
    · rw [hc] at hw
      cases hw
  | failedBefore _ hdirty _ he =>
    refine ⟨0, 0, .refl h, rfl, .inr ⟨?_, rfl⟩⟩
    rintro ⟨-, hw | ⟨-, hw⟩, -⟩
    · rw [hdirty] at hw
      cases hw
    · rw [he] at hw
      cases hw
  | takenBack _ _ hc hk =>
    refine ⟨0, 0, .refl h, rfl, .inr ⟨?_, rfl⟩⟩
    rintro ⟨-, -, hw⟩
    rw [hc, Option.map_some, hk] at hw
    exact hw rfl
  | built hd hw b =>
    exact ⟨1, 1, (b.spends.trans (spends_retire p _)).trans (Host.spends_report _ _), rfl, .inl ⟨hd, hw, rfl⟩⟩
  | @failed e k hd hw hk =>
    have hreport : [p.failureEvent e].countP Event.isBuildReport = 1 := by
      unfold failureEvent
      cases p.compiled.isSome <;> rfl
    have spends := hk.trans (Host.spends_report [p.failureEvent e] k)
    rw [hreport] at spends
    exact ⟨0, 1, spends, rfl, .inl ⟨hd, hw, rfl⟩⟩

/-- A commit that succeeds leaves a program. -/
theorem compiled_of_commit_ok {b : Bool} {q : EffectPass} (hc : commit ⟨p, h⟩ = (.ok b, ⟨q, k⟩)) :
    ∃ c, q.compiled = some c := by
  cases outcome_of_commit hc with
  | clean _ _ hq => exact ⟨_, hq⟩
  | takenBack _ _ hq _ => exact ⟨_, hq⟩
  | built _ _ _ => exact ⟨_, rfl⟩

/-! ## Renders -/

theorem render_of_commit_error {s : Staged EffectPass} (hc : commit ⟨p, h⟩ = (.error e, s)) (io : PassIo)
    (deltaTime : Binary32) : render io deltaTime ⟨p, h⟩ = (.error e, s) := by
  unfold render
  rw [Act.bind_of_error hc]

/-- The draw of a pass with a program, at a time and for a size of the output. -/
def drawOf (p : EffectPass) (c : CompiledEffects) (io : PassIo) (deltaTime : Binary32) (d : Device) : FullscreenDraw :=
  ⟨c.program, packBlock (p.values c deltaTime (io.outputSize d)), some io.input, io.depth, io.output⟩

/-- After a commit that succeeds, a render lets time pass and draws. -/
theorem render_of_commit_ok {b : Bool} {q : EffectPass} (hc : commit ⟨p, h⟩ = (.ok b, ⟨q, k⟩))
    (hq : q.compiled = some c) (io : PassIo) (deltaTime : Binary32) :
    render io deltaTime ⟨p, h⟩ =
      let q' := { q with elapsed := q.elapsed + deltaTime }
      let r := Host.drawFullscreen (q'.drawOf c io deltaTime k.device) k
      (r.1, ⟨q', r.2⟩) := by
  unfold render
  rw [Act.bind_of_ok hc]
  obtain ⟨name, settings, effects, options, compiled, _, _, _, _, _, _⟩ := q
  cases hq
  rfl

/-- A render leaves what its commit leaves, but for the time. -/
theorem stage_render (io : PassIo) (deltaTime : Binary32) (p : EffectPass) (h : Host) :
    ∃ elapsed, (render io deltaTime ⟨p, h⟩).2.stage = { (commit ⟨p, h⟩).2.stage with elapsed } := by
  rcases hc : commit ⟨p, h⟩ with ⟨e | b, q, k⟩
  · rw [render_of_commit_error hc]
    exact ⟨q.elapsed, rfl⟩
  · obtain ⟨c, hq⟩ := compiled_of_commit_ok hc
    rw [render_of_commit_ok hc hq]
    exact ⟨q.elapsed + deltaTime, rfl⟩

end EffectPass

end ScreenFusion
