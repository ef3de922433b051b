import ScreenFusion.Proofs.Pass.Violation

/-!
# ScreenFusion.Proofs.Pass.Rejection — changes of membership that are rejected

Three of the four changes of membership check before they change anything.  The fourth gives a member its attributes and
puts the old ones back if the members then cannot share a program; the version of the member counts both.  So a pass that
had nothing to acknowledge has something after it, and that is seen if its last build failed: a commit that would have
passed over the pass, or repeated the error, builds again.

* `raised`: what such a change leaves.
* `run_of_error`: what a change of membership that fails leaves.
* `commit_raised`: the next commit.
* `rejected_iff`: when it is as if the change had not been asked for.
-/

namespace ScreenFusion

/-! ## Versions -/

/-- An effect whose version is raised twice. -/
def Effect.markTwice (e : Effect) : Effect := e.markChanged.markChanged

theorem Effect.setAttributes_back {e : Effect} {a : Attributes} (ha : e.attributes ≠ a) :
    (e.setAttributes a).setAttributes e.attributes = e.markTwice := by
  have hset : e.setAttributes a = { e with attributes := a }.markChanged := if_neg ha
  rw [hset]
  exact if_neg ha.symm

theorem Effect.setAttributes_self (e : Effect) : e.setAttributes e.attributes = e := if_pos rfl

/-- The check of members does not read versions. -/
theorem checkMembersFrom_map {f : Effect → Effect}
    (hf : ∀ e, (f e).name = e.name ∧ (f e).attributes = e.attributes ∧ (f e).disposed = e.disposed) (label : String)
    (effects : List Effect) (owners : Owners) (union : Attributes) :
    checkMembersFrom label (effects.map f) owners union = checkMembersFrom label effects owners union := by
  induction effects generalizing owners union with
  | nil => rfl
  | cons e es ih =>
    obtain ⟨hname, hattributes, hdisposed⟩ := hf e
    have hclaim (flags : List (String × Attributes)) (owners : Owners) :
        claimExclusive label (f e) flags owners = claimExclusive label e flags owners := by
      induction flags generalizing owners with
      | nil => rfl
      | cons flag rest ih => simp only [claimExclusive, hname, hattributes, ih]
    simp only [List.map_cons, checkMembersFrom, hname, hattributes, hdisposed, hclaim, ih]

namespace EffectPassOp

/-- Whether a use puts members in or gives them attributes, which the members may not allow. -/
def isMembership : EffectPassOp → Bool
  | insert .. | add _ | replace _ | attributes .. => true
  | _ => false

/-- Whether a use gives a member other attributes than it has. -/
def alters (p : EffectPass) : EffectPassOp → Bool
  | attributes id a => (p.effect? id).any (·.attributes ≠ a)
  | _ => false

end EffectPassOp

namespace EffectPass

open Fusion

variable {p : EffectPass} {h k : Host} {id : Nat}

/-- The pass with the version of a member raised twice. -/
def raised (p : EffectPass) (id : Nat) : EffectPass := p.modifyEffect id Effect.markTwice

theorem effect?_eq_some_iff (hd : (p.effects.map Effect.id).Nodup) {e : Effect} :
    p.effect? id = some e ↔ e ∈ p.effects ∧ e.id = id := by
  constructor
  · intro he
    exact ⟨List.mem_of_find?_eq_some he, by simpa using List.find?_some he⟩
  · rintro ⟨he, rfl⟩
    cases hfound : p.effect? e.id with
    | none =>
      have hnot := List.find?_eq_none.1 hfound e he
      simp at hnot
    | some e' =>
      have hid : e'.id = e.id := by simpa using List.find?_some hfound
      exact congrArg some (List.inj_on_of_nodup_map hd (List.mem_of_find?_eq_some hfound) he hid)

theorem modifyEffect_congr {f g : Effect → Effect} (hfg : ∀ e ∈ p.effects, e.id = id → f e = g e) :
    p.modifyEffect id f = p.modifyEffect id g := by
  have heffects : p.effects.map (fun e => if e.id = id then f e else e) =
      p.effects.map fun e => if e.id = id then g e else e := by
    refine List.map_congr_left fun e he => ?_
    by_cases hid : e.id = id
    · rw [if_pos hid, if_pos hid, hfg e he hid]
    · rw [if_neg hid, if_neg hid]
  unfold modifyEffect
  rw [heffects]

theorem modifyEffect_self (p : EffectPass) (id : Nat) : p.modifyEffect id (fun e => e) = p := by
  unfold modifyEffect
  simp only [ite_self, List.map_id']

theorem modifyEffect_modifyEffect {f g : Effect → Effect} (hf : ∀ e, (f e).id = e.id) :
    (p.modifyEffect id f).modifyEffect id g = p.modifyEffect id fun e => g (f e) := by
  have heffects : (p.effects.map fun e => if e.id = id then f e else e).map (fun e => if e.id = id then g e else e) =
      p.effects.map fun e => if e.id = id then g (f e) else e := by
    rw [List.map_map]
    refine List.map_congr_left fun e _ => ?_
    by_cases hid : e.id = id
    · simp [hid, hf]
    · simp [hid]
  show ({ p with effects := (p.effects.map _).map _ } : EffectPass) = { p with effects := p.effects.map _ }
  rw [heffects]

/-! ## What is left -/

theorem setEffectAttributes_of_error (hd : (p.effects.map Effect.id).Nodup) {a : Attributes} {err : Error}
    {s : Staged EffectPass} (hs : setEffectAttributes id a ⟨p, h⟩ = (.error err, s)) :
    s = ⟨if (EffectPassOp.attributes id a).alters p = true then p.raised id else p, h⟩ := by
  rw [setEffectAttributes_eq] at hs
  cases he : p.effect? id with
  | none =>
    have halters : (EffectPassOp.attributes id a).alters p = false := by simp [EffectPassOp.alters, he]
    rw [he] at hs
    cases hs
    rw [if_neg (by simp [halters])]
  | some e =>
    have honly {e' : Effect} (he' : e' ∈ p.effects) (hid : e'.id = id) : e' = e :=
      Option.some.inj (((effect?_eq_some_iff hd).2 ⟨he', hid⟩).symm.trans he)
    have hback : (p.modifyEffect id (·.setAttributes a)).modifyEffect id (·.setAttributes e.attributes) =
        if (EffectPassOp.attributes id a).alters p = true then p.raised id else p := by
      have hid (e : Effect) : (e.setAttributes a).id = e.id := (EffectChange.apply_spec (.attributes a) e).id_eq
      rw [modifyEffect_modifyEffect hid]
      by_cases ha : e.attributes = a
      · rw [if_neg (by simp [EffectPassOp.alters, he, ha])]
        refine Eq.trans (modifyEffect_congr fun e' he' hid => ?_) (modifyEffect_self p id)
        rw [honly he' hid, ← ha, Effect.setAttributes_self, Effect.setAttributes_self]
      · rw [if_pos (by simp [EffectPassOp.alters, he, ha])]
        refine modifyEffect_congr fun e' he' hid => ?_
        rw [honly he' hid, Effect.setAttributes_back ha]
    rw [he] at hs
    dsimp only at hs
    split at hs
    · cases hs
    · cases hs
      rw [hback]

/-- A change of membership that fails leaves the pass and the host as they are, but for the version of a member that it
would have given other attributes. -/
theorem run_of_error (hd : (p.effects.map Effect.id).Nodup) {op : EffectPassOp} (hop : op.isMembership = true)
    {err : Error} {s : Staged EffectPass} (hs : op.run ⟨p, h⟩ = (.error err, s)) :
    s.host = h ∧ (op.alters p = false → s.stage = p) ∧
      (op.alters p = true → ∃ id a, op = .attributes id a ∧ s.stage = p.raised id) := by
  have hinsert (index : Nat) {e : Effect} (hs : insertEffect index e ⟨p, h⟩ = (.error err, s)) : s = ⟨p, h⟩ := by
    rw [insertEffect_eq] at hs
    split at hs <;> cases hs
    rfl
  cases op with
  | insert index e =>
    rw [hinsert index hs]
    exact ⟨rfl, fun _ => rfl, nofun⟩
  | add e =>
    rw [hinsert p.effects.length hs]
    exact ⟨rfl, fun _ => rfl, nofun⟩
  | replace effects =>
    rw [run_replace] at hs
    split at hs <;> cases hs
    exact ⟨rfl, fun _ => rfl, nofun⟩
  | attributes id a =>
    rw [setEffectAttributes_of_error hd hs]
    refine ⟨rfl, fun halters => ?_, fun halters => ⟨id, a, rfl, ?_⟩⟩
    · exact if_neg (by simp [halters])
    · exact if_pos halters
  | _ => cases hop

/-! ## The next commit -/

theorem raised_key (p : EffectPass) (id : Nat) : (p.raised id).key = p.key := by
  have hkeys : (p.raised id).effects.map EffectKey.of = p.effects.map EffectKey.of :=
    map_modifyEffect (f := Effect.markTwice) (fun _ => rfl) p id
  unfold key
  rw [hkeys]
  rfl

/-- A build does not read versions. -/
theorem build_raised (key : ProgramKey) (p : EffectPass) (id : Nat) (h : Host) :
    (build key ⟨p.raised id, h⟩).1 = (build key ⟨p, h⟩).1 ∧
      (build key ⟨p.raised id, h⟩).2.host = (build key ⟨p, h⟩).2.host := by
  have hcheck : checkMembers p.name (p.raised id).effects = checkMembers p.name p.effects := by
    refine checkMembersFrom_map (fun e => ?_) _ _ _ _
    split <;> exact ⟨rfl, rfl, rfl⟩
  have hunits : (p.raised id).effects.map FuseUnit.ofEffect = p.effects.map FuseUnit.ofEffect :=
    map_modifyEffect (f := Effect.markTwice) (fun _ => rfl) p id
  have hsource : (p.raised id).fusedSource = p.fusedSource := by
    show (fuse p.name _ p.options).2 = _
    rw [hunits]
    rfl
  have hevents : (p.raised id).fusingEvents = p.fusingEvents := by
    show (fuse p.name _ p.options).1 = _
    rw [hunits]
    rfl
  have hname : (p.raised id).name = p.name := rfl
  rw [build_eq, build_eq, hname, hcheck, hsource, hevents]
  cases checkMembers p.name p.effects with
  | error e => exact ⟨rfl, rfl⟩
  | ok a =>
    cases p.fusedSource with
    | error e => exact ⟨rfl, rfl⟩
    | ok source =>
      dsimp only
      rcases Host.compileProgram source (h.report p.fusingEvents) with ⟨e | program, l⟩ <;> exact ⟨rfl, rfl⟩

theorem rebuild_raised (p : EffectPass) (id : Nat) (h : Host) :
    (rebuild p.key ⟨p.raised id, h⟩).1 = (rebuild p.key ⟨p, h⟩).1 ∧
      (rebuild p.key ⟨p.raised id, h⟩).2.host = (rebuild p.key ⟨p, h⟩).2.host := by
  have hlength : (p.raised id).effects.length = p.effects.length := List.length_map _
  obtain ⟨hresult, hhost⟩ := build_raised p.key p id h
  have hstage := stage_build p.key p h
  have hstage' := stage_build p.key (p.raised id) h
  rcases hb : build p.key ⟨p, h⟩ with ⟨r, q, l⟩
  rcases hb' : build p.key ⟨p.raised id, h⟩ with ⟨r', q', l'⟩
  rw [hb, hb'] at hresult hhost
  rw [hb] at hstage
  rw [hb'] at hstage'
  cases hresult
  cases hhost
  cases hstage
  cases hstage'
  cases r with
  | ok c =>
    rw [rebuild_of_ok hb, rebuild_of_ok hb', hlength]
    exact ⟨rfl, rfl⟩
  | error e =>
    rw [rebuild_of_error hb, rebuild_of_error hb']
    exact ⟨rfl, rfl⟩

theorem isDirty_raised (ha : ∀ e ∈ p.effects, e.acknowledged ≤ e.version) (hid : id ∈ p.effects.map Effect.id) :
    (p.raised id).isDirty = true := by
  obtain ⟨e, he, rfl⟩ := List.mem_map.1 hid
  refine Bool.or_eq_true_iff.2 (.inr (List.any_eq_true.2 ⟨e.markTwice, ?_, ?_⟩))
  · exact List.mem_map.2 ⟨e, he, if_pos rfl⟩
  · have hle := ha e he
    have hne : e.version + 1 + 1 ≠ e.acknowledged := by omega
    simpa [Effect.isChanged, Effect.markTwice, Effect.markChanged] using hne

/-- A commit of a live pass whose program has the present key does nothing. -/
theorem commit_of_key_eq (hd : p.disposed = false) (hk : p.compiled.map CompiledEffects.key = some p.key) (h : Host) :
    (commit ⟨p, h⟩).1 = .ok false ∧ (commit ⟨p, h⟩).2.host = h := by
  rcases hcommit : EffectPass.commit ⟨p, h⟩ with ⟨r, q, l⟩
  cases outcome_of_commit hcommit with
  | disposed hd' =>
    rw [hd] at hd'
    cases hd'
  | clean _ _ _ => exact ⟨rfl, rfl⟩
  | failedBefore _ _ hc _ =>
    rw [hc] at hk
    cases hk
  | takenBack _ _ _ _ => exact ⟨rfl, rfl⟩
  | built _ hw _ => exact absurd hk hw.2
  | failed _ hw _ => exact absurd hk hw.2

/-- If the pass has something to acknowledge or its last build did not fail, the versions make no difference. -/
theorem commit_raised {calls : List Call} (i : Invariant p calls) (hid : id ∈ p.effects.map Effect.id)
    (hp : p.disposed = true ∨ p.isDirty = true ∨ p.lastError = none) (h : Host) :
    (commit ⟨p.raised id, h⟩).1 = (commit ⟨p, h⟩).1 ∧ (commit ⟨p.raised id, h⟩).2.host = (commit ⟨p, h⟩).2.host := by
  have hdirty := isDirty_raised i.acknowledged hid
  cases hd : p.disposed with
  | true =>
    rw [commit_of_disposed hd, commit_of_disposed (p := p.raised id) hd]
    exact ⟨rfl, rfl⟩
  | false =>
    by_cases hk : p.compiled.map CompiledEffects.key = some p.key
    · have hraised : (p.raised id).compiled.map CompiledEffects.key = some (p.raised id).key := by
        rw [raised_key]
        exact hk
      obtain ⟨hresult, hhost⟩ := commit_of_key_eq hd hk h
      obtain ⟨hresult', hhost'⟩ := commit_of_key_eq (p := p.raised id) hd hraised h
      exact ⟨hresult'.trans hresult.symm, hhost'.trans hhost.symm⟩
    · have hdue : p.isDirty = true ∨ p.compiled = none ∧ p.lastError = none := by
        rcases hp with hdisposed | hp | hl
        · rw [hd] at hdisposed
          cases hdisposed
        · exact .inl hp
        · cases hclean : p.isDirty with
          | true => exact .inl rfl
          | false =>
            cases hc : p.compiled with
            | none => exact .inr ⟨rfl, hl⟩
            | some c => exact absurd (by rw [hc, Option.map_some, i.fresh hclean hl c hc]) hk
      have hw : (p.raised id).WantsBuild := ⟨.inl hdirty, by rw [raised_key]; exact hk⟩
      obtain ⟨hresult, hhost⟩ := rebuild_raised p id h
      rw [commit_of_wantsBuild hd ⟨hdue, hk⟩, commit_of_wantsBuild (p := p.raised id) hd hw, raised_key]
      exact ⟨congrArg (Except.map fun _ => true) hresult, hhost⟩

/-! ## After a build that failed -/

/-- After a failed build, while nothing has changed, the program that is kept is not the members'. -/
def Stale (p : EffectPass) : Prop :=
  p.isDirty = false → ∀ e, p.lastError = some e → p.compiled.map CompiledEffects.key ≠ some p.key

theorem Carried.stale {q : EffectPass} (c : Carried p q) (ha : ∀ e ∈ p.effects, e.acknowledged ≤ e.version)
    (hp : Stale p) : Stale q := by
  intro hclean e he hk
  obtain ⟨hbefore, hkey⟩ := c.clean ha hclean
  rcases c.compiled with hc | hc
  · rw [hc, hkey] at hk
    exact hp hbefore e (c.lastError ▸ he) hk
  · rw [hc] at hk
    cases hk

theorem Stale.commit (hp : Stale p) (h : Host) : Stale (EffectPass.commit ⟨p, h⟩).2.stage := by
  rcases hc : EffectPass.commit ⟨p, h⟩ with ⟨r, q, l⟩
  cases outcome_of_commit hc with
  | disposed _ => exact hp
  | clean _ _ _ => exact hp
  | failedBefore _ _ _ _ => exact hp
  | takenBack _ _ _ _ => exact fun _ e he => nomatch he
  | built _ _ _ => exact fun _ e he => nomatch he
  | failed _ hw _ =>
    intro _ e' _ hk
    exact hw.2 (hk.trans (congrArg some p.key_acknowledgeAll))

theorem Reached.stale {calls : List Call} (r : Reached p calls) : Stale p := by
  induction r with
  | created _ _ hp =>
    unfold create at hp
    obtain ⟨a, -, hp⟩ := ok_of_bind hp
    cases hp
    exact fun _ e he => nomatch he
  | @used p calls op h r hadmissible ih =>
    have acknowledged := r.invariant.acknowledged
    cases op with
    | commit =>
      rw [EffectPassOp.run_commit]
      exact ih.commit h
    | render io deltaTime =>
      show Stale (EffectPass.render io deltaTime ⟨p, h⟩).2.stage
      obtain ⟨elapsed, hstage⟩ := stage_render io deltaTime p h
      rw [hstage]
      exact ih.commit h
    | _ => exact (leaves_run rfl hadmissible h).stage.stale acknowledged ih

/-- If the last build of a live pass failed and nothing has changed, a commit does nothing; after the versions have been
raised it builds. -/
theorem commit_raised_of_failed {calls : List Call} (r : Reached p calls) (hid : id ∈ p.effects.map Effect.id)
    (hd : p.disposed = false) (hclean : p.isDirty = false) {e : Error} (he : p.lastError = some e) (h : Host) :
    ((commit ⟨p, h⟩).1 = if p.compiled.isSome then .ok false else .error e) ∧ (commit ⟨p, h⟩).2.host = h ∧
      (commit ⟨p.raised id, h⟩).1 ≠ .ok false ∧ h.buildsSince (commit ⟨p.raised id, h⟩).2.host = 1 := by
  have hk := r.stale hclean e he
  have hw : (p.raised id).WantsBuild :=
    ⟨.inl (isDirty_raised r.invariant.acknowledged hid), by rw [raised_key]; exact hk⟩
  have hsettled : p.Settled := by
    rintro ⟨-, hdirty | ⟨-, hnone⟩, -⟩
    · rw [hclean] at hdirty
      cases hdirty
    · rw [he] at hnone
      cases hnone
  refine ⟨?_, host_of_settled hsettled h, ?_, ?_⟩
  · rcases hcommit : EffectPass.commit ⟨p, h⟩ with ⟨r, q, l⟩
    cases outcome_of_commit hcommit with
    | disposed hd' =>
      rw [hd] at hd'
      cases hd'
    | clean _ _ hc => rw [hc]; rfl
    | failedBefore _ _ hc he' =>
      rw [he] at he'
      cases he'
      rw [hc]
      rfl
    | takenBack _ hdirty _ _ =>
      rw [hclean] at hdirty
      cases hdirty
    | built hd hw _ => exact absurd ⟨hd, hw⟩ hsettled
    | failed hd hw _ => exact absurd ⟨hd, hw⟩ hsettled
  · rw [commit_of_wantsBuild (p := p.raised id) hd hw]
    cases (rebuild (p.raised id).key ⟨p.raised id, h⟩).1 <;> nofun
  · have hbuilds := (buildsSince_of_commits (rfl : EffectPassOp.commit.commits = true) (p.raised id) h).1
    rw [EffectPassOp.run_commit, if_neg fun hs => hs ⟨hd, hw⟩] at hbuilds
    exact hbuilds

/-! ## Changes that are rejected -/

theorem mem_of_alters {a : Attributes} (h : (EffectPassOp.attributes id a).alters p = true) :
    id ∈ p.effects.map Effect.id := by
  cases he : p.effect? id with
  | none => simp [EffectPassOp.alters, he] at h
  | some e =>
    have hid : e.id = id := by simpa using List.find?_some he
    exact hid ▸ List.mem_map_of_mem (List.mem_of_find?_eq_some he)

theorem raised_ne (hid : id ∈ p.effects.map Effect.id) : p.raised id ≠ p := by
  obtain ⟨e, he, rfl⟩ := List.mem_map.1 hid
  intro hsame
  have heffects : (p.effects.map fun e' => if e'.id = e.id then e'.markTwice else e') = p.effects.map fun e' => e' := by
    rw [List.map_id']
    exact congrArg EffectPass.effects hsame
  have hversion : (if e.id = e.id then e.markTwice else e).version = e.version :=
    congrArg Effect.version (List.map_inj_left.1 heffects e he)
  rw [if_pos rfl] at hversion
  have hraised : e.version + 1 + 1 = e.version := hversion
  omega

/-- After a change of membership that fails, of any pass that can be had:

* the host is as it was, and so is the pass exactly if the change would not have given a member other attributes;
* if it would, the version of that member has been raised twice, so that there is something to acknowledge; nothing else
  has changed;
* the next commit has the same result and does the same to its host, if the pass is disposed of, has had something to
  acknowledge, or its last build has not failed;
* else a commit of the pass as it was does nothing, without error if there is a program and else with the one of the last
  build, and a commit of the pass as it is builds. -/
theorem rejected_iff {calls : List Call} (r : Reached p calls) {op : EffectPassOp} (hop : op.isMembership = true)
    {err : Error} {s : Staged EffectPass} (hs : op.run ⟨p, h⟩ = (.error err, s)) :
    s.host = h ∧ (s.stage = p ↔ op.alters p = false) ∧
    (op.alters p = true → s.stage.isDirty = true ∧ ∃ id a, op = .attributes id a ∧ s.stage = p.raised id) ∧
    (p.disposed = true ∨ p.isDirty = true ∨ p.lastError = none → ∀ k : Host,
      (commit ⟨s.stage, k⟩).1 = (commit ⟨p, k⟩).1 ∧ (commit ⟨s.stage, k⟩).2.host = (commit ⟨p, k⟩).2.host) ∧
    (p.disposed = false → p.isDirty = false → ∀ e, p.lastError = some e → op.alters p = true → ∀ k : Host,
      ((commit ⟨p, k⟩).1 = if p.compiled.isSome then .ok false else .error e) ∧ (commit ⟨p, k⟩).2.host = k ∧
        (commit ⟨s.stage, k⟩).1 ≠ .ok false ∧ k.buildsSince (commit ⟨s.stage, k⟩).2.host = 1) := by
  have i := r.invariant
  obtain ⟨hhost, hkept, hraised⟩ := run_of_error i.distinct hop hs
  have hmember (halters : op.alters p = true) : ∃ id a, op = .attributes id a ∧ s.stage = p.raised id ∧
      id ∈ p.effects.map Effect.id := by
    obtain ⟨id, a, rfl, hstage⟩ := hraised halters
    exact ⟨id, a, rfl, hstage, mem_of_alters halters⟩
  refine ⟨hhost, ⟨fun hsame => ?_, hkept⟩, fun halters => ?_, fun hp k => ?_, fun hd hclean e he halters k => ?_⟩
  · rw [← Bool.not_eq_true]
    intro halters
    obtain ⟨id, a, -, hstage, hid⟩ := hmember halters
    exact raised_ne hid (hstage.symm.trans hsame)
  · obtain ⟨id, a, hop, hstage, hid⟩ := hmember halters
    exact ⟨hstage ▸ isDirty_raised i.acknowledged hid, id, a, hop, hstage⟩
  · cases halters : op.alters p with
    | false =>
      rw [hkept halters]
      exact ⟨rfl, rfl⟩
    | true =>
      obtain ⟨id, a, -, hstage, hid⟩ := hmember halters
      rw [hstage]
      exact commit_raised i hid hp k
  · obtain ⟨id, a, -, hstage, hid⟩ := hmember halters
    rw [hstage]
    exact commit_raised_of_failed r hid hd hclean he k

/-! ## A program that is kept -/

/-- The pair after its program has been built and a define that cannot be used has made the next build fail. -/
def kept : EffectPass :=
  pair.after [(.commit, plain.host), (.change 2 (.define "fx" "1"), plain.host), (.commit, plain.host)]

theorem reached_kept : ∃ calls, Reached kept calls :=
  reached_pair.after ⟨trivial, nofun, trivial, nofun, trivial, nofun, trivial⟩

/-- The second effect of the pair may not convolve too; after it has been refused, a commit builds. -/
theorem rejected_iff_kept : ∃ err s, (EffectPassOp.attributes 2 .convolution).run ⟨kept, plain.host⟩ = (.error err, s) ∧
    s.host = plain.host ∧ s.stage ≠ kept ∧ s.stage.isDirty = true ∧ (commit ⟨kept, plain.host⟩).1 = .ok false ∧
    (commit ⟨s.stage, plain.host⟩).1 ≠ .ok false := by
  obtain ⟨calls, reached⟩ := reached_kept
  have hfails : ((EffectPassOp.attributes 2 .convolution).run ⟨kept, plain.host⟩).1.isOk = false := by decide +kernel
  have halters : (EffectPassOp.attributes 2 .convolution).alters kept = true := by decide +kernel
  obtain ⟨e, he⟩ : ∃ e, kept.lastError = some e := Option.isSome_iff_exists.1 (by decide +kernel)
  have hprogram : kept.compiled.isSome = true := by decide +kernel
  rcases hrun : (EffectPassOp.attributes 2 .convolution).run ⟨kept, plain.host⟩ with ⟨err | u, s⟩
  · obtain ⟨hhost, hsame, hdirty, -, hcommit⟩ := rejected_iff reached rfl hrun
    obtain ⟨hbefore, -, hafter, -⟩ := hcommit (by decide +kernel) (by decide +kernel) e he halters plain.host
    rw [if_pos hprogram] at hbefore
    refine ⟨err, s, rfl, hhost, fun h => ?_, (hdirty halters).1, hbefore, hafter⟩
    exact Bool.false_ne_true ((hsame.1 h).symm.trans halters)
  · rw [hrun] at hfails
    cases hfails

/-- What the refused change has left: another version, something to acknowledge, and an error in place of a commit that
does nothing. -/
theorem refusal_traced : (∃ calls, Reached kept calls) ∧
    let r := (EffectPassOp.attributes 2 .convolution).run ⟨kept, plain.host⟩
    r.1.isOk = false ∧ r.2.stage.effects.map Effect.version ≠ kept.effects.map Effect.version ∧
      kept.isDirty = false ∧ r.2.stage.isDirty = true ∧
      (commit ⟨kept, plain.host⟩).1.toOption = some false ∧ (commit r.2).1.toOption = none := by
  refine ⟨reached_kept, ?_, ?_, ?_, ?_, ?_, ?_⟩
  all_goals decide +kernel

end EffectPass

end ScreenFusion
