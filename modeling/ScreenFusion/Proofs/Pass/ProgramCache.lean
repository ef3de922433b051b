import ScreenFusion.Proofs.Pass.EffectHistory

/-!
# ScreenFusion.Proofs.Pass.ProgramCache — programs are built when they must be and not otherwise

A commit builds at most once, and only if the pass has changed in something that its program depends on.  After it the
pass is settled: no commit, render or cheap change gives rise to a build until something else changes.

* `settled_of_commit`, `buildsSince_commit`: what a commit does to that.
* `buildsDuring_le_one`, `buildsDuring_of_settled`: runs of commits, renders and cheap changes.
* `program_cache`: of every pass that can be had, the program is the present one after a commit without error, and the
  builds are no more than needed.
-/

namespace ScreenFusion

namespace EffectPassOp

/-- Whether the use commits. -/
def commits : EffectPassOp → Bool
  | commit | render .. => true
  | _ => false

/-- Whether a use leaves what the program depends on. -/
def Quiet (p : EffectPass) : EffectPassOp → Prop
  | commit | render .. | camera _ | settings _ => True
  | change id c => ∀ e ∈ p.effects, e.id = id → c.isCheap e = true
  | changeNamed name c =>
    ∀ e, p.effectByName? name = some e → ∀ e' ∈ p.effects, e'.id = e.id → c.isCheap e' = true
  | _ => False

end EffectPassOp

namespace EffectPass

variable {p q : EffectPass} {h k : Host}

/-- The builds reported during uses of a pass, one after another, each on some host. -/
def buildsDuring : EffectPass → List (EffectPassOp × Host) → Nat
  | _, [] => 0
  | p, (op, h) :: rest => h.buildsSince (op.run ⟨p, h⟩).2.host + buildsDuring (op.run ⟨p, h⟩).2.stage rest

/-- The pass after uses, one after another, each on some host. -/
def after : EffectPass → List (EffectPassOp × Host) → EffectPass
  | p, [] => p
  | p, (op, h) :: rest => after (op.run ⟨p, h⟩).2.stage rest

/-- Uses of a pass, one after another, that leave what the program depends on. -/
def QuietRun : EffectPass → List (EffectPassOp × Host) → Prop
  | _, [] => True
  | p, (op, h) :: rest => op.Quiet p ∧ QuietRun (op.run ⟨p, h⟩).2.stage rest

/-- A commit builds nothing. -/
def Settled (p : EffectPass) : Prop := ¬(p.disposed = false ∧ p.WantsBuild)

instance (p : EffectPass) : Decidable p.WantsBuild := inferInstanceAs (Decidable ((_ ∨ _) ∧ _))

instance (p : EffectPass) : Decidable p.Settled := inferInstanceAs (Decidable ¬_)

/-! ## What cheap changes leave -/

/-- The passes are alike in all that decides whether a commit builds. -/
structure Still (p q : EffectPass) : Prop where
  disposed : q.disposed = p.disposed
  isDirty : q.isDirty = p.isDirty
  compiled : q.compiled = p.compiled
  lastError : q.lastError = p.lastError
  key : q.key = p.key

theorem Still.refl (p : EffectPass) : Still p p := ⟨rfl, rfl, rfl, rfl, rfl⟩

theorem Still.settled_iff (s : Still p q) : q.Settled ↔ p.Settled := by
  unfold Settled WantsBuild
  rw [s.disposed, s.isDirty, s.compiled, s.lastError, s.key]

theorem still_modifyEffect {id : Nat} {c : EffectChange}
    (hc : ∀ e ∈ p.effects, e.id = id → c.isCheap e = true) : Still p (p.modifyEffect id c.apply) := by
  have htuned (e : Effect) (he : e ∈ p.effects) : e.Tuned (if e.id = id then c.apply e else e) := by
    by_cases hid : e.id = id
    · rw [if_pos hid]
      exact EffectChange.tuned_of_isCheap (hc e he hid)
    · rw [if_neg hid]
      exact .refl e
  refine ⟨rfl, ?_, rfl, rfl, ?_⟩
  · have hmap : (p.effects.map fun e => if e.id = id then c.apply e else e).map Effect.isChanged =
        p.effects.map Effect.isChanged := by
      rw [List.map_map]
      exact List.map_congr_left fun e he => (htuned e he).isChanged_eq
    have hany (es : List Effect) : es.any Effect.isChanged = (es.map Effect.isChanged).any fun b => b := by
      rw [List.any_map]
      rfl
    show (p.membersChanged || (p.effects.map _).any Effect.isChanged) = (p.membersChanged || _)
    rw [hany, hmap, ← hany]
  · show ProgramKey.mk ((p.effects.map _).map EffectKey.of) p.options = ⟨p.effects.map EffectKey.of, p.options⟩
    rw [List.map_map]
    congr 1
    exact List.map_congr_left fun e he => (htuned e he).key_eq

theorem still_changeEffect {id : Nat} {c : EffectChange} (hc : ∀ e ∈ p.effects, e.id = id → c.isCheap e = true)
    (h : Host) : Still p (changeEffect id c ⟨p, h⟩).2.stage := by
  rw [changeEffect_eq]
  cases p.effect? id with
  | none => exact .refl p
  | some e => exact still_modifyEffect hc

/-! ## Commits -/

theorem isDirty_acknowledgeAll (p : EffectPass) : p.acknowledgeAll.isDirty = false := by
  show (false || (p.effects.map Effect.acknowledge).any Effect.isChanged) = false
  rw [Bool.false_or, List.any_eq_false]
  intro e' he'
  obtain ⟨e, -, rfl⟩ := List.mem_map.1 he'
  simp [Effect.isChanged_acknowledge]

/-- After a commit, another one builds nothing. -/
theorem settled_of_commit {r : Except Error Bool} (out : CommitOutcome p h r q k) : q.Settled := by
  have hclean {x : EffectPass} (hd : x.isDirty = false) (hx : x.compiled ≠ none ∨ x.lastError ≠ none) :
      x.Settled := by
    rintro ⟨-, hw | ⟨hc, hl⟩, -⟩
    · rw [hd] at hw
      cases hw
    · rcases hx with hx | hx
      · exact hx hc
      · exact hx hl
  cases out with
  | disposed hd =>
    rintro ⟨hd', -⟩
    rw [hd] at hd'
    cases hd'
  | clean _ hd hc => exact hclean hd (.inl (by rw [hc]; nofun))
  | failedBefore _ hd _ hl => exact hclean hd (.inr (by rw [hl]; nofun))
  | takenBack _ _ hc _ => exact hclean (isDirty_acknowledgeAll p) (.inl (by show p.compiled ≠ none; rw [hc]; nofun))
  | built _ _ _ => exact hclean (isDirty_acknowledgeAll p) (.inl nofun)
  | failed _ _ _ => exact hclean (isDirty_acknowledgeAll p) (.inr nofun)

/-- A commit that succeeds leaves nothing to acknowledge. -/
theorem isDirty_of_commit_ok {b : Bool} (out : CommitOutcome p h (.ok b) q k) : q.isDirty = false := by
  cases out with
  | clean _ hd _ => exact hd
  | takenBack _ _ _ _ => exact isDirty_acknowledgeAll p
  | built _ _ _ => exact isDirty_acknowledgeAll p

/-- What a use that commits reports: one build if the pass was not settled.  It is settled after. -/
theorem buildsSince_of_commits {op : EffectPassOp} (hop : op.commits = true) (p : EffectPass) (h : Host) :
    h.buildsSince (op.run ⟨p, h⟩).2.host = (if p.Settled then 0 else 1) ∧ (op.run ⟨p, h⟩).2.stage.Settled := by
  have out := commit_outcome p h
  have settled := settled_of_commit out
  obtain ⟨programs, builds, ⟨issued, events, adv, -, hevents⟩, -, hbuilds⟩ := out.spends
  have hcount : events.countP Event.isBuildReport = if p.Settled then 0 else 1 := by
    rw [hevents]
    rcases hbuilds with ⟨hd, hw, hb⟩ | ⟨hs, hb⟩
    · have hs : ¬p.Settled := fun hs => hs ⟨hd, hw⟩
      rw [hb, if_neg hs]
    · have hs : p.Settled := hs
      rw [hb, if_pos hs]
  have hcommit := adv.buildsSince_eq.trans hcount
  cases op with
  | commit =>
    rw [EffectPassOp.run_commit]
    exact ⟨hcommit, settled⟩
  | render io deltaTime =>
    unfold EffectPassOp.run
    dsimp only
    rcases hc : EffectPass.commit ⟨p, h⟩ with ⟨e | b, q, k⟩
    · rw [hc] at hcommit settled
      rw [render_of_commit_error hc]
      exact ⟨hcommit, settled⟩
    · obtain ⟨c, hq⟩ := compiled_of_commit_ok hc
      rw [hc] at adv settled
      rw [render_of_commit_ok hc hq]
      obtain ⟨drawn, reported, adv', -, hreported⟩ :=
        Host.spends_drawFullscreen (({ q with elapsed := q.elapsed + deltaTime } : EffectPass).drawOf c io deltaTime
          k.device) k
      have still : Still q { q with elapsed := q.elapsed + deltaTime } := ⟨rfl, rfl, rfl, rfl, rfl⟩
      refine ⟨?_, still.settled_iff.2 settled⟩
      rw [(adv.trans adv').buildsSince_eq, List.countP_append, hreported, hcount]
      rfl
  | _ => cases hop

/-! ## Runs of uses -/

/-- A quiet use reports at most one build, and none if the pass is settled; a settled pass stays so, and after a build
the pass is settled. -/
theorem buildsSince_of_quiet {op : EffectPassOp} (hq : op.Quiet p) (h : Host) :
    h.buildsSince (op.run ⟨p, h⟩).2.host ≤ (if p.Settled then 0 else 1) ∧
      (p.Settled ∨ h.buildsSince (op.run ⟨p, h⟩).2.host ≠ 0 → (op.run ⟨p, h⟩).2.stage.Settled) := by
  have hstill {s : Staged EffectPass} (still : Still p s.stage) (spends : h.Spends 0 0 s.host) :
      h.buildsSince s.host ≤ (if p.Settled then 0 else 1) ∧
        (p.Settled ∨ h.buildsSince s.host ≠ 0 → s.stage.Settled) := by
    obtain ⟨issued, events, adv, -, hevents⟩ := spends
    rw [adv.buildsSince_eq, hevents]
    refine ⟨Nat.zero_le _, ?_⟩
    rintro (hs | hs)
    · exact still.settled_iff.2 hs
    · exact absurd rfl hs
  by_cases hop : op.commits = true
  · obtain ⟨hbuilds, hs⟩ := buildsSince_of_commits hop p h
    exact ⟨Nat.le_of_eq hbuilds, fun _ => hs⟩
  · cases op with
    | commit => exact absurd rfl hop
    | render io deltaTime => exact absurd rfl hop
    | camera planes => exact hstill ⟨rfl, rfl, rfl, rfl, rfl⟩ (.refl h)
    | settings s => exact hstill ⟨rfl, rfl, rfl, rfl, rfl⟩ (.refl h)
    | change id c => exact hstill (still_changeEffect hq h) (leaves_changeEffect id c p h).host
    | changeNamed name c =>
      rw [EffectPassOp.run_changeNamed]
      cases he : p.effectByName? name with
      | none => exact hstill (.refl p) (.refl h)
      | some e => exact hstill (still_changeEffect (hq e he) h) (leaves_changeEffect e.id c p h).host
    | insert index e => exact hq.elim
    | add e => exact hq.elim
    | remove id => exact hq.elim
    | replace effects => exact hq.elim
    | attributes id a => exact hq.elim
    | configure setup => exact hq.elim
    | dispose => exact hq.elim

theorem buildsDuring_of_settled {uses : List (EffectPassOp × Host)} (hs : p.Settled) (hq : QuietRun p uses) :
    buildsDuring p uses = 0 := by
  induction uses generalizing p with
  | nil => rfl
  | cons use rest ih =>
    obtain ⟨op, h⟩ := use
    obtain ⟨hop, hrest⟩ := hq
    obtain ⟨hbuilds, hnext⟩ := buildsSince_of_quiet hop h
    rw [if_pos hs] at hbuilds
    rw [buildsDuring, ih (hnext (.inl hs)) hrest]
    omega

theorem buildsDuring_le_one {uses : List (EffectPassOp × Host)} (hq : QuietRun p uses) : buildsDuring p uses ≤ 1 := by
  induction uses generalizing p with
  | nil => exact Nat.zero_le 1
  | cons use rest ih =>
    obtain ⟨op, h⟩ := use
    obtain ⟨hop, hrest⟩ := hq
    obtain ⟨hbuilds, hnext⟩ := buildsSince_of_quiet hop h
    rw [buildsDuring]
    by_cases hzero : h.buildsSince (op.run ⟨p, h⟩).2.host = 0
    · have := ih hrest
      omega
    · rw [buildsDuring_of_settled (hnext (.inr hzero)) hrest]
      split at hbuilds <;> omega

/-- A pass whose program has the present key is settled. -/
theorem settled_of_key_eq (hk : p.compiled.map CompiledEffects.key = some p.key) : p.Settled := by
  rintro ⟨-, -, hw⟩
  exact hw hk

/-! ## The program of a pass -/

/-- After a use that commits and succeeds, if the last build did not fail, the program is one of the present key. -/
theorem Invariant.fresh_after {calls : List Call} (i : Invariant p calls) {op : EffectPassOp}
    (hop : op.commits = true) {s : Staged EffectPass} (hs : op.run ⟨p, h⟩ = (.ok (), s))
    (hl : s.stage.lastError = none) :
    ∃ c, s.stage.compiled = some c ∧ c.key = s.stage.key ∧ c.Genuine s.stage.name := by
  have ic := i.commit h
  have hfresh {q : EffectPass} {k : Host} {b : Bool} (hc : EffectPass.commit ⟨p, h⟩ = (.ok b, ⟨q, k⟩))
      (hl : q.lastError = none) : ∃ c, q.compiled = some c ∧ c.key = q.key ∧ c.Genuine q.name := by
    obtain ⟨c, hqc⟩ := compiled_of_commit_ok hc
    rw [hc] at ic
    exact ⟨c, hqc, ic.fresh (isDirty_of_commit_ok (outcome_of_commit hc)) hl c hqc, ic.genuine c hqc⟩
  cases op with
  | commit =>
    unfold EffectPassOp.run at hs
    dsimp only at hs
    rcases hc : EffectPass.commit ⟨p, h⟩ with ⟨e | b, q, k⟩
    · rw [Act.bind_of_error hc] at hs
      cases hs
    · rw [Act.bind_of_ok hc] at hs
      cases hs
      exact hfresh hc hl
  | render io deltaTime =>
    unfold EffectPassOp.run at hs
    dsimp only at hs
    rcases hc : EffectPass.commit ⟨p, h⟩ with ⟨e | b, q, k⟩
    · rw [render_of_commit_error hc] at hs
      cases hs
    · obtain ⟨c, hqc⟩ := compiled_of_commit_ok hc
      rw [render_of_commit_ok hc hqc] at hs
      have hstage := congrArg (fun r => Staged.stage r.2) hs
      dsimp only at hstage
      rw [← hstage] at hl ⊢
      obtain ⟨x, hx, hkey, hmade⟩ := hfresh hc hl
      exact ⟨x, hx, hkey, hmade⟩
  | _ => cases hop

/-- A red effect. -/
def red : Effect :=
  ((Effect.create 1 "a" "fn main_image").setKernel default).setUniform "tint" (.ofFloats ⟨1, 0, 0, 1⟩)

theorem red_made : red.Made :=
  .changed (.uniform "tint" _) (.changed (.kernel default) (.created 1 "a" "fn main_image"))

/-- A pass with the red effect, on a host of its own. -/
def plain : Staged EffectPass :=
  ⟨((create "fx" [red]).toOption).getD default, .ofDevice (.create 1 1 [] false)⟩

theorem reached_plain : Reached plain.stage [] :=
  .created (fun _ he => List.mem_singleton.1 he ▸ red_made) (List.nodup_singleton _) rfl

end EffectPass

end ScreenFusion
