import ScreenFusion.Proofs.Pass.ProgramCache

/-!
# ScreenFusion.Proofs.Pass.QuietRun — what quiet uses leave of a pass

A pass that has a program and nothing to commit is used quietly by commits, renders and cheap changes.  It keeps the
program, and its members but for their blend modes and values.

* `kept_of_commit_ok`, `kept_of_commit_error`: commits after which that holds.
* `Kept.used`, `Kept.after`: it holds as long as the pass is used quietly.
* `Kept.render_eq`: a render of such a pass is the passing of time and a draw.
-/

namespace ScreenFusion.EffectPass

variable {p q : EffectPass} {c : CompiledEffects}

/-- A live pass without changes that has a program. -/
structure Kept (p : EffectPass) (c : CompiledEffects) : Prop where
  live : p.disposed = false
  clean : p.isDirty = false
  compiled : p.compiled = some c

/-- A commit that succeeds leaves a program. -/
theorem kept_of_commit_ok {h k : Host} {b : Bool} (hc : commit ⟨p, h⟩ = (.ok b, ⟨q, k⟩)) : ∃ c, Kept q c := by
  obtain ⟨c, hq⟩ := compiled_of_commit_ok hc
  have out := outcome_of_commit hc
  refine ⟨c, ?_, isDirty_of_commit_ok out, hq⟩
  cases out with
  | clean hd _ _ => exact hd
  | takenBack hd _ _ _ => exact hd
  | built hd _ _ => exact hd

/-- A build that fails leaves the program of a live pass to it. -/
theorem kept_of_commit_error {h k : Host} {e : Error} (hd : p.disposed = false) (hp : p.compiled = some c)
    (hc : commit ⟨p, h⟩ = (.error e, ⟨q, k⟩)) : Kept q c := by
  cases outcome_of_commit hc with
  | disposed hd' =>
    rw [hd] at hd'
    cases hd'
  | failedBefore _ _ hn _ =>
    rw [hp] at hn
    cases hn
  | failed _ _ _ => exact ⟨hd, isDirty_acknowledgeAll p, hp⟩

/-! ## While a program is kept -/

namespace Kept

theorem commit_eq (k : Kept p c) (h : Host) : commit ⟨p, h⟩ = (.ok false, ⟨p, h⟩) := by
  have hcond : (!p.isDirty && p.compiled.isSome) = true := by
    rw [k.clean, k.compiled]
    rfl
  unfold commit
  rw [Act.bind_of_ok (Staged.get_apply _)]
  dsimp only
  rw [if_neg (by simp [k.live]), if_pos hcond]
  rfl

theorem of_still (k : Kept p c) (s : Still p q) : Kept q c :=
  ⟨s.disposed.trans k.live, s.isDirty.trans k.clean, s.compiled.trans k.compiled⟩

theorem render_eq (k : Kept p c) (io : PassIo) (deltaTime : Binary32) (h : Host) :
    render io deltaTime ⟨p, h⟩ =
      let p' := { p with elapsed := p.elapsed + deltaTime }
      let r := Host.drawFullscreen (p'.drawOf c io deltaTime h.device) h
      (r.1, ⟨p', r.2⟩) := render_of_commit_ok (k.commit_eq h) k.compiled io deltaTime

end Kept

theorem tuned_refl (effects : List Effect) : List.Forall₂ Effect.Tuned effects effects :=
  List.forall₂_same.2 fun e _ => .refl e

theorem tuned_modifyEffect {id : Nat} {x : EffectChange} (hx : ∀ e ∈ p.effects, e.id = id → x.isCheap e = true) :
    List.Forall₂ Effect.Tuned p.effects (p.modifyEffect id x.apply).effects := by
  refine List.forall₂_map_right_iff.2 (List.forall₂_same.2 fun e he => ?_)
  by_cases hid : e.id = id
  · rw [if_pos hid]
    exact EffectChange.tuned_of_isCheap (hx e he hid)
  · rw [if_neg hid]
    exact .refl e

theorem tuned_changeEffect {id : Nat} {x : EffectChange} (hx : ∀ e ∈ p.effects, e.id = id → x.isCheap e = true)
    (h : Host) : List.Forall₂ Effect.Tuned p.effects (changeEffect id x ⟨p, h⟩).2.stage.effects := by
  rw [changeEffect_eq]
  cases p.effect? id with
  | none => exact tuned_refl _
  | some e => exact tuned_modifyEffect hx

/-- A quiet use of a pass with a kept program leaves it the program, and its members but for what cheap changes
touch. -/
theorem Kept.used (k : Kept p c) {op : EffectPassOp} (hq : op.Quiet p) (h : Host) :
    Kept (op.run ⟨p, h⟩).2.stage c ∧ List.Forall₂ Effect.Tuned p.effects (op.run ⟨p, h⟩).2.stage.effects := by
  have same : Kept p c ∧ List.Forall₂ Effect.Tuned p.effects p.effects := ⟨k, tuned_refl _⟩
  cases op with
  | commit =>
    rw [EffectPassOp.run_commit, k.commit_eq]
    exact same
  | render io deltaTime =>
    show Kept (EffectPass.render io deltaTime ⟨p, h⟩).2.stage c ∧
      List.Forall₂ Effect.Tuned p.effects (EffectPass.render io deltaTime ⟨p, h⟩).2.stage.effects
    rw [k.render_eq]
    exact ⟨k.of_still ⟨rfl, rfl, rfl, rfl, rfl⟩, tuned_refl _⟩
  | camera planes => exact ⟨k.of_still ⟨rfl, rfl, rfl, rfl, rfl⟩, tuned_refl _⟩
  | settings s => exact ⟨k.of_still ⟨rfl, rfl, rfl, rfl, rfl⟩, tuned_refl _⟩
  | change id x => exact ⟨k.of_still (still_changeEffect hq h), tuned_changeEffect hq h⟩
  | changeNamed name x =>
    rw [EffectPassOp.run_changeNamed]
    cases he : p.effectByName? name with
    | none => exact same
    | some e => exact ⟨k.of_still (still_changeEffect (hq e he) h), tuned_changeEffect (hq e he) h⟩
  | insert index e => exact hq.elim
  | add e => exact hq.elim
  | remove id => exact hq.elim
  | replace effects => exact hq.elim
  | attributes id a => exact hq.elim
  | configure setup => exact hq.elim
  | dispose => exact hq.elim

theorem Kept.after (k : Kept p c) {uses : List (EffectPassOp × Host)} (hq : QuietRun p uses) :
    Kept (p.after uses) c ∧ List.Forall₂ Effect.Tuned p.effects (p.after uses).effects := by
  induction uses generalizing p with
  | nil => exact ⟨k, tuned_refl _⟩
  | cons use rest ih =>
    obtain ⟨op, h⟩ := use
    obtain ⟨k', tuned⟩ := k.used hq.1 h
    obtain ⟨k'', tuned'⟩ := ih k' hq.2
    exact ⟨k'', forall₂_trans (fun _ _ _ => .trans) tuned tuned'⟩

theorem map_id_of_tuned {xs ys : List Effect} (h : List.Forall₂ Effect.Tuned xs ys) :
    ys.map Effect.id = xs.map Effect.id := by
  induction h with
  | nil => rfl
  | cons h _ ih => rw [List.map_cons, List.map_cons, h.id_eq, ih]

end ScreenFusion.EffectPass
