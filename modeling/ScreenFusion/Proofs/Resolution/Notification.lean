import Mathlib.Data.Set.Card
import ScreenFusion.Proofs.Resolution.Setter

/-!
# ScreenFusion.Proofs.Resolution.Notification — every change is told once

A resolution tells its changes to a list of listeners that it does not own: a watcher that has been let go stays in the
list until a change is told or some watcher leaves.  Whatever is called in whatever order, every watcher that is there
and has not left has counted each change since it joined exactly once.

* `ResolutionOp`, `Resolution.after`: the calls as data, and what a list of them leaves.
* `Since`: at some call something held, and all calls after it are of some kind.  `Present`, `Listening` and `HasNews`
  say so of a watcher, from the calls alone.
* `Resolution.Numbered`: the listeners are distinct watchers.
* `watcher?_step`, `hears_step`: what one call leaves to one watcher.
* `Accounted`, `accounted_of_calls`: what watchers have counted, and what they are answered, after any calls.
-/

namespace ScreenFusion

/-! ## Calls -/

/-- A call on a resolution or on one of its watchers. -/
inductive ResolutionOp where
  /-- Any change of the parameters, as one change. -/
  | update (f : ResolutionParams → ResolutionParams)
  | set (setter : ResolutionSetter)
  | subscribe
  | unsubscribe (i : Nat)
  /-- A watcher is let go. -/
  | drop (i : Nat)
  /-- A watcher is asked whether it has counted changes since it was last asked. -/
  | take (i : Nat)

namespace ResolutionOp

/-- Whether a call changes the parameters. -/
def changes (r : Resolution) : ResolutionOp → Bool
  | update f => (r.update f).1
  | set c => (c.run r).1
  | _ => false

/-- The resolution after a call. -/
def step (r : Resolution) : ResolutionOp → Resolution
  | update f => (r.update f).2
  | set c => (c.run r).2
  | subscribe => r.subscribe.2
  | unsubscribe i => r.unsubscribe i
  | drop i => (r.drop i).2
  | take i => (r.takeChanged i).2

/-- Whether a call adds a watcher. -/
def joins : ResolutionOp → Bool
  | subscribe => true
  | _ => false

/-- Whether a call is an update or a setter. -/
def isUpdate : ResolutionOp → Bool
  | update _ | set _ => true
  | _ => false

/-- The number of watchers that some calls have added, which is the number of the next one. -/
def joined (ops : List ResolutionOp) : Nat := ops.countP joins

theorem joined_append (ops later : List ResolutionOp) : joined (ops ++ later) = joined ops + joined later :=
  List.countP_append

end ResolutionOp

open ResolutionOp

/-- The resolution after some calls. -/
def Resolution.after (r : Resolution) (ops : List ResolutionOp) : Resolution := ops.foldl step r

/-- The number of some calls that change the parameters. -/
def Resolution.changeCount (r : Resolution) : List ResolutionOp → Nat
  | [] => 0
  | op :: ops => (op.changes r).toNat + (op.step r).changeCount ops

/-! ## What has happened, from the calls alone -/

/-- At some call `P` held, of the calls before it and of the call, and all calls after it have been `Q`. -/
def Since (P : List ResolutionOp → ResolutionOp → Prop) (Q : ResolutionOp → Prop) (ops : List ResolutionOp) : Prop :=
  ∃ before op later, ops = before ++ op :: later ∧ P before op ∧ ∀ next ∈ later, Q next

/-- A watcher is there: it has joined, and has not been let go since. -/
def Present (i : Nat) : List ResolutionOp → Prop :=
  Since (fun before op => op = .subscribe ∧ joined before = i) fun next => next ≠ .drop i

/-- A watcher is there and is told of changes: it has joined, and has neither left nor been let go since. -/
def Listening (i : Nat) : List ResolutionOp → Prop :=
  Since (fun before op => op = .subscribe ∧ joined before = i) fun next => next ≠ .unsubscribe i ∧ next ≠ .drop i

/-- A change has been told to a watcher that has not been asked since. -/
def HasNews (start : Resolution) (i : Nat) : List ResolutionOp → Prop :=
  Since (fun before op => op.changes (start.after before) = true ∧ Listening i before) fun next => next ≠ .take i

section Since

variable {P : List ResolutionOp → ResolutionOp → Prop} {Q : ResolutionOp → Prop} {ops : List ResolutionOp}
  {op : ResolutionOp} {i : Nat} {start : Resolution}

theorem not_since_nil : ¬ Since P Q [] := by
  rintro ⟨before, op, later, h, -⟩
  simp at h

/-- The call at which it held is the last one, or it held earlier and the last one is `Q`. -/
theorem since_append_singleton : Since P Q (ops ++ [op]) ↔ P ops op ∨ Since P Q ops ∧ Q op := by
  constructor
  · rintro ⟨before, first, later, h, hp, hq⟩
    induction later using List.reverseRecOn with
    | nil =>
      obtain ⟨rfl, hop⟩ := List.append_inj' h rfl
      simp only [List.cons.injEq, and_true] at hop
      exact .inl (hop ▸ hp)
    | append_singleton later last _ =>
      rw [← List.cons_append, ← List.append_assoc] at h
      obtain ⟨rfl, hop⟩ := List.append_inj' h rfl
      simp only [List.cons.injEq, and_true] at hop
      subst hop
      exact .inr ⟨⟨before, first, later, rfl, hp, fun next hn => hq next (by simp [hn])⟩, hq op (by simp)⟩
  · rintro (hp | ⟨⟨before, first, later, rfl, hp, hq⟩, hop⟩)
    · exact ⟨ops, op, [], rfl, hp, by simp⟩
    · refine ⟨before, first, later ++ [op], by simp, hp, fun next hn => ?_⟩
      rcases List.mem_append.1 hn with hn | hn
      · exact hq next hn
      · rwa [List.mem_singleton.1 hn]

/-- What a call makes or leaves as it is has been so since the call that made it. -/
theorem iff_since {X : List ResolutionOp → Prop} (hnil : ¬ X [])
    (hstep : ∀ ops op, X (ops ++ [op]) ↔ P ops op ∨ X ops ∧ Q op) (ops : List ResolutionOp) :
    X ops ↔ Since P Q ops := by
  induction ops using List.reverseRecOn with
  | nil => exact iff_of_false hnil not_since_nil
  | append_singleton ops op ih => rw [hstep, since_append_singleton, ih]

theorem Listening.present (h : Listening i ops) : Present i ops := by
  obtain ⟨before, op, later, hops, hp, hq⟩ := h
  exact ⟨before, op, later, hops, hp, fun next hn => (hq next hn).2⟩

theorem Present.lt_joined (h : Present i ops) : i < joined ops := by
  obtain ⟨before, op, later, rfl, ⟨rfl, rfl⟩, -⟩ := h
  rw [joined_append]
  simp [joined, joins]

theorem HasNews.lt_joined (h : HasNews start i ops) : i < joined ops := by
  obtain ⟨before, op, later, rfl, ⟨-, hl⟩, -⟩ := h
  have := hl.present.lt_joined
  rw [joined_append]
  omega

end Since

/-! ## One call -/

namespace Resolution

variable {r : Resolution} {op : ResolutionOp} {ops : List ResolutionOp} {i : Nat} {w : Watcher}

/-- The listeners are distinct, and have been added. -/
structure Numbered (r : Resolution) : Prop where
  nodup : r.listeners.Nodup
  lt : ∀ i ∈ r.listeners, i < r.watchers.length

theorem numbered_ofParams (p : ResolutionParams) : (ofParams p).Numbered := ⟨List.nodup_nil, by simp [ofParams]⟩

/-- What telling some listeners leaves at a place. -/
theorem getElem?_foldl_told (listeners : List Nat) (watchers : List (Option Watcher)) (i : Nat) :
    (listeners.foldl (fun ws j => ws.modify j (Option.map Watcher.told)) watchers)[i]? =
      watchers[i]?.map (Option.map fun w => { w with received := w.received + listeners.count i }) := by
  induction listeners generalizing watchers with
  | nil => simp
  | cons j js ih =>
    rw [List.foldl_cons, ih, List.getElem?_modify, List.count_cons]
    by_cases hij : j = i
    · rcases watchers[i]? with _ | _ | w <;> simp [hij, Watcher.told, Nat.add_comm, Nat.add_left_comm]
    · simp [hij]

theorem length_foldl_told (listeners : List Nat) (watchers : List (Option Watcher)) :
    (listeners.foldl (fun ws j => ws.modify j (Option.map Watcher.told)) watchers).length = watchers.length := by
  induction listeners generalizing watchers with
  | nil => rfl
  | cons j js ih => rw [List.foldl_cons, ih, List.length_modify]

theorem watcher?_notify (r : Resolution) (i : Nat) :
    r.notify.watcher? i =
      (r.watcher? i).map fun w => { w with received := w.received + r.listeners.count i } := by
  unfold watcher? notify
  dsimp only
  rw [getElem?_foldl_told]
  rcases r.watchers[i]? with _ | _ | w <;> rfl

theorem watcher?_subscribe (r : Resolution) (i : Nat) :
    r.subscribe.2.watcher? i = if i = r.watchers.length then some ⟨0, 0⟩ else r.watcher? i := by
  unfold watcher? subscribe
  dsimp only
  rw [List.getElem?_append]
  rcases Nat.lt_trichotomy i r.watchers.length with h | rfl | h
  · simp [h, Nat.ne_of_lt h]
  · simp
  · simp [Nat.lt_asymm h, Nat.ne_of_gt h, Nat.sub_ne_zero_of_lt h]

theorem watcher?_unsubscribe (r : Resolution) (i j : Nat) : (r.unsubscribe j).watcher? i = r.watcher? i := by
  unfold unsubscribe
  split <;> rfl

theorem watcher?_drop (r : Resolution) (i j : Nat) :
    (r.drop j).2.watcher? i = if j = i then none else r.watcher? i := by
  unfold watcher? drop
  dsimp only
  rw [List.getElem?_modify]
  split
  · cases r.watchers[i]? <;> rfl
  · simp

theorem watcher?_takeChanged (r : Resolution) (i j : Nat) :
    (r.takeChanged j).2.watcher? i =
      if j = i then (r.watcher? i).map fun w => { w with seen := w.received } else r.watcher? i := by
  unfold watcher? takeChanged
  dsimp only
  rw [List.getElem?_modify]
  split
  · cases r.watchers[i]? <;> rfl
  · simp

/-- An update and its outcome: nothing is told, or all that hear are told once. -/
theorem update_cases (r : Resolution) (f : ResolutionParams → ResolutionParams) :
    (r.update f).1 = false ∧ (r.update f).2 = { r with params := f r.params } ∨
      (r.update f).1 = true ∧ (r.update f).2 = { r with params := f r.params }.notify := by
  cases h : (f r.params).same r.params
  · exact .inr ⟨by simp [update_fst, h], update_of_differ h⟩
  · exact .inl ⟨by simp [update_fst, h], update_of_same h⟩

theorem watcher?_update (hr : r.Numbered) (f : ResolutionParams → ResolutionParams) (i : Nat) :
    (r.update f).2.watcher? i =
      if (r.update f).1 = true ∧ i ∈ r.listeners then (r.watcher? i).map Watcher.told else r.watcher? i := by
  obtain ⟨h, hs⟩ | ⟨h, hs⟩ := r.update_cases f
  · simp [h, hs, watcher?]
  · rw [h, hs, watcher?_notify]
    show (r.watcher? i).map _ = _
    by_cases hi : i ∈ r.listeners
    · rw [if_pos ⟨rfl, hi⟩, hr.nodup.count, if_pos hi]
      rfl
    · rw [if_neg fun h => hi h.2, List.count_eq_zero_of_not_mem hi]
      exact Option.map_id'

/-- A watcher is told of changes: it is in the list, and is not gone. -/
def Hears (r : Resolution) (i : Nat) : Prop := i ∈ r.listeners ∧ (r.watcher? i).isSome = true

theorem step_set (c : ResolutionSetter) (r : Resolution) :
    (ResolutionOp.set c).step r = (ResolutionOp.update c.assign).step r :=
  congrArg Prod.snd (c.run_eq_update r)

theorem changes_set (c : ResolutionSetter) (r : Resolution) :
    (ResolutionOp.set c).changes r = (ResolutionOp.update c.assign).changes r :=
  congrArg Prod.fst (c.run_eq_update r)

theorem version_step (r : Resolution) (op : ResolutionOp) : (op.step r).version = r.version + (op.changes r).toNat := by
  have hupdate (f) : (r.update f).2.version = r.version + (r.update f).1.toNat := by
    obtain ⟨h, hs⟩ | ⟨h, hs⟩ := r.update_cases f <;> rw [h, hs] <;> rfl
  cases op with
  | update f => exact hupdate f
  | set c =>
    rw [step_set, changes_set]
    exact hupdate _
  | unsubscribe i =>
    show (r.unsubscribe i).version = _
    unfold unsubscribe
    split <;> rfl
  | _ => rfl

theorem length_step (r : Resolution) (op : ResolutionOp) :
    (op.step r).watchers.length = r.watchers.length + op.joins.toNat := by
  have hupdate (f) : (r.update f).2.watchers.length = r.watchers.length := by
    obtain ⟨-, hs⟩ | ⟨-, hs⟩ := r.update_cases f <;> rw [hs]
    exact length_foldl_told r.listeners r.watchers
  cases op with
  | update f => exact hupdate f
  | set c =>
    rw [step_set]
    exact hupdate _
  | subscribe => exact List.length_append
  | unsubscribe i =>
    show (r.unsubscribe i).watchers.length = _
    unfold unsubscribe
    split <;> rfl
  | drop i => exact List.length_modify ..
  | take i => exact List.length_modify ..

/-- The list after a call: a new watcher has been added to it, or some watchers are missing, of which those that are
there have just left. -/
theorem listeners_step (r : Resolution) (op : ResolutionOp) :
    op = .subscribe ∧ (op.step r).listeners = r.listeners ++ [r.watchers.length] ∨
      op ≠ .subscribe ∧ (op.step r).listeners.Sublist r.listeners ∧
        ∀ i, r.Hears i → (i ∈ (op.step r).listeners ↔ op ≠ .unsubscribe i) := by
  have hupdate (f) : (r.update f).2.listeners.Sublist r.listeners ∧
      ∀ i, r.Hears i → i ∈ (r.update f).2.listeners := by
    obtain ⟨-, hs⟩ | ⟨-, hs⟩ := r.update_cases f <;> rw [hs]
    · exact ⟨.refl _, fun i hi => hi.1⟩
    · exact ⟨List.filter_sublist, fun i hi => List.mem_filter.2 hi⟩
  cases op with
  | update f => exact .inr ⟨nofun, (hupdate f).1, fun i hi => iff_of_true ((hupdate f).2 i hi) nofun⟩
  | set c =>
    rw [step_set]
    exact .inr ⟨nofun, (hupdate _).1, fun i hi => iff_of_true ((hupdate _).2 i hi) nofun⟩
  | subscribe => exact .inl ⟨rfl, rfl⟩
  | unsubscribe j =>
    refine .inr ⟨nofun, ?_⟩
    show (r.unsubscribe j).listeners.Sublist r.listeners ∧
      ∀ i, r.Hears i → (i ∈ (r.unsubscribe j).listeners ↔ _)
    unfold unsubscribe
    split
    · refine ⟨List.filter_sublist, fun i hi => ?_⟩
      rw [List.mem_filter, hi.2, Bool.true_and, bne_iff_ne, Ne, Ne, ResolutionOp.unsubscribe.injEq, eq_comm]
      exact and_iff_right hi.1
    · next hj =>
      refine ⟨.refl _, fun i hi => iff_of_true hi.1 ?_⟩
      rintro ⟨⟩
      exact hj hi.2
  | drop j => exact .inr ⟨nofun, .refl _, fun i hi => iff_of_true hi.1 nofun⟩
  | take j => exact .inr ⟨nofun, .refl _, fun i hi => iff_of_true hi.1 nofun⟩

theorem Numbered.step (hr : r.Numbered) (op : ResolutionOp) : (op.step r).Numbered := by
  obtain ⟨rfl, hl⟩ | ⟨-, hsub, -⟩ := r.listeners_step op
  · have hnew : r.watchers.length ∉ r.listeners := fun h => Nat.lt_irrefl _ (hr.lt _ h)
    constructor
    · rw [hl, List.nodup_append]
      refine ⟨hr.nodup, List.nodup_singleton _, fun i hi j hj hij => hnew ?_⟩
      rwa [← List.mem_singleton.1 hj, ← hij]
    · rw [hl, length_step]
      intro i hi
      rcases List.mem_append.1 hi with hi | hi
      · exact Nat.lt_succ_of_lt (hr.lt i hi)
      · exact List.mem_singleton.1 hi ▸ Nat.lt_succ_self _
  · refine ⟨hsub.nodup hr.nodup, fun i hi => ?_⟩
    rw [length_step]
    exact Nat.lt_add_right _ (hr.lt i (hsub.subset hi))

/-- What a call leaves to a watcher that is not let go: it counts a change that it is told, and has seen all changes that
it has counted when it is asked. -/
theorem watcher?_step (hr : r.Numbered) (hw : r.watcher? i = some w) (hd : op ≠ .drop i) :
    ∃ w', (op.step r).watcher? i = some w' ∧
      w'.received = w.received + (if op.changes r = true ∧ i ∈ r.listeners then 1 else 0) ∧
      (op = .take i → w'.seen = w.received) ∧ (op ≠ .take i → w'.seen = w.seen) := by
  have hupdate (f) : ∃ w', (r.update f).2.watcher? i = some w' ∧
      w'.received = w.received + (if (r.update f).1 = true ∧ i ∈ r.listeners then 1 else 0) ∧ w'.seen = w.seen := by
    rw [watcher?_update hr, hw]
    split
    · exact ⟨w.told, rfl, rfl, rfl⟩
    · exact ⟨w, rfl, rfl, rfl⟩
  cases op with
  | update f =>
    obtain ⟨w', h, hreceived, hseen⟩ := hupdate f
    exact ⟨w', h, hreceived, nofun, fun _ => hseen⟩
  | set c =>
    obtain ⟨w', h, hreceived, hseen⟩ := hupdate c.assign
    rw [step_set, changes_set]
    exact ⟨w', h, hreceived, nofun, fun _ => hseen⟩
  | subscribe =>
    have hi : i ≠ r.watchers.length := by
      rintro rfl
      simp [watcher?] at hw
    refine ⟨w, ?_, by simp [ResolutionOp.changes], nofun, fun _ => rfl⟩
    show r.subscribe.2.watcher? i = some w
    rw [watcher?_subscribe, if_neg hi, hw]
  | unsubscribe j =>
    refine ⟨w, ?_, by simp [ResolutionOp.changes], nofun, fun _ => rfl⟩
    show (r.unsubscribe j).watcher? i = some w
    rw [watcher?_unsubscribe, hw]
  | drop j =>
    have hji : j ≠ i := fun h => hd (h ▸ rfl)
    refine ⟨w, ?_, by simp [ResolutionOp.changes], nofun, fun _ => rfl⟩
    show (r.drop j).2.watcher? i = some w
    rw [watcher?_drop, if_neg hji, hw]
  | take j =>
    have htake : (ResolutionOp.take j).step r = (r.takeChanged j).2 := rfl
    rw [htake, watcher?_takeChanged, hw]
    by_cases hji : j = i
    · subst hji
      refine ⟨{ w with seen := w.received }, if_pos rfl, ?_, fun _ => rfl, fun h => absurd rfl h⟩
      simp [ResolutionOp.changes]
    · refine ⟨w, if_neg hji, by simp [ResolutionOp.changes], ?_, fun _ => rfl⟩
      rintro ⟨⟩
      exact absurd rfl hji

/-- A watcher is there after a call if it has just joined, or was there and has not been let go. -/
theorem isSome_watcher?_step (hr : r.Numbered) (op : ResolutionOp) (i : Nat) :
    ((op.step r).watcher? i).isSome = true ↔
      op = .subscribe ∧ r.watchers.length = i ∨ (r.watcher? i).isSome = true ∧ op ≠ .drop i := by
  have hupdate (f) : ((r.update f).2.watcher? i).isSome = (r.watcher? i).isSome := by
    rw [watcher?_update hr]
    split
    · exact Option.isSome_map
    · rfl
  cases op with
  | update f => simp [ResolutionOp.step, hupdate]
  | set c =>
    rw [step_set]
    simp [ResolutionOp.step, hupdate]
  | subscribe =>
    simp only [ResolutionOp.step, watcher?_subscribe]
    by_cases hi : i = r.watchers.length
    · simp [hi]
    · simp [hi, Ne.symm hi]
  | unsubscribe j => simp [ResolutionOp.step, watcher?_unsubscribe]
  | drop j =>
    simp only [ResolutionOp.step, watcher?_drop]
    by_cases hj : j = i <;> simp [hj]
  | take j =>
    simp only [ResolutionOp.step, watcher?_takeChanged]
    by_cases hj : j = i <;> simp [hj]

/-- A watcher is told of changes after a call if it has just joined, or was told before and has not left or been let
go. -/
theorem hears_step (hr : r.Numbered) (op : ResolutionOp) (i : Nat) :
    (op.step r).Hears i ↔
      op = .subscribe ∧ r.watchers.length = i ∨ r.Hears i ∧ op ≠ .unsubscribe i ∧ op ≠ .drop i := by
  unfold Hears
  rw [isSome_watcher?_step hr]
  obtain ⟨rfl, hl⟩ | ⟨hop, hsub, hmem⟩ := r.listeners_step op
  · rw [hl, List.mem_append, List.mem_singleton]
    by_cases hi : i = r.watchers.length
    · simp [hi]
    · simp [hi, Ne.symm hi]
  · constructor
    · rintro ⟨hi, ⟨rfl, -⟩ | ⟨hw, hd⟩⟩
      · exact absurd rfl hop
      · have hears : r.Hears i := ⟨hsub.subset hi, hw⟩
        exact .inr ⟨hears, (hmem i hears).1 hi, hd⟩
    · rintro (⟨rfl, -⟩ | ⟨hears, hu, hd⟩)
      · exact absurd rfl hop
      · exact ⟨(hmem i hears).2 hu, .inr ⟨hears.2, hd⟩⟩

/-- A watcher that is there and is not in the list does not come into it. -/
theorem not_mem_listeners_step (hw : r.watcher? i = some w) (hi : i ∉ r.listeners) (op : ResolutionOp) :
    i ∉ (op.step r).listeners := by
  obtain ⟨rfl, hl⟩ | ⟨-, hsub, -⟩ := r.listeners_step op
  · rw [hl, List.mem_append, List.mem_singleton]
    rintro (h | rfl)
    · exact hi h
    · simp [watcher?] at hw
  · exact fun h => hi (hsub.subset h)

/-! ## Any calls -/

theorem after_append (r : Resolution) (ops later : List ResolutionOp) :
    r.after (ops ++ later) = (r.after ops).after later := List.foldl_append

theorem Numbered.after (hr : r.Numbered) (ops : List ResolutionOp) : (r.after ops).Numbered := by
  induction ops generalizing r with
  | nil => exact hr
  | cons op ops ih => exact ih (hr.step op)

theorem version_after (r : Resolution) (ops : List ResolutionOp) :
    (r.after ops).version = r.version + r.changeCount ops := by
  induction ops generalizing r with
  | nil => rfl
  | cons op ops ih =>
    show ((op.step r).after ops).version = _
    rw [ih, version_step, changeCount, Nat.add_assoc]

theorem length_after (r : Resolution) (ops : List ResolutionOp) :
    (r.after ops).watchers.length = r.watchers.length + joined ops := by
  induction ops generalizing r with
  | nil => rfl
  | cons op ops ih =>
    show ((op.step r).after ops).watchers.length = _
    rw [ih, length_step, Nat.add_assoc]
    cases h : op.joins <;> simp [joined, h, Nat.add_comm]

/-- A watcher that hears, and neither leaves nor is let go, counts every change. -/
theorem received_of_hears (hr : r.Numbered) (hw : r.watcher? i = some w) (hi : i ∈ r.listeners)
    (hops : ∀ next ∈ ops, next ≠ .unsubscribe i ∧ next ≠ .drop i) :
    ∃ w', (r.after ops).watcher? i = some w' ∧ w'.received = w.received + r.changeCount ops := by
  induction ops generalizing r w with
  | nil => exact ⟨w, hw, rfl⟩
  | cons op ops ih =>
    obtain ⟨⟨hu, hd⟩, hops⟩ := List.forall_mem_cons.1 hops
    obtain ⟨v, hv, hreceived, -⟩ := watcher?_step hr hw hd
    have hears : (op.step r).Hears i := (hears_step hr op i).2 (.inr ⟨⟨hi, by simp [hw]⟩, hu, hd⟩)
    obtain ⟨w', hw', hlater⟩ := ih (hr.step op) hv hears.1 hops
    refine ⟨w', hw', ?_⟩
    rw [hlater, hreceived, changeCount, Nat.add_assoc]
    cases op.changes r <;> simp [hi]

/-- A watcher that is not in the list, and is not let go, counts nothing. -/
theorem received_of_not_listed (hr : r.Numbered) (hw : r.watcher? i = some w) (hi : i ∉ r.listeners)
    (hops : ∀ next ∈ ops, next ≠ .drop i) :
    ∃ w', (r.after ops).watcher? i = some w' ∧ w'.received = w.received := by
  induction ops generalizing r w with
  | nil => exact ⟨w, hw, rfl⟩
  | cons op ops ih =>
    obtain ⟨hd, hops⟩ := List.forall_mem_cons.1 hops
    obtain ⟨v, hv, hreceived, -⟩ := watcher?_step hr hw hd
    obtain ⟨w', hw', hlater⟩ := ih (hr.step op) hv (not_mem_listeners_step hw hi op) hops
    exact ⟨w', hw', by simp [hlater, hreceived, hi]⟩

/-- A watcher that has just joined, and neither leaves nor is let go, counts every change. -/
theorem received_of_subscribe (hr : r.Numbered)
    (hops : ∀ next ∈ ops, next ≠ .unsubscribe r.watchers.length ∧ next ≠ .drop r.watchers.length) :
    ∃ w, (r.subscribe.2.after ops).watcher? r.watchers.length = some w ∧
      w.received = r.subscribe.2.changeCount ops := by
  have hw : r.subscribe.2.watcher? r.watchers.length = some ⟨0, 0⟩ := by rw [watcher?_subscribe, if_pos rfl]
  have hi : r.watchers.length ∈ r.subscribe.2.listeners := List.mem_append_right _ (List.mem_singleton_self _)
  have hnumbered : r.subscribe.2.Numbered := hr.step .subscribe
  obtain ⟨w, hw, hreceived⟩ := received_of_hears hnumbered hw hi hops
  exact ⟨w, hw, hreceived.trans (Nat.zero_add _)⟩

/-- A watcher that leaves counts nothing further. -/
theorem received_of_unsubscribe (hr : r.Numbered) (hw : r.watcher? i = some w) (hops : ∀ next ∈ ops, next ≠ .drop i) :
    ∃ w', ((r.unsubscribe i).after ops).watcher? i = some w' ∧ w'.received = w.received := by
  have hkept : (r.unsubscribe i).watcher? i = some w := (r.watcher?_unsubscribe i i).trans hw
  have hi : i ∉ (r.unsubscribe i).listeners := by simp [Resolution.unsubscribe, hw]
  exact received_of_not_listed (hr.step (.unsubscribe i)) hkept hi hops

/-- An update or a setter that finds no change tells nothing. -/
theorem quiet_step (hop : op.isUpdate = true) (hsame : op.changes r = false) :
    (op.step r).version = r.version ∧ (op.step r).watchers = r.watchers ∧ (op.step r).listeners = r.listeners := by
  have hupdate (f) (h : (r.update f).1 = false) : (r.update f).2.version = r.version ∧
      (r.update f).2.watchers = r.watchers ∧ (r.update f).2.listeners = r.listeners := by
    obtain ⟨-, hs⟩ | ⟨htold, -⟩ := r.update_cases f
    · rw [hs]
      exact ⟨rfl, rfl, rfl⟩
    · rw [htold] at h
      cases h
  cases op with
  | update f => exact hupdate f hsame
  | set c =>
    rw [step_set]
    exact hupdate _ ((changes_set c r).symm.trans hsame)
  | _ => cases hop

end Resolution

/-! ## Calls on a new resolution -/

namespace Resolution

section New

variable {params : ResolutionParams} {ops : List ResolutionOp} {i : Nat} {w : Watcher}

theorem numbered_after (params : ResolutionParams) (ops : List ResolutionOp) : ((ofParams params).after ops).Numbered :=
  (numbered_ofParams params).after ops

theorem length_after_new (params : ResolutionParams) (ops : List ResolutionOp) :
    ((ofParams params).after ops).watchers.length = joined ops := by
  rw [length_after]
  exact Nat.zero_add _

theorem present_iff : (((ofParams params).after ops).watcher? i).isSome = true ↔ Present i ops := by
  refine iff_since (X := fun ops => (((ofParams params).after ops).watcher? i).isSome = true) ?_ (fun ops op => ?_) ops
  · simp [Resolution.after, watcher?, ofParams]
  · rw [after_append, ← length_after_new params]
    exact isSome_watcher?_step (numbered_after params ops) op i

theorem hears_iff : ((ofParams params).after ops).Hears i ↔ Listening i ops := by
  refine iff_since (X := fun ops => ((ofParams params).after ops).Hears i) ?_ (fun ops op => ?_) ops
  · simp [Hears, Resolution.after, ofParams]
  · rw [after_append, ← length_after_new params]
    exact hears_step (numbered_after params ops) op i

/-- A watcher has counted changes that it has not seen iff a change has been told to it since it was last asked. -/
theorem seen_lt_iff (hw : ((ofParams params).after ops).watcher? i = some w) :
    w.seen ≤ w.received ∧ (w.seen < w.received ↔ HasNews (ofParams params) i ops) := by
  induction ops using List.reverseRecOn generalizing w with
  | nil => simp [Resolution.after, watcher?, ofParams] at hw
  | append_singleton ops op ih =>
    have hr := numbered_after params ops
    rw [HasNews, since_append_singleton, ← HasNews]
    rw [after_append] at hw
    change (op.step ((ofParams params).after ops)).watcher? i = some w at hw
    obtain ⟨rfl, hi⟩ | ⟨hold, hd⟩ := (isSome_watcher?_step hr op i).1 (by rw [hw]; rfl)
    · -- a new watcher has counted nothing, and nothing has been told to one of its number
      have hnew : ¬ HasNews (ofParams params) i ops := fun h => by
        have := h.lt_joined
        rw [length_after_new params] at hi
        omega
      have hw' : ((ofParams params).after ops).subscribe.2.watcher? i = some w := hw
      rw [watcher?_subscribe, if_pos hi.symm] at hw'
      cases hw'
      simp [hnew, ResolutionOp.changes]
    · obtain ⟨v, hv⟩ := Option.isSome_iff_exists.1 hold
      obtain ⟨hle, hnews⟩ := ih hv
      obtain ⟨w', hw', hreceived, htaken, hkept⟩ := watcher?_step hr hv hd
      obtain rfl : w = w' := Option.some.inj (hw.symm.trans hw')
      have hlistening : i ∈ ((ofParams params).after ops).listeners ↔ Listening i ops := by
        rw [← hears_iff]
        exact ⟨fun h => ⟨h, hold⟩, fun h => h.1⟩
      rw [hreceived, ← hlistening, ← hnews]
      by_cases ht : op = .take i
      · subst ht
        simp [htaken rfl, ResolutionOp.changes]
      · rw [hkept ht]
        split
        · next htold => simp [htold]; omega
        · next htold => simp [htold, ht, hle]

theorem takeChanged_iff {answer : Bool} : (((ofParams params).after ops).takeChanged i).1 = some answer ↔
    Present i ops ∧ (answer = true ↔ HasNews (ofParams params) i ops) := by
  rw [← @present_iff params]
  unfold takeChanged
  dsimp only
  cases hw : ((ofParams params).after ops).watcher? i with
  | none => simp
  | some w =>
    obtain ⟨hle, hnews⟩ := seen_lt_iff hw
    rw [← hnews]
    have hne : w.received ≠ w.seen ↔ w.seen < w.received := by omega
    cases answer <;> simp [← hne]

theorem dependents_eq : ((ofParams params).after ops).dependents = {i | Listening i ops}.ncard := by
  set r := (ofParams params).after ops with hr
  have hset : {i | Listening i ops} = ((r.listeners.filter fun i => (r.watcher? i).isSome).toFinset : Set Nat) := by
    ext i
    rw [Set.mem_ofPred_eq, ← @hears_iff params, ← hr]
    simp [Hears]
  have hr : r.Numbered := numbered_after params ops
  rw [hset, Set.ncard_coe_finset, List.toFinset_card_of_nodup (hr.nodup.filter _), dependents,
    List.countP_eq_length_filter]

end New

end Resolution

/-! ## What watchers have counted -/

/-- What holds of a resolution after some calls, and of every watcher. -/
structure Accounted (start : Resolution) (ops : List ResolutionOp) : Prop where
  /-- The watchers that are there are those that have joined and have not been let go. -/
  present : ∀ i, ((start.after ops).watcher? i).isSome = true ↔ Present i ops
  /-- A watcher that is there and has not left has counted the changes since it joined, each of which is a version. -/
  subscribed : ∀ before later, ops = before ++ .subscribe :: later →
    (∀ next ∈ later, next ≠ .unsubscribe (joined before) ∧ next ≠ .drop (joined before)) →
      ∃ w, (start.after ops).watcher? (joined before) = some w ∧
        w.received = (start.after (before ++ [.subscribe])).changeCount later ∧
        (start.after ops).version = (start.after before).version + w.received
  /-- A watcher that has left counts nothing further. -/
  unsubscribed : ∀ before later i w, ops = before ++ .unsubscribe i :: later →
    (start.after before).watcher? i = some w → (∀ next ∈ later, next ≠ .drop i) →
      ∃ w', (start.after ops).watcher? i = some w' ∧ w'.received = w.received
  /-- A watcher that is asked says whether a change has been told to it since it was last asked. -/
  asked : ∀ i answer, ((start.after ops).takeChanged i).1 = some answer ↔
    Present i ops ∧ (answer = true ↔ HasNews start i ops)
  /-- The number of dependents is the number of watchers that are there and have not left. -/
  dependents : (start.after ops).dependents = {i | Listening i ops}.ncard
  /-- An update or a setter that returns false leaves the version, the watchers and the list. -/
  quiet : ∀ op : ResolutionOp, op.isUpdate = true → op.changes (start.after ops) = false →
    (op.step (start.after ops)).version = (start.after ops).version ∧
      (op.step (start.after ops)).watchers = (start.after ops).watchers ∧
      (op.step (start.after ops)).listeners = (start.after ops).listeners

open Resolution in
/-- After any calls on a new resolution, in any order, every watcher has counted each change since it joined once. -/
theorem accounted_of_calls (params : ResolutionParams) (ops : List ResolutionOp) :
    Accounted (Resolution.ofParams params) ops := by
  have hnumbered := numbered_after params
  constructor
  case present => exact fun i => present_iff
  case subscribed =>
    rintro before later rfl hlater
    rw [← length_after_new params before] at hlater ⊢
    have hall : (ofParams params).after (before ++ .subscribe :: later) =
        ((ofParams params).after before).subscribe.2.after later := after_append ..
    have hjoined : (ofParams params).after (before ++ [.subscribe]) =
        ((ofParams params).after before).subscribe.2 := after_append ..
    obtain ⟨w, hw, hreceived⟩ := received_of_subscribe (hnumbered before) hlater
    rw [hall, hjoined, version_after, ← hreceived]
    exact ⟨w, hw, rfl, rfl⟩
  case unsubscribed =>
    rintro before later i w rfl hw hlater
    have hall : (ofParams params).after (before ++ .unsubscribe i :: later) =
        (((ofParams params).after before).unsubscribe i).after later := after_append ..
    rw [hall]
    exact received_of_unsubscribe (hnumbered before) hw hlater
  case asked => exact fun i answer => takeChanged_iff
  case dependents => exact dependents_eq
  case quiet => exact fun op => quiet_step

end ScreenFusion
