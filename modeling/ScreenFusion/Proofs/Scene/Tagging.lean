import Mathlib.Logic.Function.Basic
import ScreenFusion.Proofs.Scene.Layers

/-!
# ScreenFusion.Proofs.Scene.Tagging — selections that share a scene

Selections tag their members in one scene, in any order of their operations.  An operation that does not take layers away
for the sake of exclusiveness writes one layer of the named object or of the members, and nothing else, so selections on
layers of their own do not get in each other's way.

* `SelectionOp`: the operations as data; `SelectionOp.retouch`: what one makes of the layers of each object.
* `SelectionOp.writes`, `has_retouch`: which layers of which objects an operation writes.
* `SharedScene`: selections and their scene, with the operations of all selections in turn.
* `SharedScene.Consistent`: members are tagged, and what has been taken out is not.
* `SharedScene.Separate`: no operation writes what is not its own, and neighbouring ones of two selections can be swapped.
* `tagging_consistent`: both, after any operations.
-/

namespace ScreenFusion

/-! ## Operations -/

/-- An operation of a selection on a scene. -/
inductive SelectionOp where
  | add (object : Nat)
  | delete (object : Nat)
  | clear
  | setVisible (visible : Bool)
  | setExclusive (exclusive : Bool)
  deriving DecidableEq

namespace SelectionOp

variable {s : Selection} {scene scene' : ObjectLayers} {op : SelectionOp} {o i : Nat} {l : Layers}

/-- The answer of an operation, if it has one, and the selection and the scene after it. -/
def run (s : Selection) (scene : ObjectLayers) : SelectionOp → Option Bool × Selection × ObjectLayers
  | add object =>
    let (known, after) := s.add scene object
    (some known, after)
  | delete object =>
    let (found, after) := s.delete scene object
    (some found, after)
  | clear => (none, s.clear scene)
  | setVisible visible => (none, s, s.setVisible scene visible)
  | setExclusive exclusive => (none, { s with exclusive }, scene)

/-- Whether an operation changes which objects are tagged. -/
def isTagging : SelectionOp → Bool
  | add _ | delete _ | clear => true
  | _ => false

/-- The operation takes an object out of the selection. -/
def Removes (s : Selection) (scene : ObjectLayers) (o : Nat) (op : SelectionOp) : Prop :=
  op = .delete o ∧ (op.run s scene).1 = some true ∨ op = .clear ∧ o ∈ s.members

/-- The operation may write a layer of an object: its selection's own layer of the named object or of the members, or the
layer that is always shown of the members. -/
def writes (s : Selection) (o i : Nat) : SelectionOp → Prop
  | add object => o = object ∧ i = s.layer
  | delete object => o = object ∧ o ∈ s.members ∧ i = s.layer
  | clear => o ∈ s.members ∧ i = s.layer
  | setVisible _ => o ∈ s.members ∧ i = alwaysVisibleLayer
  | setExclusive _ => False

instance (s : Selection) (o i : Nat) : (op : SelectionOp) → Decidable (op.writes s o i)
  | add object => inferInstanceAs (Decidable (o = object ∧ i = s.layer))
  | delete object => inferInstanceAs (Decidable (o = object ∧ o ∈ s.members ∧ i = s.layer))
  | clear => inferInstanceAs (Decidable (o ∈ s.members ∧ i = s.layer))
  | setVisible _ => inferInstanceAs (Decidable (o ∈ s.members ∧ i = alwaysVisibleLayer))
  | setExclusive _ => inferInstanceAs (Decidable False)

/-- Whether an operation sets the layers that it writes. -/
def sets : SelectionOp → Bool
  | add _ => true
  | setVisible visible => visible
  | _ => false

/-- What an operation makes of the layers of an object. -/
def retouch (s : Selection) (op : SelectionOp) (o : Nat) (l : Layers) : Layers :=
  match op with
  | add object => if o = object then if s.exclusive then s.mask else l.union s.mask else l
  | delete object => if o = object ∧ o ∈ s.members then l.without s.mask else l
  | clear => if o ∈ s.members then l.without s.mask else l
  | setVisible visible =>
    if o ∈ s.members then
      if visible then l.union (.layer alwaysVisibleLayer) else l.without (.layer alwaysVisibleLayer)
    else l
  | setExclusive _ => l

/-- The scene after an operation. -/
theorem scene_run (s : Selection) (scene : ObjectLayers) (op : SelectionOp) :
    (op.run s scene).2.2 = scene.retouch (op.retouch s) := by
  have hunion (l k : Layers) : (l.union k).union k = l.union k := Layers.eq_of_has fun i => by simp
  have hwithout (l k : Layers) : (l.without k).without k = l.without k :=
    Layers.eq_of_has fun i => by simp
  cases op with
  | add object =>
    by_cases hknown : scene.contains object = true
    · simp only [run, Selection.add, if_pos hknown]
      rw [Table.modify_eq_retouch]
      rfl
    · simp only [run, Selection.add, if_neg hknown]
      refine (Table.retouch_eq_self fun o l ho => if_neg ?_).symm
      rintro rfl
      exact hknown ho
  | delete object =>
    by_cases hmember : s.contains object = true
    · simp only [run, Selection.delete, if_pos hmember]
      rw [Table.modify_eq_retouch]
      refine congrArg (Table.retouch · scene) (funext fun o => funext fun l => if_congr ?_ rfl rfl)
      exact (and_iff_left_of_imp fun ho => ho ▸ List.contains_iff_mem.1 hmember).symm
    · simp only [run, Selection.delete, if_neg hmember]
      refine (Table.retouch_eq_self fun o l _ => if_neg ?_).symm
      rintro ⟨rfl, ho⟩
      exact hmember (List.contains_iff_mem.2 ho)
  | clear => exact Table.foldl_modify_eq_retouch (hwithout · s.mask) s.members scene
  | setVisible visible =>
    cases visible with
    | true => exact Table.foldl_modify_eq_retouch (hunion · (.layer alwaysVisibleLayer)) s.members scene
    | false => exact Table.foldl_modify_eq_retouch (hwithout · (.layer alwaysVisibleLayer)) s.members scene
  | setExclusive exclusive => exact (Table.retouch_eq_self fun _ _ _ => rfl).symm

/-- The members after an operation. -/
theorem mem_members_run : o ∈ (op.run s scene).2.1.members ↔ match op with
    | add object => o ∈ s.members ∨ o = object ∧ scene.contains object = true
    | delete object => o ∈ s.members ∧ o ≠ object
    | clear => False
    | _ => o ∈ s.members := by
  cases op with
  | add object =>
    by_cases hknown : scene.contains object = true
    · simp [run, Selection.add, hknown, Selection.mem_insertMember, or_comm]
    · simp [run, Selection.add, hknown]
  | delete object =>
    by_cases hmember : s.contains object = true
    · simp [run, Selection.delete, hmember]
    · have hnot : object ∉ s.members := fun h => hmember (List.contains_iff_mem.2 h)
      simp only [run, Selection.delete, if_neg hmember]
      refine (and_iff_left_of_imp fun ho => ?_).symm
      rintro rfl
      exact hnot ho
  | clear => simp [run, Selection.clear]
  | setVisible _ | setExclusive _ => rfl

/-- What is written is the selection's own layer or the one that is always shown. -/
theorem layer_of_writes (h : op.writes s o i) : i = s.layer ∨ i = alwaysVisibleLayer := by
  cases op with
  | add _ => exact .inl h.2
  | delete _ => exact .inl h.2.2
  | clear => exact .inl h.2
  | setVisible _ => exact .inr h.2
  | setExclusive _ => exact h.elim

/-- An operation that changes which objects are tagged writes the selection's own layer. -/
theorem layer_of_tagging (hop : op.isTagging = true) (h : op.writes s o i) : i = s.layer := by
  cases op with
  | add _ => exact h.2
  | delete _ => exact h.2.2
  | clear => exact h.2
  | setVisible _ | setExclusive _ => cases hop

/-- What is a member afterwards was one before, or the operation has set its layer. -/
theorem writes_of_mem_run (hlayer : 0 < s.layer) (ho : o ∈ (op.run s scene).2.1.members) :
    if op.writes s o s.layer then op.sets = true else o ∈ s.members := by
  rw [mem_members_run] at ho
  cases op with
  | add object =>
    by_cases h : o = object
    · rw [if_pos ⟨h, rfl⟩]
      rfl
    · rw [if_neg fun hw => h hw.1]
      exact ho.resolve_right fun hnew => h hnew.1
  | delete object =>
    rw [if_neg fun hw => ho.2 hw.1]
    exact ho.1
  | clear => exact ho.elim
  | setVisible visible =>
    rw [if_neg fun hw => Nat.ne_of_gt hlayer hw.2]
    exact ho
  | setExclusive _ => exact ho

/-- An operation takes the layer away from the object that it takes out. -/
theorem writes_of_removes (h : op.Removes s scene o) : op.writes s o s.layer ∧ op.sets = false := by
  rcases h with ⟨rfl, hfound⟩ | ⟨rfl, ho⟩
  · refine ⟨⟨rfl, ?_, rfl⟩, rfl⟩
    by_cases hmember : s.contains o = true
    · exact List.contains_iff_mem.1 hmember
    · simp [run, Selection.delete, hmember] at hfound
  · exact ⟨⟨ho, rfl⟩, rfl⟩

/-- Only adding sets the selection's own layer, and that of the named object. -/
theorem eq_add_of_writes (hlayer : 0 < s.layer) (h : op.writes s o s.layer) (hsets : op.sets = true) :
    op = .add o := by
  cases op with
  | add object => rw [h.1]
  | setVisible _ => exact absurd h.2 (Nat.ne_of_gt hlayer)
  | delete _ | clear | setExclusive _ => cases hsets

theorem layer_run (s : Selection) (scene : ObjectLayers) (op : SelectionOp) :
    (op.run s scene).2.1.layer = s.layer := by
  cases op with
  | add object =>
    simp only [run, Selection.add]
    split <;> rfl
  | delete object =>
    simp only [run, Selection.delete]
    split <;> rfl
  | _ => rfl

theorem exclusive_run (hop : op ≠ .setExclusive true) (hs : s.exclusive = false) :
    (op.run s scene).2.1.exclusive = false := by
  cases op with
  | add object =>
    simp only [run, Selection.add]
    split <;> exact hs
  | delete object =>
    simp only [run, Selection.delete]
    split <;> exact hs
  | clear | setVisible _ => exact hs
  | setExclusive exclusive =>
    cases exclusive with
    | true => exact absurd rfl hop
    | false => rfl

/-- The answer and the selection depend on which objects the scene knows only. -/
theorem run_congr (h : ∀ o, scene'.contains o = scene.contains o) (op : SelectionOp) :
    (op.run s scene').1 = (op.run s scene).1 ∧ (op.run s scene').2.1 = (op.run s scene).2.1 := by
  cases op with
  | add object =>
    simp only [run, Selection.add, h object]
    split <;> exact ⟨rfl, rfl⟩
  | delete object =>
    simp only [run, Selection.delete]
    split <;> exact ⟨rfl, rfl⟩
  | _ => exact ⟨rfl, rfl⟩

/-- An operation sets or takes away the layers that it writes and leaves all others, but for what is taken away for the
sake of exclusiveness, which is not the selection's own layer. -/
theorem has_retouch (hlayer : s.layer < 32) (hi : s.exclusive = false ∨ i = s.layer) (op : SelectionOp) (o : Nat)
    (l : Layers) : (op.retouch s o l).has i = if op.writes s o i then op.sets else l.has i := by
  have hmask (j : Nat) : s.mask.has j = decide (j = s.layer) := Layers.has_layer hlayer j
  have halways (j : Nat) : (Layers.layer alwaysVisibleLayer).has j = decide (j = alwaysVisibleLayer) :=
    Layers.has_layer (by decide) j
  cases op with
  | add object =>
    by_cases ho : o = object
    · cases hs : s.exclusive <;> by_cases h : i = s.layer <;> simp_all [retouch, writes, sets]
    · simp [retouch, writes, ho]
  | delete object =>
    by_cases ho : o = object ∧ o ∈ s.members
    · rw [show (delete object).retouch s o l = l.without s.mask from if_pos ho]
      by_cases h : i = s.layer
      · rw [if_pos ⟨ho.1, ho.2, h⟩]
        simp [hmask, h, sets]
      · rw [if_neg fun hw => h hw.2.2]
        simp [hmask, h]
    · rw [show (delete object).retouch s o l = l from if_neg ho, if_neg fun h => ho ⟨h.1, h.2.1⟩]
  | clear =>
    by_cases ho : o ∈ s.members
    · by_cases h : i = s.layer <;> simp [retouch, writes, sets, ho, hmask, h]
    · simp [retouch, writes, ho]
  | setVisible visible =>
    by_cases ho : o ∈ s.members
    · by_cases h : i = alwaysVisibleLayer <;> cases visible <;> simp [retouch, writes, sets, ho, halways, h]
    · simp [retouch, writes, ho]
  | setExclusive _ => simp [retouch, writes]

end SelectionOp

/-! ## Selections in turn -/

/-- Selections and the scene that they share; each has an owner by whom it is named. -/
structure SharedScene (ι : Type) where
  selection : ι → Selection
  scene : ObjectLayers

namespace SharedScene

open SelectionOp

variable {ι : Type} [DecidableEq ι] {g : SharedScene ι} {a b : ι} {o : Nat} {op : SelectionOp}
  {t u : ι × SelectionOp} {turns : List (ι × SelectionOp)}

/-- An operation of one of the selections: its answer, and what it leaves. -/
def act (g : SharedScene ι) (t : ι × SelectionOp) : Option Bool × SharedScene ι :=
  let (answer, s, scene) := t.2.run (g.selection t.1) g.scene
  (answer, ⟨Function.update g.selection t.1 s, scene⟩)

/-- The selections and the scene after some operations. -/
def after (g : SharedScene ι) (turns : List (ι × SelectionOp)) : SharedScene ι :=
  turns.foldl (fun g t => (g.act t).2) g

/-- The answers of some operations. -/
def answers (g : SharedScene ι) : List (ι × SelectionOp) → List (Option Bool)
  | [] => []
  | t :: turns => (g.act t).1 :: (g.act t).2.answers turns

/-- The selections have just been made, each on a layer of its own. -/
structure Fresh (g : SharedScene ι) : Prop where
  created : ∀ a, Selection.create (g.selection a).layer = .ok (g.selection a)
  distinct : ∀ a b, a ≠ b → (g.selection a).layer ≠ (g.selection b).layer

/-- What is in a selection has its layer, and what has been taken out of it and not been added again does not. -/
structure Consistent (g : SharedScene ι) (turns : List (ι × SelectionOp)) : Prop where
  tagged : ∀ a, ∀ o ∈ ((g.after turns).selection a).members, ∀ l, (g.after turns).scene.get? o = some l →
    l.includes (g.selection a).mask = true
  untagged : ∀ a o before op later, turns = before ++ (a, op) :: later →
    op.Removes ((g.after before).selection a) (g.after before).scene o → (a, .add o) ∉ later →
      ∀ l, (g.after turns).scene.get? o = some l → l.includes (g.selection a).mask = false

/-- What an operation leaves alone: the other selections, which objects there are, and all layers of them that it does
not write. -/
structure Frame (g : SharedScene ι) (t : ι × SelectionOp) : Prop where
  others : ∀ a, a ≠ t.1 → (g.act t).2.selection a = g.selection a
  known : ∀ o, (g.act t).2.scene.contains o = g.scene.contains o
  layers : ∀ o l l', g.scene.get? o = some l → (g.act t).2.scene.get? o = some l' →
    ∀ i, i < 32 → l'.includes (.layer i) ≠ l.includes (.layer i) → t.2.writes (g.selection t.1) o i

/-- Two operations that follow each other can be swapped: the selections and the scene are the same in the end, and every
operation has the same answer. -/
structure Swaps (g : SharedScene ι) (before : List (ι × SelectionOp)) (t u : ι × SelectionOp)
    (later : List (ι × SelectionOp)) : Prop where
  after_eq : g.after (before ++ t :: u :: later) = g.after (before ++ u :: t :: later)
  answers_eq : ∃ earlier r s rest, earlier.length = before.length ∧
    g.answers (before ++ t :: u :: later) = earlier ++ r :: s :: rest ∧
    g.answers (before ++ u :: t :: later) = earlier ++ s :: r :: rest

/-- Every operation leaves alone what is not its own, and neighbouring ones of two selections can be swapped if each adds,
deletes or clears. -/
structure Separate (g : SharedScene ι) (turns : List (ι × SelectionOp)) : Prop where
  frame : ∀ before t later, turns = before ++ t :: later → (g.after before).Frame t
  swaps : ∀ before t u later, turns = before ++ t :: u :: later → t.1 ≠ u.1 → t.2.isTagging = true →
    u.2.isTagging = true → g.Swaps before t u later

/-! ### One operation -/

/-- Selections on layers of their own, of which none takes layers of another away. -/
structure Orderly (g : SharedScene ι) : Prop where
  pos : ∀ a, 0 < (g.selection a).layer
  lt : ∀ a, (g.selection a).layer < 32
  distinct : ∀ a b, a ≠ b → (g.selection a).layer ≠ (g.selection b).layer
  calm : Subsingleton ι ∨ ∀ a, (g.selection a).exclusive = false

/-- A selection that has just been made. -/
theorem create_eq_ok {layer : Nat} {s : Selection} (h : Selection.create layer = .ok s) :
    0 < layer ∧ layer < 32 ∧ s = ⟨[], layer, false⟩ := by
  unfold Selection.create at h
  split at h
  · cases h
  · next hlayer =>
    rw [not_or] at hlayer
    exact ⟨Nat.pos_of_ne_zero hlayer.1, Nat.lt_of_not_le hlayer.2, (Except.ok.inj h).symm⟩

section Start

omit [DecidableEq ι]

theorem Fresh.calm (h : g.Fresh) (a : ι) : (g.selection a).exclusive = false := by
  rw [(create_eq_ok (h.created a)).2.2]

theorem Fresh.members (h : g.Fresh) (a : ι) : (g.selection a).members = [] := by
  rw [(create_eq_ok (h.created a)).2.2]

theorem Fresh.orderly (h : g.Fresh) : g.Orderly :=
  ⟨fun a => (create_eq_ok (h.created a)).1, fun a => (create_eq_ok (h.created a)).2.1, h.distinct, .inr h.calm⟩

end Start

theorem selection_act_self (g : SharedScene ι) (t : ι × SelectionOp) :
    (g.act t).2.selection t.1 = (t.2.run (g.selection t.1) g.scene).2.1 := Function.update_self ..

theorem selection_act_of_ne (g : SharedScene ι) (h : a ≠ t.1) : (g.act t).2.selection a = g.selection a :=
  Function.update_of_ne h ..

theorem scene_act (g : SharedScene ι) (t : ι × SelectionOp) :
    (g.act t).2.scene = g.scene.retouch (t.2.retouch (g.selection t.1)) := scene_run ..

theorem layer_act (g : SharedScene ι) (t : ι × SelectionOp) (a : ι) :
    ((g.act t).2.selection a).layer = (g.selection a).layer := by
  by_cases h : a = t.1
  · rw [h, selection_act_self, layer_run]
  · rw [selection_act_of_ne g h]

theorem calm_act (hcalm : ∀ a, (g.selection a).exclusive = false) (ht : t.2 ≠ .setExclusive true) (a : ι) :
    ((g.act t).2.selection a).exclusive = false := by
  by_cases ha : a = t.1
  · rw [ha, selection_act_self]
    exact exclusive_run ht (hcalm _)
  · rw [selection_act_of_ne g ha]
    exact hcalm a

theorem Orderly.act (h : g.Orderly) (ht : Subsingleton ι ∨ t.2 ≠ .setExclusive true) : (g.act t).2.Orderly := by
  refine ⟨fun a => ?_, fun a => ?_, fun a b hab => ?_, ?_⟩
  · rw [layer_act]
    exact h.pos a
  · rw [layer_act]
    exact h.lt a
  · rw [layer_act, layer_act]
    exact h.distinct a b hab
  · rcases ht with ht | ht
    · exact .inl ht
    · exact h.calm.imp_right fun hcalm => calm_act hcalm ht

/-- What an operation does to the layer of a selection: its own operations write it, and those of others do not. -/
theorem Orderly.has_retouch (h : g.Orderly) (t : ι × SelectionOp) (a : ι) (o : Nat) (l : Layers) :
    (t.2.retouch (g.selection t.1) o l).has (g.selection a).layer =
      if a = t.1 ∧ t.2.writes (g.selection t.1) o (g.selection a).layer then t.2.sets
      else l.has (g.selection a).layer := by
  by_cases ha : a = t.1
  · subst ha
    rw [SelectionOp.has_retouch (h.lt _) (.inr rfl)]
    exact if_congr (and_iff_right rfl).symm rfl rfl
  · have hcalm : (g.selection t.1).exclusive = false := by
      rcases h.calm with hone | hcalm
      · exact absurd (Subsingleton.elim a t.1) ha
      · exact hcalm _
    have hnot : ¬ t.2.writes (g.selection t.1) o (g.selection a).layer := by
      intro hw
      rcases layer_of_writes hw with hlayer | hlayer
      · exact h.distinct a t.1 ha hlayer
      · exact Nat.ne_of_gt (h.pos a) hlayer
    rw [SelectionOp.has_retouch (h.lt _) (.inl hcalm), if_neg hnot, if_neg fun hw => ha hw.1]

/-- The members of a selection have its layer. -/
def Tagged (g : SharedScene ι) (a : ι) : Prop :=
  ∀ o ∈ (g.selection a).members, ∀ l, g.scene.get? o = some l → l.has (g.selection a).layer = true

/-- An object does not have the layer of a selection. -/
def Bare (g : SharedScene ι) (a : ι) (o : Nat) : Prop :=
  ∀ l, g.scene.get? o = some l → l.has (g.selection a).layer = false

theorem Tagged.act (tagged : g.Tagged a) (h : g.Orderly) (t : ι × SelectionOp) : (g.act t).2.Tagged a := by
  intro o ho l' hl'
  rw [scene_act, Table.get?_retouch, Option.map_eq_some_iff] at hl'
  obtain ⟨l, hl, rfl⟩ := hl'
  rw [layer_act, h.has_retouch]
  by_cases ha : a = t.1
  · subst ha
    rw [selection_act_self] at ho
    have hmember := writes_of_mem_run (h.pos _) ho
    split at hmember
    · next hw => rw [if_pos ⟨rfl, hw⟩, hmember]
    · next hw => rw [if_neg fun h => hw h.2, tagged o hmember l hl]
  · rw [selection_act_of_ne g ha] at ho
    rw [if_neg fun h => ha h.1, tagged o ho l hl]

theorem Bare.act (bare : g.Bare a o) (h : g.Orderly) (hadd : t ≠ (a, .add o)) : (g.act t).2.Bare a o := by
  intro l' hl'
  rw [scene_act, Table.get?_retouch, Option.map_eq_some_iff] at hl'
  obtain ⟨l, hl, rfl⟩ := hl'
  rw [layer_act, h.has_retouch]
  split
  · next hw =>
    obtain ⟨rfl, hw⟩ := hw
    rw [Bool.eq_false_iff]
    intro hsets
    exact hadd (Prod.ext rfl (eq_add_of_writes (h.pos _) hw hsets))
  · exact bare l hl

theorem bare_of_removes (h : g.Orderly) (hr : op.Removes (g.selection a) g.scene o) : (g.act (a, op)).2.Bare a o := by
  intro l' hl'
  rw [scene_act, Table.get?_retouch, Option.map_eq_some_iff] at hl'
  obtain ⟨l, hl, rfl⟩ := hl'
  obtain ⟨hw, hsets⟩ := writes_of_removes hr
  rw [layer_act, h.has_retouch, if_pos ⟨rfl, hw⟩, hsets]

theorem contains_act (g : SharedScene ι) (t : ι × SelectionOp) (o : Nat) :
    (g.act t).2.scene.contains o = g.scene.contains o := by
  rw [scene_act, Table.contains_retouch]

/-- A selection that takes no layers away writes no other layers than it may. -/
theorem frame_act (h : g.Orderly) (hcalm : ∀ a, (g.selection a).exclusive = false) (t : ι × SelectionOp) :
    g.Frame t := by
  refine ⟨fun a ha => selection_act_of_ne g ha, contains_act g t, fun o l l' hl hl' i hi hne => ?_⟩
  rw [scene_act, Table.get?_retouch, hl] at hl'
  cases hl'
  by_contra hw
  refine hne ?_
  rw [Layers.includes_layer hi, Layers.includes_layer hi, SelectionOp.has_retouch (h.lt _) (.inl (hcalm _)), if_neg hw]

omit [DecidableEq ι] in
/-- Operations of different selections that add, delete or clear write different layers, so what they make of an object
does not depend on which comes first. -/
theorem retouch_comm (h : g.Orderly) (hcalm : ∀ a, (g.selection a).exclusive = false) (hne : t.1 ≠ u.1)
    (ht : t.2.isTagging = true) (hu : u.2.isTagging = true) (o : Nat) (l : Layers) :
    u.2.retouch (g.selection u.1) o (t.2.retouch (g.selection t.1) o l) =
      t.2.retouch (g.selection t.1) o (u.2.retouch (g.selection u.1) o l) := by
  refine Layers.eq_of_has fun i => ?_
  have hput (v : ι × SelectionOp) (k : Layers) := SelectionOp.has_retouch (h.lt v.1) (i := i) (.inl (hcalm v.1)) v.2 o k
  rw [hput u, hput t, hput t, hput u]
  by_cases hwt : t.2.writes (g.selection t.1) o i
  · by_cases hwu : u.2.writes (g.selection u.1) o i
    · exact absurd ((layer_of_tagging ht hwt).symm.trans (layer_of_tagging hu hwu)) (h.distinct _ _ hne)
    · rw [if_neg hwu, if_pos hwt, if_pos hwt]
  · rw [if_neg hwt, if_neg hwt]

/-- Operations of different selections that add, delete or clear, one after the other in either order. -/
theorem act_comm (h : g.Orderly) (hcalm : ∀ a, (g.selection a).exclusive = false) (hne : t.1 ≠ u.1)
    (ht : t.2.isTagging = true) (hu : u.2.isTagging = true) :
    ((g.act t).2.act u).1 = (g.act u).1 ∧ ((g.act t).2.act u).2 = ((g.act u).2.act t).2 := by
  have hother {v w : ι × SelectionOp} (hvw : v.1 ≠ w.1) :
      ((g.act v).2.act w).1 = (g.act w).1 ∧
        ((g.act v).2.act w).2.selection = Function.update (Function.update g.selection v.1
          (v.2.run (g.selection v.1) g.scene).2.1) w.1 (w.2.run (g.selection w.1) g.scene).2.1 := by
    obtain ⟨hanswer, hselection⟩ := run_congr (s := g.selection w.1) (contains_act g v) w.2
    have hs : (g.act v).2.selection w.1 = g.selection w.1 := selection_act_of_ne g hvw.symm
    constructor
    · show (w.2.run ((g.act v).2.selection w.1) (g.act v).2.scene).1 = _
      rw [hs, hanswer]
      rfl
    · show Function.update (g.act v).2.selection w.1 (w.2.run ((g.act v).2.selection w.1) (g.act v).2.scene).2.1 = _
      rw [hs, hselection]
      rfl
  have hscene {v w : ι × SelectionOp} (hvw : v.1 ≠ w.1) : ((g.act v).2.act w).2.scene =
      g.scene.retouch fun o l => w.2.retouch (g.selection w.1) o (v.2.retouch (g.selection v.1) o l) := by
    rw [scene_act, scene_act, Table.retouch_retouch, selection_act_of_ne g hvw.symm]
  refine ⟨(hother hne).1, ?_⟩
  have hselections : ((g.act t).2.act u).2.selection = ((g.act u).2.act t).2.selection := by
    rw [(hother hne).2, (hother hne.symm).2, Function.update_comm hne]
  have hscenes : ((g.act t).2.act u).2.scene = ((g.act u).2.act t).2.scene := by
    rw [hscene hne, hscene hne.symm]
    exact congrArg (Table.retouch · g.scene) (funext fun o => funext fun l => retouch_comm h hcalm hne ht hu o l)
  exact (SharedScene.mk.injEq ..).mpr ⟨hselections, hscenes⟩

/-! ### Any operations -/

theorem after_append (g : SharedScene ι) (before later : List (ι × SelectionOp)) :
    g.after (before ++ later) = (g.after before).after later := List.foldl_append

theorem answers_append (g : SharedScene ι) (before later : List (ι × SelectionOp)) :
    g.answers (before ++ later) = g.answers before ++ (g.after before).answers later := by
  induction before generalizing g with
  | nil => rfl
  | cons t before ih => exact congrArg ((g.act t).1 :: ·) (ih (g.act t).2)

theorem length_answers (g : SharedScene ι) (turns : List (ι × SelectionOp)) : (g.answers turns).length = turns.length := by
  induction turns generalizing g with
  | nil => rfl
  | cons t turns ih => exact congrArg Nat.succ (ih (g.act t).2)

/-- What holds at first, and is kept by each of the operations, holds after them. -/
theorem after_induction {P : SharedScene ι → Prop} (start : P g)
    (step : ∀ k, ∀ t ∈ turns, P k → P (k.act t).2) : P (g.after turns) := by
  induction turns generalizing g with
  | nil => exact start
  | cons t turns ih =>
    exact ih (step g t List.mem_cons_self start) fun k u hu => step k u (List.mem_cons_of_mem t hu)

theorem layer_after (g : SharedScene ι) (turns : List (ι × SelectionOp)) (a : ι) :
    ((g.after turns).selection a).layer = (g.selection a).layer :=
  after_induction (P := fun k => (k.selection a).layer = (g.selection a).layer) rfl fun k t _ h =>
    (layer_act k t a).trans h

theorem Orderly.after (h : g.Orderly) (hturns : Subsingleton ι ∨ ∀ t ∈ turns, t.2 ≠ .setExclusive true) :
    (g.after turns).Orderly :=
  after_induction h fun _ t ht hk => hk.act (hturns.imp_right fun hall => hall t ht)

theorem calm_after (hcalm : ∀ a, (g.selection a).exclusive = false)
    (hturns : ∀ t ∈ turns, t.2 ≠ .setExclusive true) : ∀ a, ((g.after turns).selection a).exclusive = false :=
  after_induction (P := fun k => ∀ a, (k.selection a).exclusive = false) hcalm fun _ t ht hk =>
    calm_act hk (hturns t ht)

theorem Tagged.after (tagged : g.Tagged a) (h : g.Orderly)
    (hturns : Subsingleton ι ∨ ∀ t ∈ turns, t.2 ≠ .setExclusive true) : (g.after turns).Tagged a := by
  refine (after_induction (P := fun k => k.Orderly ∧ k.Tagged a) ⟨h, tagged⟩ fun k t ht hk => ?_).2
  exact ⟨hk.1.act (hturns.imp_right fun hall => hall t ht), hk.2.act hk.1 t⟩

theorem Bare.after (bare : g.Bare a o) (h : g.Orderly)
    (hturns : Subsingleton ι ∨ ∀ t ∈ turns, t.2 ≠ .setExclusive true) (hadd : (a, .add o) ∉ turns) :
    (g.after turns).Bare a o := by
  refine (after_induction (P := fun k => k.Orderly ∧ k.Bare a o) ⟨h, bare⟩ fun k t ht hk => ?_).2
  exact ⟨hk.1.act (hturns.imp_right fun hall => hall t ht), hk.2.act hk.1 fun heq => hadd (heq ▸ ht)⟩

theorem swaps_of_tagging {before later : List (ι × SelectionOp)} (h : (g.after before).Orderly)
    (hcalm : ∀ a, ((g.after before).selection a).exclusive = false) (hne : t.1 ≠ u.1)
    (ht : t.2.isTagging = true) (hu : u.2.isTagging = true) : g.Swaps before t u later := by
  obtain ⟨hanswer, hsame⟩ := act_comm h hcalm hne ht hu
  obtain ⟨hanswer', -⟩ := act_comm h hcalm hne.symm hu ht
  constructor
  · rw [after_append, after_append]
    exact congrArg (SharedScene.after · later) hsame
  · refine ⟨g.answers before, ((g.after before).act t).1, ((g.after before).act u).1,
      (((g.after before).act t).2.act u).2.answers later, length_answers g before, ?_, ?_⟩ <;> rw [answers_append]
    · rw [← hanswer]
      rfl
    · rw [← hanswer', hsame]
      rfl

end SharedScene

open SharedScene in
/-- After any operations of one selection, or of any number of selections on layers of their own that are not exclusive:
what is in a selection has its layer, and what has been taken out does not until it is added again.  Without exclusiveness
an operation writes nothing that is not its own, and operations of different selections that add, delete or clear can be
swapped. -/
theorem tagging_consistent {ι : Type} [DecidableEq ι] {g : SharedScene ι} {turns : List (ι × SelectionOp)}
    (fresh : g.Fresh) (hturns : Subsingleton ι ∨ ∀ t ∈ turns, t.2 ≠ .setExclusive true) :
    g.Consistent turns ∧ ((∀ t ∈ turns, t.2 ≠ .setExclusive true) → g.Separate turns) := by
  have orderly := fresh.orderly
  have hmask (a : ι) (l : Layers) : l.includes (g.selection a).mask = l.has ((g.after turns).selection a).layer := by
    rw [layer_after]
    exact Layers.includes_layer (orderly.lt a) l
  refine ⟨⟨fun a o ho l hl => ?_, fun a o before op later heq hr hadd l hl => ?_⟩, fun hcalm => ⟨?_, ?_⟩⟩
  · have tagged : g.Tagged a := by
      intro o ho
      rw [fresh.members a] at ho
      exact absurd ho List.not_mem_nil
    rw [hmask]
    exact tagged.after orderly hturns o ho l hl
  · rw [hmask]
    subst heq
    have hpart {part : List (ι × SelectionOp)} (hsub : part ⊆ before ++ (a, op) :: later) :=
      hturns.imp_right fun hall t (ht : t ∈ part) => hall t (hsub ht)
    have hbefore : (g.after before).Orderly := orderly.after (hpart (List.subset_append_left _ _))
    have hafter := hbefore.act (t := (a, op)) (hturns.imp_right fun hall => hall _ (by simp))
    have bare := (bare_of_removes hbefore hr).after hafter (hpart (by simp)) hadd
    rw [after_append] at hl ⊢
    exact bare l hl
  · rintro before t later rfl
    have hbefore : ∀ u ∈ before, u.2 ≠ .setExclusive true := fun u hu => hcalm u (List.mem_append_left _ hu)
    exact frame_act (orderly.after (.inr hbefore)) (calm_after fresh.calm hbefore) t
  · rintro before t u later rfl hne ht hu
    have hbefore : ∀ v ∈ before, v.2 ≠ .setExclusive true := fun v hv => hcalm v (List.mem_append_left _ hv)
    exact swaps_of_tagging (orderly.after (.inr hbefore)) (calm_after fresh.calm hbefore) hne ht hu

/-- Two selections on the layers 3 and 5, and a scene with two objects. -/
def shelf : SharedScene Bool :=
  ⟨fun first => ⟨[], if first then 3 else 5, false⟩, ⟨[(1, ⟨0b1⟩), (2, ⟨0b101000⟩)]⟩⟩

/-- Both selections tag the first object, and one of them tags the second for a while. -/
def shelfTurns : List (Bool × SelectionOp) :=
  [(true, .add 1), (false, .add 1), (true, .add 9), (true, .add 2), (true, .setVisible false), (false, .setVisible true),
    (true, .delete 2)]

/-- The layer 3 of the second object, which it had from the start, has been taken away; the first one has both layers. -/
theorem tagging_consistent_shelf : shelf.Fresh ∧ shelf.Consistent shelfTurns ∧ shelf.Separate shelfTurns ∧
    (shelf.after shelfTurns).scene.entries = [(1, ⟨0b101001⟩), (2, ⟨0b100000⟩)] ∧
    shelf.answers shelfTurns = [some true, some true, some false, some true, none, none, some true] := by
  have fresh : shelf.Fresh := ⟨by decide +kernel, by decide +kernel⟩
  have hturns : ∀ t ∈ shelfTurns, t.2 ≠ .setExclusive true := by decide
  obtain ⟨consistent, separate⟩ := tagging_consistent fresh (.inr hturns)
  exact ⟨fresh, consistent, separate hturns, by decide +kernel, by decide +kernel⟩

end ScreenFusion
