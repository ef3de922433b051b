import Mathlib.Algebra.BigOperators.Group.Multiset.Basic
import Mathlib.Algebra.Group.Prod
import ScreenFusion.Host

/-!
# ScreenFusion.Proofs.Device.Holdings — the targets and programs that a device has made and not released

What is held of a device is a pair of bags of numbers: targets and programs.  A device numbers what it makes upwards, so
that a new number is in no bag.  A command that makes something adds its number, a release takes one out, and no other
command changes the bags.

* `Table.Numbered`, `Device.Numbered`: the numbers ascend, are below the next one, and are counted.
* `Device.Steady`: operations that make and release nothing.
* `Host.Holds`: what a host holds, and that every release on it so far has found its target or program.
* `Host.Holds.createTarget`, `Host.Holds.releaseTarget`, `Host.Holds.issue`: what commands do to that.
-/

namespace ScreenFusion

/-! ## Numbers in a table -/

namespace Table

variable {α : Type} {t : Table α} {key next made released : Nat}

/-- The numbers that have values, in order. -/
def keys (t : Table α) : List Nat := t.entries.map Prod.fst

@[simp] theorem keys_empty : (empty : Table α).keys = [] := rfl

theorem isSome_lookup_iff (entries : List (Nat × α)) (key : Nat) :
    (entries.lookup key).isSome = true ↔ key ∈ entries.map Prod.fst := by
  induction entries with
  | nil => simp
  | cons e es ih =>
    rw [lookup_cons, List.map_cons, List.mem_cons]
    by_cases h : key = e.1
    · simp [h]
    · rw [if_neg h, ih]
      simp [h]

theorem contains_iff_mem_keys (t : Table α) (key : Nat) : t.contains key = true ↔ key ∈ t.keys :=
  isSome_lookup_iff t.entries key

theorem mem_keys_of_get? {value : α} (h : t.get? key = some value) : key ∈ t.keys :=
  (t.contains_iff_mem_keys key).1 (by rw [contains, h]; rfl)

/-- A number above all others comes last. -/
theorem keys_insert_of_lt (h : ∀ k ∈ t.keys, k < key) (value : α) : (t.insert key value).keys = t.keys ++ [key] := by
  obtain ⟨entries⟩ := t
  unfold keys insert at *
  dsimp only at h ⊢
  induction entries with
  | nil => rfl
  | cons e es ih =>
    have he : e.1 < key := h e.1 List.mem_cons_self
    rw [insertIn, if_neg (by omega), if_neg (by omega), List.map_cons, ih fun k hk => h k (List.mem_cons_of_mem _ hk)]
    rfl

/-- A number that has a value gets no second one. -/
theorem keys_insert_of_mem (hs : t.keys.Pairwise (· < ·)) (h : key ∈ t.keys) (value : α) :
    (t.insert key value).keys = t.keys := by
  obtain ⟨entries⟩ := t
  unfold keys insert at *
  dsimp only at hs h ⊢
  induction entries with
  | nil => cases h
  | cons e es ih =>
    obtain ⟨hhead, htail⟩ := List.pairwise_cons.1 hs
    rw [insertIn]
    rcases List.mem_cons.1 h with rfl | h
    · rw [if_neg (Nat.lt_irrefl _), if_pos rfl]
      rfl
    · have he : e.1 < key := hhead key h
      rw [if_neg (by omega), if_neg (by omega), List.map_cons, ih htail h]
      rfl

theorem keys_erase (t : Table α) (key : Nat) : (t.erase key).keys = t.keys.filter (· ≠ key) := by
  unfold keys erase
  dsimp only
  rw [List.filter_map]
  rfl

/-- The numbers ascend, are below the next one, and are those made and not released. -/
structure Numbered (t : Table α) (next made released : Nat) : Prop where
  ascend : t.keys.Pairwise (· < ·)
  below : ∀ id ∈ t.keys, id < next
  counted : made = released + t.keys.length

namespace Numbered

theorem empty (next : Nat) : (Table.empty : Table α).Numbered next 0 0 := ⟨.nil, (fun _ h => nomatch h), rfl⟩

theorem nodup (n : t.Numbered next made released) : t.keys.Nodup := n.ascend.imp Nat.ne_of_lt

theorem mono (n : t.Numbered next made released) {next' : Nat} (h : next ≤ next') : t.Numbered next' made released :=
  ⟨n.ascend, fun id hid => Nat.lt_of_lt_of_le (n.below id hid) h, n.counted⟩

theorem insert (n : t.Numbered next made released) (value : α) :
    (t.insert next value).Numbered (next + 1) (made + 1) released := by
  refine ⟨?_, ?_, ?_⟩ <;> rw [keys_insert_of_lt n.below]
  · rw [List.pairwise_append]
    refine ⟨n.ascend, List.pairwise_singleton _ _, ?_⟩
    intro a ha b hb
    rw [List.mem_singleton.1 hb]
    exact n.below a ha
  · intro id hid
    rcases List.mem_append.1 hid with hid | hid
    · exact Nat.lt_succ_of_lt (n.below id hid)
    · rw [List.mem_singleton.1 hid]
      exact Nat.lt_succ_self _
  · rw [List.length_append, n.counted]
    rfl

theorem keys_insert (n : t.Numbered next made released) (value : α) :
    ((t.insert next value).keys : Multiset Nat) = {next} + t.keys := by
  rw [keys_insert_of_lt n.below, ← Multiset.coe_add, add_comm]
  rfl

theorem keys_erase (n : t.Numbered next made released) (h : key ∈ t.keys) :
    (t.keys : Multiset Nat) = {key} + (t.erase key).keys := by
  have hperm : t.keys.Perm (key :: (t.erase key).keys) := by
    rw [Table.keys_erase]
    have herase : t.keys.erase key = t.keys.filter (· ≠ key) := by
      rw [n.nodup.erase_eq_filter]
      refine List.filter_congr fun x _ => ?_
      simp [bne, BEq.beq]
    exact herase ▸ List.perm_cons_erase h
  rw [Multiset.singleton_add]
  exact Multiset.coe_eq_coe.2 hperm

theorem erase (n : t.Numbered next made released) (h : key ∈ t.keys) :
    (t.erase key).Numbered next made (released + 1) := by
  have hcard := congrArg Multiset.card (n.keys_erase h)
  rw [Multiset.card_add, Multiset.card_singleton, Multiset.coe_card, Multiset.coe_card] at hcard
  have hcounted := n.counted
  refine ⟨?_, ?_, by omega⟩ <;> rw [Table.keys_erase]
  · exact n.ascend.filter _
  · exact fun id hid => n.below id (List.mem_of_mem_filter hid)

end Numbered

end Table

/-! ## Devices -/

/-- Bags of targets and of programs. -/
abbrev Holdings := Multiset Nat × Multiset Nat

namespace Holdings

/-- One target. -/
def target (id : Nat) : Holdings := ({id}, 0)

/-- One program. -/
def program (id : Nat) : Holdings := (0, {id})

theorem sub_zero (a : Holdings) : a - 0 = a := Prod.ext (tsub_zero _) (tsub_zero _)

theorem add_sub_cancel (a b : Holdings) : a + b - a = b := Prod.ext (add_tsub_cancel_left _ _) (add_tsub_cancel_left _ _)

end Holdings

namespace Device

variable {α β : Type} {d d' d'' : Device}

/-- The targets and programs that have been made and not released. -/
def live (d : Device) : Holdings := (d.targets.keys, d.programs.keys)

/-- The numbers of targets and of programs are in order. -/
structure Numbered (d : Device) : Prop where
  targets : d.targets.Numbered d.nextId d.stats.targetsCreated d.stats.targetsReleased
  programs : d.programs.Numbered d.nextId d.stats.programsCompiled d.stats.programsReleased

theorem numbered_create (width height : Nat) (unsupported : List Precision) (checksText : Bool) :
    (create width height unsupported checksText).Numbered := ⟨.empty 1, .empty 1⟩

/-- The second device has made and released nothing more than the first. -/
structure SameHandles (d d' : Device) : Prop where
  targets : d'.targets.keys = d.targets.keys
  programs : d'.programs.keys = d.programs.keys
  nextId : d.nextId ≤ d'.nextId
  targetsCreated : d'.stats.targetsCreated = d.stats.targetsCreated
  targetsReleased : d'.stats.targetsReleased = d.stats.targetsReleased
  programsCompiled : d'.stats.programsCompiled = d.stats.programsCompiled
  programsReleased : d'.stats.programsReleased = d.stats.programsReleased

namespace SameHandles

theorem refl (d : Device) : SameHandles d d := ⟨rfl, rfl, Nat.le_refl _, rfl, rfl, rfl, rfl⟩

theorem trans (h : SameHandles d d') (h' : SameHandles d' d'') : SameHandles d d'' :=
  ⟨h'.targets.trans h.targets, h'.programs.trans h.programs, Nat.le_trans h.nextId h'.nextId,
    h'.targetsCreated.trans h.targetsCreated, h'.targetsReleased.trans h.targetsReleased,
    h'.programsCompiled.trans h.programsCompiled, h'.programsReleased.trans h.programsReleased⟩

/-- Counts of other things may change. -/
theorem count (h : SameHandles d d') {f : Stats → Stats}
    (hf : ∀ s, (f s).targetsCreated = s.targetsCreated ∧ (f s).targetsReleased = s.targetsReleased ∧
      (f s).programsCompiled = s.programsCompiled ∧ (f s).programsReleased = s.programsReleased) :
    SameHandles d (d'.count f) := by
  obtain ⟨h1, h2, h3, h4⟩ := hf d'.stats
  exact ⟨h.targets, h.programs, h.nextId, h1.trans h.targetsCreated, h2.trans h.targetsReleased,
    h3.trans h.programsCompiled, h4.trans h.programsReleased⟩

theorem live_eq (h : SameHandles d d') : d'.live = d.live := by
  unfold live
  rw [h.targets, h.programs]

theorem numbered (h : SameHandles d d') (n : d.Numbered) : d'.Numbered := by
  refine ⟨⟨?_, ?_, ?_⟩, ⟨?_, ?_, ?_⟩⟩
  · exact h.targets ▸ n.targets.ascend
  · exact h.targets ▸ (n.targets.mono h.nextId).below
  · rw [h.targetsCreated, h.targetsReleased, h.targets, n.targets.counted]
  · exact h.programs ▸ n.programs.ascend
  · exact h.programs ▸ (n.programs.mono h.nextId).below
  · rw [h.programsCompiled, h.programsReleased, h.programs, n.programs.counted]

end SameHandles

/-! ### Operations that make and release nothing -/

/-- An operation that makes and releases nothing. -/
def Steady (x : Act Device α) : Prop := ∀ d, d.Numbered → SameHandles d (x d).2

namespace Steady

theorem of_unchanged {x : Act Device α} (h : ∀ d, (x d).2 = d) : Steady x := by
  intro d _
  rw [h]
  exact .refl d

theorem bind {x : Act Device α} {f : α → Act Device β} (hx : Steady x) (hf : ∀ a, Steady (f a)) :
    Steady (x >>= f) := by
  intro d n
  have hd := hx d n
  rw [Act.bind_apply]
  rcases hr : x d with ⟨e | a, d'⟩
  · rw [hr] at hd
    exact hd
  · rw [hr] at hd
    exact hd.trans (hf a d' (hd.numbered n))

end Steady

theorem sameHandles_require (condition : Bool) (e : Error) {f : Unit → Act Device α}
    (h : SameHandles d (f () d).2) : SameHandles d ((Act.require condition e >>= f) d).2 := by
  cases condition with
  | true => exact h
  | false => exact .refl d

/-- Another plane in the place of one that is there. -/
theorem sameHandles_setPlane (n : d.Numbered) {target : Option Nat} {p : Plane} (h : d.plane target = .ok p)
    (q : Plane) : SameHandles d (d.setPlane target q) := by
  cases target with
  | none => exact ⟨rfl, rfl, Nat.le_refl _, rfl, rfl, rfl, rfl⟩
  | some t =>
    have hmem : t ∈ d.targets.keys := by
      unfold plane at h
      cases hget : d.targets.get? t with
      | none =>
        simp only [hget] at h
        cases h
      | some _ => exact Table.mem_keys_of_get? hget
    exact ⟨Table.keys_insert_of_mem n.targets.ascend hmem q, rfl, Nat.le_refl _, rfl, rfl, rfl, rfl⟩

/-- An operation that writes a plane and counts that. -/
theorem sameHandles_write (n : d.Numbered) {target : Option Nat} {p : Plane} (h : d.plane target = .ok p) (q : Plane)
    {f : Stats → Stats}
    (hf : ∀ s, (f s).targetsCreated = s.targetsCreated ∧ (f s).targetsReleased = s.targetsReleased ∧
      (f s).programsCompiled = s.programsCompiled ∧ (f s).programsReleased = s.programsReleased) :
    SameHandles d (Act.modify (fun d => (d.setPlane target q).count f) d).2 :=
  (sameHandles_setPlane n h q).count hf

theorem steady_findPlane {target : Option Nat} {f : Plane → Act Device α}
    (hf : ∀ p d, d.Numbered → d.plane target = .ok p → SameHandles d (f p d).2) : Steady (findPlane target >>= f) := by
  intro d n
  unfold findPlane
  rw [Act.bind_apply, Act.bind_of_ok (Act.get_apply d)]
  cases hp : d.plane target with
  | error e => exact .refl d
  | ok p => exact hf p d n hp

theorem steady_setOutputSize (width height : Nat) : Steady (setOutputSize width height) := by
  intro d _
  refine sameHandles_require _ _ ?_
  rw [Act.modify_apply]
  dsimp only
  split
  · exact .refl d
  · exact ⟨rfl, rfl, Nat.le_refl _, rfl, rfl, rfl, rfl⟩

theorem steady_resizeTarget (target width height : Nat) : Steady (resizeTarget target width height) := fun _ n =>
  sameHandles_require _ _ (steady_findPlane (fun _ _ n hp => sameHandles_setPlane n hp _) _ n)

theorem steady_clear (target : Option Nat) (color : Option (Rgba Float32)) (depth : Option Float32) :
    Steady (clear target color depth) :=
  steady_findPlane fun _ _ n hp => sameHandles_write n hp _ fun _ => ⟨rfl, rfl, rfl, rfl⟩

theorem steady_upload (target : Option Nat) (pixels : List (Rgba Float32)) : Steady (upload target pixels) :=
  steady_findPlane fun _ _ n hp => sameHandles_require _ _ (sameHandles_setPlane n hp _)

theorem steady_renderScene (draw : SceneDraw) : Steady (renderScene draw) := by
  refine .bind (.of_unchanged fun _ => rfl) fun d => ?_
  cases d.scenes.get? draw.scene with
  | none => exact .of_unchanged fun _ => rfl
  | some scene =>
    refine steady_findPlane fun p d n hp => ?_
    cases draw.mode with
    | color => exact sameHandles_write n hp _ fun _ => ⟨rfl, rfl, rfl, rfl⟩
    | depth => exact sameHandles_require _ _ (sameHandles_write n hp _ fun _ => ⟨rfl, rfl, rfl, rfl⟩)

theorem steady_drawFullscreen (draw : FullscreenDraw) : Steady (drawFullscreen draw) := by
  have bound (target : Option Nat) : Steady (findBound target) := by
    cases target with
    | none => exact .of_unchanged fun _ => rfl
    | some t => exact steady_findPlane fun _ d _ _ => .refl d
  refine .bind (.of_unchanged fun d => ?_) fun program => ?_
  · unfold findProgram
    rw [Act.bind_of_ok (Act.get_apply d)]
    cases d.programs.get? draw.program <;> rfl
  · cases unpackBlock? program.kinds draw.block with
    | none => exact .of_unchanged fun _ => rfl
    | some values =>
      exact .bind (bound _) fun _ => .bind (bound _) fun _ => steady_findPlane fun _ _ n hp =>
        sameHandles_write n hp _ fun _ => ⟨rfl, rfl, rfl, rfl⟩

theorem sameHandles_addScene (scene : Scene) (d : Device) : SameHandles d (addScene scene d).2 :=
  ⟨rfl, rfl, Nat.le_succ _, rfl, rfl, rfl, rfl⟩

theorem sameHandles_removeScene (scene : Nat) (d : Device) : SameHandles d (removeScene scene d).2 :=
  ⟨rfl, rfl, Nat.le_refl _, rfl, rfl, rfl, rfl⟩

/-! ### Operations that make or release something -/

/-- An operation whose result is the number of something that it makes, and that else leaves the device as it is. -/
def Makes (one : Nat → Holdings) (x : Act Device Nat) : Prop :=
  ∀ d, d.Numbered → match x d with
    | (.ok id, d') => d'.Numbered ∧ d'.live = one id + d.live
    | (.error _, d') => d' = d

theorem makes_createTarget (spec : TargetSpec) : Makes Holdings.target (createTarget spec) := by
  intro d n
  unfold createTarget checkSize
  rw [Act.bind_apply]
  cases 0 < spec.width && 0 < spec.height with
  | false => rfl
  | true =>
    show match (Act.require (d.supports spec.precision) _ >>= _ : Act Device Nat) d with
      | (.ok id, d') => d'.Numbered ∧ d'.live = Holdings.target id + d.live
      | (.error _, d') => d' = d
    rw [Act.bind_apply]
    cases d.supports spec.precision with
    | false => rfl
    | true =>
      refine ⟨⟨n.targets.insert _, n.programs.mono (Nat.le_succ _)⟩, ?_⟩
      exact Prod.ext (n.targets.keys_insert _) (zero_add _).symm

theorem makes_compileProgram (source : ProgramSource) : Makes Holdings.program (compileProgram source) := by
  intro d n
  unfold compileProgram
  rw [Act.bind_of_ok (Act.get_apply d)]
  cases d.programFault? source with
  | some cause => rfl
  | none =>
    refine ⟨⟨n.targets.mono (Nat.le_succ _), n.programs.insert _⟩, ?_⟩
    exact Prod.ext (zero_add _).symm (n.programs.keys_insert _)

/-- An operation that releases what is there. -/
def Releases (one : Holdings) (x : Device → Bool × Device) : Prop :=
  ∀ d rest, d.Numbered → d.live = one + rest → (x d).1 = true ∧ (x d).2.Numbered ∧ (x d).2.live = rest

theorem releases_releaseTarget (id : Nat) : Releases (Holdings.target id) (releaseTarget id) := by
  rintro d ⟨targets, programs⟩ n hlive
  obtain ⟨ht, hp⟩ := Prod.ext_iff.1 hlive
  have ht : (d.targets.keys : Multiset Nat) = {id} + targets := ht
  have hp : (d.programs.keys : Multiset Nat) = 0 + programs := hp
  have hmem : id ∈ d.targets.keys := by
    rw [← Multiset.mem_coe, ht]
    exact Multiset.mem_add.2 (.inl (Multiset.mem_singleton_self id))
  unfold releaseTarget
  rw [if_pos ((d.targets.contains_iff_mem_keys id).2 hmem)]
  refine ⟨rfl, ⟨n.targets.erase hmem, n.programs⟩, Prod.ext ?_ (hp.trans (zero_add _))⟩
  have herase := n.targets.keys_erase hmem
  rw [ht] at herase
  exact (add_left_cancel herase).symm

/-- After a release there is what there was but for the target, whether that was there or not. -/
theorem live_releaseTarget (n : d.Numbered) (id : Nat) : (releaseTarget id d).2.live = d.live - .target id := by
  have programs : (d.programs.keys : Multiset Nat) = d.programs.keys - 0 := (tsub_zero _).symm
  cases hc : d.targets.contains id with
  | true =>
    have hmem : id ∈ d.targets.keys := (d.targets.contains_iff_mem_keys id).1 hc
    unfold releaseTarget
    rw [if_pos hc]
    refine Prod.ext ?_ programs
    have hkeys : (d.targets.keys : Multiset Nat) = {id} + ((d.targets.erase id).keys : Multiset Nat) :=
      n.targets.keys_erase hmem
    show ((d.targets.erase id).keys : Multiset Nat) = (d.targets.keys : Multiset Nat) - {id}
    rw [hkeys, add_tsub_cancel_left]
  | false =>
    have hmem : id ∉ (d.targets.keys : Multiset Nat) := fun hin =>
      Bool.false_ne_true (hc.symm.trans ((d.targets.contains_iff_mem_keys id).2 hin))
    unfold releaseTarget
    rw [if_neg (by simp [hc])]
    refine Prod.ext ?_ programs
    show (d.targets.keys : Multiset Nat) = (d.targets.keys : Multiset Nat) - {id}
    rw [Multiset.sub_singleton, Multiset.erase_of_notMem hmem]

theorem releases_releaseProgram (id : Nat) : Releases (Holdings.program id) (releaseProgram id) := by
  rintro d ⟨targets, programs⟩ n hlive
  obtain ⟨ht, hp⟩ := Prod.ext_iff.1 hlive
  have ht : (d.targets.keys : Multiset Nat) = 0 + targets := ht
  have hp : (d.programs.keys : Multiset Nat) = {id} + programs := hp
  have hmem : id ∈ d.programs.keys := by
    rw [← Multiset.mem_coe, hp]
    exact Multiset.mem_add.2 (.inl (Multiset.mem_singleton_self id))
  unfold releaseProgram
  rw [if_pos ((d.programs.contains_iff_mem_keys id).2 hmem)]
  refine ⟨rfl, ⟨n.targets, n.programs.erase hmem⟩, Prod.ext (ht.trans (zero_add _)) ?_⟩
  have herase := n.programs.keys_erase hmem
  rw [hp] at herase
  exact (add_left_cancel herase).symm

end Device

/-! ## Hosts -/

namespace Host

variable {α : Type} {h : Host} {m : Holdings}

/-- What the device of a host has made and not released; every release so far has found what it was to release. -/
structure Holds (h : Host) (m : Holdings) : Prop where
  numbered : h.device.Numbered
  live : h.device.live = m
  found : ∀ c ∈ h.calls, c.answer ≠ .released false

/-- A call is recorded; the device has what it has. -/
theorem Holds.recordCall (hm : h.Holds m) {d : Device} {m' : Holdings} (n : d.Numbered) (hd : d.live = m')
    (armed : List ArmedFailure) (command : Command) {answer : Answer} (ha : answer ≠ .released false) :
    (({ h with device := d, armed } : Host).recordCall command answer).Holds m' := by
  refine ⟨n, hd, ?_⟩
  intro c hc
  rcases Array.mem_push.1 hc with hc | rfl
  · exact hm.found c hc
  · exact ha

theorem Holds.report (hm : h.Holds m) (events : List Event) : (h.report events).Holds m :=
  ⟨hm.numbered, hm.live, hm.found⟩

/-- An act of a host that makes and releases nothing. -/
def Steady (x : Act Host α) : Prop := ∀ h m, h.Holds m → (x h).2.Holds m

/-- A command that makes and releases nothing, whether it fails or not. -/
theorem steady_issue (command : Command) {answer : α → Answer} {run : Act Device α} (hr : Device.Steady run)
    (ha : ∀ a, answer a ≠ .released false) : Steady (issue command answer run) := by
  intro h m hm
  have hd := hr h.device hm.numbered
  have hlive := hd.live_eq.trans hm.live
  unfold issue
  rcases countDown command.name h.armed with ⟨fires, armed⟩
  cases fires with
  | true => exact hm.recordCall hm.numbered hm.live armed command (by simp)
  | false =>
    simp only [Bool.false_eq_true, if_false]
    rcases hx : run h.device with ⟨e | a, d⟩ <;> rw [hx] at hd hlive
    · exact hm.recordCall (hd.numbered hm.numbered) hlive armed command (by simp)
    · exact hm.recordCall (hd.numbered hm.numbered) hlive armed command (ha a)

theorem steady_setOutputSize (width height : Nat) : Steady (setOutputSize width height) :=
  steady_issue _ (Device.steady_setOutputSize width height) fun _ => nofun

theorem steady_resizeTarget (target width height : Nat) : Steady (resizeTarget target width height) :=
  steady_issue _ (Device.steady_resizeTarget target width height) fun _ => nofun

theorem steady_clear (target : Option Nat) (color : Option (Rgba Float32)) (depth : Option Float32) :
    Steady (clear target color depth) := steady_issue _ (Device.steady_clear target color depth) fun _ => nofun

theorem steady_renderScene (draw : SceneDraw) : Steady (renderScene draw) :=
  steady_issue _ (Device.steady_renderScene draw) fun _ => nofun

theorem steady_drawFullscreen (draw : FullscreenDraw) : Steady (drawFullscreen draw) :=
  steady_issue _ (Device.steady_drawFullscreen draw) fun _ => nofun

/-- A command that makes something: what is held after it. -/
theorem Holds.issue (hm : h.Holds m) (command : Command) {one : Nat → Holdings} {run : Act Device Nat}
    (hr : Device.Makes one run) : match Host.issue command .handle run h with
      | (.ok id, k) => k.Holds (one id + m)
      | (.error _, k) => k.Holds m := by
  have hd := hr h.device hm.numbered
  unfold Host.issue
  rcases countDown command.name h.armed with ⟨fires, armed⟩
  cases fires with
  | true => exact hm.recordCall hm.numbered hm.live armed command (by simp)
  | false =>
    simp only [Bool.false_eq_true, if_false]
    rcases hx : run h.device with ⟨e | id, d⟩ <;> rw [hx] at hd
    · subst hd
      exact hm.recordCall hm.numbered hm.live armed command (by simp)
    · exact hm.recordCall hd.1 (hm.live ▸ hd.2) armed command (by simp)

theorem Holds.createTarget (hm : h.Holds m) (spec : TargetSpec) : match Host.createTarget spec h with
    | (.ok id, k) => k.Holds (.target id + m)
    | (.error _, k) => k.Holds m := hm.issue _ (Device.makes_createTarget spec)

theorem Holds.compileProgram (hm : h.Holds m) (source : ProgramSource) : match Host.compileProgram source h with
    | (.ok id, k) => k.Holds (.program id + m)
    | (.error _, k) => k.Holds m := hm.issue _ (Device.makes_compileProgram source)

/-- A command that was to make something and has failed leaves the device as it was. -/
theorem device_of_issue_error {command : Command} {one : Nat → Holdings} {run : Act Device Nat} {h k : Host} {e : Error}
    (hr : Device.Makes one run) (n : h.device.Numbered) (hi : issue command .handle run h = (.error e, k)) :
    k.device = h.device := by
  have hmade := hr h.device n
  unfold issue at hi
  rcases hc : countDown command.name h.armed with ⟨fires, armed⟩
  rw [hc] at hi
  cases fires with
  | true =>
    cases hi
    rfl
  | false =>
    simp only [Bool.false_eq_true, if_false] at hi
    rcases hx : run h.device with ⟨e | id, d⟩ <;> rw [hx] at hi hmade
    · cases hi
      exact hmade
    · cases hi

/-- A release of something that is held finds it. -/
theorem Holds.issueRelease {one : Holdings} (hm : h.Holds (one + m)) (command : Command)
    {run : Device → Bool × Device} (hr : Device.Releases one run) : (h.issueRelease command run).2.Holds m := by
  obtain ⟨hfound, n, hlive⟩ := hr h.device m hm.numbered hm.live
  refine hm.recordCall n hlive h.armed command ?_
  rw [hfound]
  simp

theorem Holds.releaseTarget {id : Nat} (hm : h.Holds (.target id + m)) : (h.releaseTarget id).2.Holds m :=
  hm.issueRelease _ (Device.releases_releaseTarget id)

theorem Holds.releaseProgram {id : Nat} (hm : h.Holds (.program id + m)) : (h.releaseProgram id).2.Holds m :=
  hm.issueRelease _ (Device.releases_releaseProgram id)

end Host

end ScreenFusion
