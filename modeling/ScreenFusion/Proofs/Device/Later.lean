import ScreenFusion.Proofs.Device.Draw
import ScreenFusion.Proofs.Host.Only

/-!
# ScreenFusion.Proofs.Device.Later — what the number of a program stands for

A device gives out each number once.  So whatever is done with it, a number that has been given to a program stands for
that program as long as there is anything under it.

* `Device.Later`: what else may become of a device.
* `Device.Knows`: a number stands for the program of a source, if it stands for anything.
* `Device.knows_of_compileProgram_ok`: a program that is made is known.
* `Host.Later`, `Host.building_later`: the commands of a host.
-/

namespace ScreenFusion

open Act

/-- What a device keeps of a program with a source. -/
def ProgramSource.program (s : ProgramSource) : Program := ⟨s.label, s.stages, s.kinds, s.forcesAlpha⟩

namespace Device

variable {d d' d'' : Device} {n : Nat} {source : ProgramSource}

/-- The second device has come from the first: what it has under a number that had been given out, the first had. -/
structure Later (d d' : Device) : Prop where
  nextId : d.nextId ≤ d'.nextId
  programs : ∀ n < d.nextId, ∀ p, d'.programs.get? n = some p → d.programs.get? n = some p

instance : IsPreorder Device Later where
  refl _ := ⟨Nat.le_refl _, fun _ _ _ => id⟩
  trans _ _ _ h h' := by
    refine ⟨Nat.le_trans h.nextId h'.nextId, fun n hn p hp => ?_⟩
    exact h.programs n hn p (h'.programs n (Nat.lt_of_lt_of_le hn h.nextId) p hp)

theorem Keeps.later (k : Keeps d d') : Later d d' :=
  ⟨k.nextId, fun n hn p hp => by rwa [← k.programs n hn]⟩

theorem later_of_programs_eq (hp : d'.programs = d.programs) (hn : d.nextId ≤ d'.nextId) : Later d d' :=
  ⟨hn, fun _ _ _ h => by rwa [← hp]⟩

/-- The number has been given out, and stands for the program of a source, if it stands for anything. -/
structure Knows (d : Device) (n : Nat) (source : ProgramSource) : Prop where
  given : n < d.nextId
  found : ∀ p, d.programs.get? n = some p → p = source.program

theorem Knows.later (k : d.Knows n source) (l : Later d d') : d'.Knows n source :=
  ⟨Nat.lt_of_lt_of_le k.given l.nextId, fun p hp => k.found p (l.programs n k.given p hp)⟩

/-! ## Operations -/

theorem setPlane_nextId (d : Device) (target : Option Nat) (p : Plane) : (d.setPlane target p).nextId = d.nextId := by
  cases target <;> rfl

theorem later_setPlane (target : Option Nat) (p : Plane) :
    Confined Later (Act.modify fun d : Device => d.setPlane target p) := fun d =>
  later_of_programs_eq (setPlane_programs d target p) (Nat.le_of_eq (setPlane_nextId d target p).symm)

theorem later_write (target : Option Nat) (p : Plane) (f : Stats → Stats) :
    Confined Later (Act.modify fun d : Device => (d.setPlane target p).count f) := fun d =>
  have l := later_setPlane target p d
  ⟨l.nextId, l.programs⟩

theorem later_require (condition : Bool) (e : Error) : Confined Later (Act.require condition e) :=
  .ite (.pure ()) (.fail e)

theorem later_setOutputSize (width height : Nat) : Confined Later (setOutputSize width height) := by
  refine .bind (later_require _ _) fun _ d => ?_
  rw [Act.modify_apply]
  dsimp only
  split
  · exact refl_of Later d
  · exact later_of_programs_eq rfl (Nat.le_refl _)

theorem later_createTarget (spec : TargetSpec) : Confined Later (createTarget spec) := by
  have numbered : Confined Later takeId := fun d => later_of_programs_eq rfl (Nat.le_succ d.nextId)
  exact .bind (later_require _ _) fun _ => .bind (refl_of Later) fun d => .bind (later_require _ _) fun _ =>
    .bind numbered fun _ => .bind (fun _ => later_of_programs_eq rfl (Nat.le_refl _)) fun _ => .pure _

theorem later_resizeTarget (target width height : Nat) : Confined Later (resizeTarget target width height) :=
  .bind (later_require _ _) fun _ => .bind (confined_findPlane _) fun _ => later_setPlane _ _

theorem later_upload (target : Option Nat) (pixels : List (Rgba Float32)) : Confined Later (upload target pixels) :=
  .bind (confined_findPlane target) fun _ => .bind (later_require _ _) fun _ => later_setPlane target _

theorem later_releaseTarget (target : Nat) (d : Device) : Later d (releaseTarget target d).2 := by
  unfold releaseTarget
  split
  · exact later_of_programs_eq rfl (Nat.le_refl _)
  · exact refl_of Later d

theorem later_compileProgram (source : ProgramSource) : Confined Later (compileProgram source) := by
  intro d
  rcases hc : compileProgram source d with ⟨e | id, d'⟩
  · unfold compileProgram at hc
    rw [Act.bind_of_ok (Act.get_apply d)] at hc
    cases hf : d.programFault? source <;> rw [hf] at hc <;> cases hc
    exact refl_of Later d
  · exact (keeps_of_compileProgram_ok hc).later

theorem later_releaseProgram (program : Nat) (d : Device) : Later d (releaseProgram program d).2 := by
  unfold releaseProgram
  split
  · refine ⟨Nat.le_refl _, fun n _ p hp => ?_⟩
    have hp : (d.programs.erase program).get? n = some p := hp
    rw [Table.get?_erase] at hp
    by_cases hn : n = program
    · rw [if_pos hn] at hp
      cases hp
    · rwa [if_neg hn] at hp
  · exact refl_of Later d

/-- A program that is made is known, under a number that had not been given out. -/
theorem knows_of_compileProgram_ok (h : compileProgram source d = (.ok n, d')) : n = d.nextId ∧ d'.Knows n source := by
  obtain ⟨hn, hnext, hprograms⟩ := compileProgram_ok h
  refine ⟨hn, by omega, fun p hp => ?_⟩
  rw [hprograms, hn, Table.get?_insert, if_pos rfl] at hp
  exact (Option.some.inj hp).symm

end Device

/-! ## Hosts -/

namespace Host

/-- The device of the second host has come from that of the first. -/
def Later (h k : Host) : Prop := h.device.Later k.device

instance : IsPreorder Host Later where
  refl h := refl_of Device.Later h.device
  trans _ _ _ := trans_of Device.Later

variable {α : Type} {h k : Host}

theorem later_report (h : Host) (events : List Event) : h.Later (h.report events) := refl_of Later h

theorem later_issue (command : Command) (answer : α → Answer) {run : Act Device α} (hr : Confined Device.Later run) :
    Confined Later (issue command answer run) := by
  intro h
  unfold Later
  rcases device_issue command answer run h with hd | hd <;> rw [hd]
  · exact refl_of Device.Later h.device
  · exact hr h.device

theorem later_drawFullscreen (draw : FullscreenDraw) : Confined Later (drawFullscreen draw) :=
  later_issue _ _ (Device.confined_drawFullscreen (Device.later_write draw.output))

theorem later_clear (target : Option Nat) (color : Option (Rgba Float32)) (depth : Option Float32) :
    Confined Later (clear target color depth) := later_issue _ _ (Device.confined_clear (Device.later_write target) _ _)

theorem later_renderScene (draw : SceneDraw) : Confined Later (renderScene draw) :=
  later_issue _ _ (Device.confined_renderScene (Device.later_write draw.target))

/-- The building of programs leaves a number what it stood for. -/
theorem building_later : Building Later :=
  ⟨later_report, fun source => later_issue _ _ (Device.later_compileProgram source),
    fun program h => Device.later_releaseProgram program h.device⟩

/-- A program that is made is known, under a number that had not been given out. -/
theorem knows_of_compileProgram_ok {source : ProgramSource} {n : Nat}
    (hc : compileProgram source h = (.ok n, k)) : n = h.device.nextId ∧ k.device.Knows n source :=
  Device.knows_of_compileProgram_ok (run_of_issue_ok hc)

end Host

end ScreenFusion
