import Mathlib.Order.Defs.Unbundled
import ScreenFusion.Proofs.Device.Holdings
import ScreenFusion.Proofs.Pass.EffectHistory

/-!
# ScreenFusion.Proofs.Host.Only — what a host is given, and what stays on its device

A pass gives its host commands of a few kinds, and what none of these writes stays as it is.

* `Act.Confined`: acts whose changes all are of one kind, such as commands to a device that leave the rest alone.
* `Act.Keeping`: changes that keep a property.
* `Command.buffer?`, `Device.plane_setPlane_of_ne`: where a command writes, and that it writes nowhere else.
* `Device.Spares`: a target is still there.
* `Host.Only`: all commands between two states of a host were of one kind; what these do not write is unchanged, and
  what they do not release is there.
* `Host.only_clear`, `Host.only_renderScene`, `Host.only_drawFullscreen`, `Host.only_compileProgram`,
  `Host.only_releaseProgram`: the commands of a frame.
* `Host.Building`: relations that the building of programs keeps to.
* `Staged.Along`: what acts on a host, and a relation of the hosts before and after.
-/

namespace ScreenFusion

/-! ## Acts that are confined to changes of one kind -/

namespace Act

variable {σ α β : Type} {R : σ → σ → Prop}

/-- Whatever the act does to a state is a change of the kind. -/
def Confined (R : σ → σ → Prop) (x : Act σ α) : Prop := ∀ s, R s (x s).2

namespace Confined

theorem attempt {x : Act σ α} (hx : Confined R x) : Confined R (Act.attempt x) := hx

theorem ite {p : Prop} [Decidable p] {x y : Act σ α} (hx : Confined R x) (hy : Confined R y) :
    Confined R (if p then x else y) := by
  split
  · exact hx
  · exact hy

variable [IsPreorder σ R]

theorem pure (a : α) : Confined R (Pure.pure a : Act σ α) := refl_of R

theorem fail (e : Error) : Confined R (Act.fail e : Act σ α) := refl_of R

theorem ofExcept (r : Except Error α) : Confined R (Act.ofExcept r : Act σ α) := refl_of R

theorem bind {x : Act σ α} {f : α → Act σ β} (hx : Confined R x) (hf : ∀ a, Confined R (f a)) :
    Confined R (x >>= f) := by
  intro s
  have h := hx s
  rw [bind_apply]
  rcases hr : x s with ⟨e | a, t⟩ <;> rw [hr] at h
  · exact h
  · exact trans_of R h (hf a t)

end Confined

/-- The second state has a property if the first has it. -/
def Keeping (I : σ → Prop) (s t : σ) : Prop := I s → I t

instance {I : σ → Prop} : IsPreorder σ (Keeping I) where
  refl _ := id
  trans _ _ _ h h' := h' ∘ h

end Act

/-! ## Where commands write -/

namespace Command

/-- Of the buffers that there are before a command, the one that it changes; the screen is `none`. -/
def buffer? : Command → Option (Option Nat)
  | setOutputSize .. => some none
  | resizeTarget t .. | releaseTarget t => some (some t)
  | clear t .. => some t
  | renderScene d => some d.target
  | drawFullscreen d => some d.output
  | createTarget _ | compileProgram .. | releaseProgram _ => none

/-- Whether the command makes or releases a program. -/
def isAboutProgram : Command → Bool
  | compileProgram .. | releaseProgram _ => true
  | _ => false

theorem buffer?_of_isAboutProgram {c : Command} (h : c.isAboutProgram = true) : c.buffer? = none := by
  cases c <;> first | rfl | cases h

end Command

namespace Device

variable {α β : Type} {b target : Option Nat}

theorem plane_setPlane_of_ne (hb : b ≠ target) (d : Device) (p : Plane) :
    (d.setPlane target p).plane b = d.plane b := by
  cases target with
  | none =>
    cases b with
    | none => exact absurd rfl hb
    | some n => rfl
  | some t =>
    cases b with
    | none => rfl
    | some n =>
      have hn : n ≠ t := fun h => hb (congrArg some h)
      unfold plane setPlane
      dsimp only
      rw [Table.get?_insert, if_neg hn]

open Act

/-! ### Operations that write one plane -/

section Writing

variable {R : Device → Device → Prop} [IsPreorder Device R]

theorem confined_findPlane (t : Option Nat) : Confined R (findPlane t) := .bind (refl_of _) fun _ => .ofExcept _

theorem confined_clear
    (hw : ∀ p f, Confined R (Act.modify fun d : Device => (d.setPlane target p).count f))
    (color : Option (Rgba Float32)) (depth : Option Float32) : Confined R (clear target color depth) :=
  .bind (confined_findPlane target) fun _ => hw _ _

theorem confined_renderScene {draw : SceneDraw}
    (hw : ∀ p f, Confined R (Act.modify fun d : Device => (d.setPlane draw.target p).count f)) :
    Confined R (renderScene draw) := by
  refine .bind (refl_of _) fun d => ?_
  cases d.scenes.get? draw.scene with
  | none => exact .fail _
  | some scene =>
    refine .bind (confined_findPlane draw.target) fun p => ?_
    cases draw.mode with
    | color => exact hw _ _
    | depth => exact .bind (.ite (.pure ()) (.fail _)) fun _ => hw _ _

theorem confined_drawFullscreen {draw : FullscreenDraw}
    (hw : ∀ p f, Confined R (Act.modify fun d : Device => (d.setPlane draw.output p).count f)) :
    Confined R (drawFullscreen draw) := by
  have find : Confined R (findProgram draw.program) := by
    refine .bind (refl_of _) fun d => ?_
    cases d.programs.get? draw.program with
    | none => exact .fail _
    | some p => exact .pure p
  have bound (t : Option Nat) : Confined R (findBound t) := by
    cases t with
    | none => exact .pure none
    | some t => exact .bind (confined_findPlane (some t)) fun p => .pure (some p)
  refine .bind find fun program => ?_
  cases unpackBlock? program.kinds draw.block with
  | none => exact .fail _
  | some values =>
    exact .bind (bound draw.input) fun _ => .bind (bound draw.depth) fun _ =>
      .bind (confined_findPlane draw.output) fun _ => hw _ _

end Writing

/-! ### Planes that stay -/

/-- The buffer is the same on both devices. -/
def SamePlane (b : Option Nat) (d d' : Device) : Prop := d'.plane b = d.plane b

instance : IsPreorder Device (SamePlane b) where
  refl _ := rfl
  trans _ _ _ h h' := Eq.trans h' h

/-- Another plane in the place of one, and a count. -/
theorem samePlane_write (hb : b ≠ target) (p : Plane) (f : Stats → Stats) :
    Confined (SamePlane b) (Act.modify fun d : Device => (d.setPlane target p).count f) := fun d =>
  plane_setPlane_of_ne hb d p

theorem samePlane_clear (hb : b ≠ target) (color : Option (Rgba Float32)) (depth : Option Float32) :
    Confined (SamePlane b) (clear target color depth) := confined_clear (samePlane_write hb) color depth

theorem samePlane_renderScene {draw : SceneDraw} (hb : b ≠ draw.target) :
    Confined (SamePlane b) (renderScene draw) := confined_renderScene (samePlane_write hb)

theorem samePlane_drawFullscreen {draw : FullscreenDraw} (hb : b ≠ draw.output) :
    Confined (SamePlane b) (drawFullscreen draw) := confined_drawFullscreen (samePlane_write hb)

theorem samePlane_compileProgram (source : ProgramSource) : Confined (SamePlane b) (compileProgram source) := by
  intro d
  unfold compileProgram
  rw [Act.bind_of_ok (Act.get_apply d)]
  cases d.programFault? source <;> exact refl_of (SamePlane b) d

theorem samePlane_releaseProgram (program : Nat) (d : Device) : SamePlane b d (releaseProgram program d).2 := by
  unfold releaseProgram
  split <;> exact refl_of (SamePlane b) d

/-! ### Targets that stay -/

/-- The numbers of the second device are in order and it has a target, if that is so of the first. -/
def Spares (n : Nat) (d d' : Device) : Prop := d.Numbered → n ∈ d.targets.keys → d'.Numbered ∧ n ∈ d'.targets.keys

variable {n : Nat}

instance : IsPreorder Device (Spares n) where
  refl _ := And.intro
  trans _ _ _ h h' := fun numbered live => h' (h numbered live).1 (h numbered live).2

theorem SameHandles.spares {d d' : Device} (h : d.Numbered → SameHandles d d') : Spares n d d' := fun numbered live =>
  ⟨(h numbered).numbered numbered, (h numbered).targets ▸ live⟩

theorem Steady.spares {x : Act Device α} (hx : Steady x) : Confined (Spares n) x := fun d => SameHandles.spares (hx d)

theorem Makes.spares {one : Nat → Holdings} {x : Act Device Nat} (hx : Makes one x) : Confined (Spares n) x := by
  intro d numbered live
  have hmade := hx d numbered
  rcases hr : x d with ⟨e | id, d'⟩ <;> rw [hr] at hmade
  · rw [show d' = d from hmade]
    exact ⟨numbered, live⟩
  · obtain ⟨numbered', hlive⟩ := hmade
    have htargets : (d'.targets.keys : Multiset Nat) = (one id).1 + d.targets.keys := congrArg Prod.fst hlive
    refine ⟨numbered', ?_⟩
    rw [← Multiset.mem_coe, htargets]
    exact Multiset.mem_add.2 (.inr (Multiset.mem_coe.2 live))

theorem spares_releaseTarget {t : Nat} (hn : n ≠ t) (d : Device) : Spares n d (releaseTarget t d).2 := by
  intro numbered live
  unfold releaseTarget
  by_cases ht : d.targets.contains t = true
  · rw [if_pos ht]
    refine ⟨⟨numbered.targets.erase ((d.targets.contains_iff_mem_keys t).1 ht), numbered.programs⟩, ?_⟩
    show n ∈ (d.targets.erase t).keys
    rw [Table.keys_erase]
    exact List.mem_filter.2 ⟨live, decide_eq_true hn⟩
  · rw [if_neg ht]
    exact ⟨numbered, live⟩

theorem spares_releaseProgram (program : Nat) (d : Device) : Spares n d (releaseProgram program d).2 := by
  intro numbered live
  unfold releaseProgram
  by_cases hp : d.programs.contains program = true
  · rw [if_pos hp]
    exact ⟨⟨numbered.targets, numbered.programs.erase ((d.programs.contains_iff_mem_keys program).1 hp)⟩, live⟩
  · rw [if_neg hp]
    exact ⟨numbered, live⟩

end Device

/-! ## Commands of one kind -/

namespace Host

variable {Q Q' : Command → Prop} {h k l : Host}

/-- The device after a command is as it was, or what the device makes of it. -/
theorem device_issue {α : Type} (command : Command) (answer : α → Answer) (run : Act Device α) (h : Host) :
    (issue command answer run h).2.device = h.device ∨ (issue command answer run h).2.device = (run h.device).2 := by
  unfold issue
  rcases countDown command.name h.armed with ⟨fires, armed⟩
  cases fires with
  | true => exact .inl rfl
  | false =>
    simp only [Bool.false_eq_true, if_false]
    rcases run h.device with ⟨e | a, d⟩ <;> exact .inr rfl

/-- All commands between two states of a host were of a kind.  What no command of the kind writes is unchanged, and a
target that none releases is there if it was. -/
structure Only (Q : Command → Prop) (h k : Host) : Prop where
  calls : ∃ calls events, h.Advanced calls events k ∧ ∀ c ∈ calls, Q c.command
  planes : ∀ b, (∀ c, Q c → c.buffer? ≠ some b) → k.device.plane b = h.device.plane b
  spares : ∀ n, (∀ c, Q c → c ≠ .releaseTarget n) → h.device.Spares n k.device

namespace Only

theorem refl (h : Host) : h.Only Q h := by
  refine ⟨⟨[], [], .refl h, ?_⟩, fun _ _ => rfl, fun _ _ => refl_of _ _⟩
  exact fun c hc => absurd hc List.not_mem_nil

theorem trans (hk : h.Only Q k) (kl : k.Only Q l) : h.Only Q l := by
  obtain ⟨calls, events, adv, hcalls⟩ := hk.calls
  obtain ⟨calls', events', adv', hcalls'⟩ := kl.calls
  refine ⟨⟨_, _, adv.trans adv', ?_⟩, fun b hb => (kl.planes b hb).trans (hk.planes b hb),
    fun n hn => trans_of _ (hk.spares n hn) (kl.spares n hn)⟩
  intro c hc
  rcases List.mem_append.1 hc with hc | hc
  · exact hcalls c hc
  · exact hcalls' c hc

theorem weaken (hk : h.Only Q k) (hq : ∀ c, Q c → Q' c) : h.Only Q' k := by
  obtain ⟨calls, events, adv, hcalls⟩ := hk.calls
  exact ⟨⟨calls, events, adv, fun c hc => hq _ (hcalls c hc)⟩, fun b hb => hk.planes b fun c hc => hb c (hq c hc),
    fun n hn => hk.spares n fun c hc => hn c (hq c hc)⟩

theorem report (h : Host) (events : List Event) : h.Only Q (h.report events) := by
  refine ⟨⟨[], events, advanced_report h events, ?_⟩, fun _ _ => rfl, fun _ _ => refl_of _ _⟩
  exact fun c hc => absurd hc List.not_mem_nil

theorem issuedSince (hk : h.Only Q k) : ∀ c ∈ h.issuedSince k, Q c.command := by
  obtain ⟨calls, events, adv, hcalls⟩ := hk.calls
  rw [adv.issuedSince_eq]
  exact hcalls

end Only

theorem spares_issue {α : Type} (command : Command) (answer : α → Answer) {run : Act Device α} {n : Nat}
    (hrun : Act.Confined (Device.Spares n) run) (h : Host) :
    h.device.Spares n (issue command answer run h).2.device := by
  rcases device_issue command answer run h with hd | hd <;> rw [hd]
  · exact refl_of _ _
  · exact hrun h.device

/-- A command of the kind that changes only what it writes, and releases no target. -/
theorem only_issue {α : Type} {command : Command} (answer : α → Answer) {run : Act Device α} (hq : Q command)
    (hrun : ∀ b, command.buffer? ≠ some b → Act.Confined (Device.SamePlane b) run)
    (hspares : ∀ n, Act.Confined (Device.Spares n) run) : Act.Confined (Only Q) (issue command answer run) := by
  intro h
  refine ⟨⟨_, _, advanced_issue command answer run h, ?_⟩, fun b hb => ?_, fun n _ => ?_⟩
  · rintro c hc
    rw [List.mem_singleton.1 hc]
    exact hq
  · rcases device_issue command answer run h with hd | hd <;> rw [hd]
    exact hrun b (hb command hq) h.device
  · exact spares_issue command answer (hspares n) h

theorem only_clear {target : Option Nat} {color : Option (Rgba Float32)} {depth : Option Float32}
    (hq : Q (.clear target color depth)) : Act.Confined (Only Q) (clear target color depth) :=
  only_issue _ hq (fun _ hb => Device.samePlane_clear (fun h => hb (congrArg some h.symm)) color depth)
    fun _ => (Device.steady_clear target color depth).spares

theorem only_renderScene {draw : SceneDraw} (hq : Q (.renderScene draw)) :
    Act.Confined (Only Q) (renderScene draw) :=
  only_issue _ hq (fun _ hb => Device.samePlane_renderScene fun h => hb (congrArg some h.symm))
    fun _ => (Device.steady_renderScene draw).spares

theorem only_drawFullscreen {draw : FullscreenDraw} (hq : Q (.drawFullscreen draw)) :
    Act.Confined (Only Q) (drawFullscreen draw) :=
  only_issue _ hq (fun _ hb => Device.samePlane_drawFullscreen fun h => hb (congrArg some h.symm))
    fun _ => (Device.steady_drawFullscreen draw).spares

theorem only_compileProgram {source : ProgramSource}
    (hq : Q (.compileProgram source.label (source.slots.map Prod.fst))) :
    Act.Confined (Only Q) (compileProgram source) :=
  only_issue _ hq (fun _ _ => Device.samePlane_compileProgram source) fun _ =>
    (Device.makes_compileProgram source).spares

theorem only_releaseProgram {program : Nat} (hq : Q (.releaseProgram program)) (h : Host) :
    h.Only Q (h.releaseProgram program).2 := by
  obtain ⟨found, adv⟩ := advanced_releaseProgram h program
  refine ⟨⟨_, _, adv, ?_⟩, fun b _ => Device.samePlane_releaseProgram program h.device,
    fun n _ => Device.spares_releaseProgram program h.device⟩
  rintro c hc
  rw [List.mem_singleton.1 hc]
  exact hq

instance : IsPreorder Host (Only Q) where
  refl := Only.refl
  trans _ _ _ := Only.trans

/-- Reports, and commands that make or release a program, keep to the relation. -/
structure Building (R : Host → Host → Prop) : Prop where
  report : ∀ h events, R h (h.report events)
  compile : ∀ source, Act.Confined R (compileProgram source)
  release : ∀ program h, R h (h.releaseProgram program).2

theorem building_only : Building (Only (·.isAboutProgram = true)) :=
  ⟨Only.report, fun _ => only_compileProgram rfl, fun _ => only_releaseProgram rfl⟩

end Host

/-! ## What acts on a host -/

namespace Staged

variable {P α : Type} {Q : Command → Prop} {s : Staged P}

section Along

variable {R : Host → Host → Prop}

/-- The hosts are related. -/
def Along (R : Host → Host → Prop) (s t : Staged P) : Prop := R s.host t.host

instance [IsPreorder Host R] : IsPreorder (Staged P) (Along R) where
  refl s := refl_of R s.host
  trans _ _ _ := trans_of R

theorem along_get [IsPreorder Host R] : Act.Confined (Along R) (get : Act (Staged P) P) := refl_of (Along R)

theorem along_device [IsPreorder Host R] : Act.Confined (Along R) (device : Act (Staged P) Device) := refl_of (Along R)

theorem along_modify [IsPreorder Host R] (f : P → P) : Act.Confined (Along R) (modify f) := fun s => refl_of R s.host

theorem along_report (hr : ∀ h events, R h (h.report events)) (events : List Event) :
    Act.Confined (Along R) (report events : Act (Staged P) Unit) := fun s => hr s.host events

theorem along_onHost {x : Act Host α} (hx : Act.Confined R x) :
    Act.Confined (Along R) (onHost x : Act (Staged P) α) := fun s => hx s.host

theorem along_release {x : Host → Bool × Host} (hx : ∀ h : Host, R h (x h).2) :
    Act.Confined (Along R) (release x : Act (Staged P) Bool) := fun s => hx s.host

end Along

/-- The host of the second has been given commands of a kind only. -/
def Only (Q : Command → Prop) (s t : Staged P) : Prop := s.host.Only Q t.host

instance : IsPreorder (Staged P) (Only Q) := inferInstanceAs (IsPreorder (Staged P) (Along (Host.Only Q)))

theorem only_get : Act.Confined (Only Q) (get : Act (Staged P) P) := refl_of (Only Q)

theorem only_modify (f : P → P) : Act.Confined (Only Q) (modify f) := along_modify f

theorem only_onHost {x : Act Host α} (hx : Act.Confined (Host.Only Q) x) :
    Act.Confined (Only Q) (onHost x : Act (Staged P) α) := along_onHost hx

end Staged

end ScreenFusion
