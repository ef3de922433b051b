import ScreenFusion.Proofs.Pipeline.DepthSupply
import ScreenFusion.Proofs.Pipeline.HandOff
import ScreenFusion.Proofs.Pipeline.Roster

/-!
# ScreenFusion.Proofs.Pipeline.Admission — which passes a pipeline takes, and what becomes of those that it does not

A pipeline takes every pass that can be set up.  A pass that has been disposed of is turned away only if it draws depth.
One of another kind becomes a member: if it runs a program no frame succeeds as long as it is enabled, and else it draws
as before.  A live pipeline releases what a pass that it turns away has; one that has been disposed of does not.

* `render_of_disposed`: frames with a pass that has been disposed of.
* `disposed_refused_iff`: adding such a pass.
* `surplus_fitOut`: what a pass gets while it is set up.
* `rejected_clean_iff`: what a pipeline releases of a pass that it turns away.
-/

namespace ScreenFusion

open Act (Confined)

open Fusion Holder Staged

/-! ## Passes that have been disposed of -/

/-- If a pass that has been disposed of can be made ready, it runs no program, and stays as it is. -/
theorem Pass.Rebuilt.eq_of_disposed {p q : Pass} (r : p.Rebuilt q) (ready : q.builder.Ready) (hd : disposed p = true) :
    p.options? = none ∧ q = p := by
  have live {b : Bool} (hlive : b = false) (hb : b = true) : False := Bool.false_ne_true (hlive.symm.trans hb)
  cases r with
  | same =>
    cases p with
    | material p => exact (live ready.live hd).elim
    | effect p => exact (live ready.live hd).elim
    | _ => exact ⟨rfl, rfl⟩
  | effect p compiled programVersion => exact (live ready.live hd).elim
  | material p c => exact (live ready.live hd).elim

namespace Pipeline

variable {e : PipelineEntry} {s t : Staged Pipeline} {deltaTime : Binary32} {pass : Pass} {h k : Host}

/-- A frame with an enabled pass that has been disposed of fails if the pass runs a program, and else, if it succeeds,
runs the pass if that draws colours. -/
theorem render_of_disposed (he : e ∈ s.stage.entries) (henabled : e.pass.isEnabled = true)
    (hd : disposed e.pass = true) (hr : render deltaTime s = (.ok (), t)) :
    e.pass.options? = none ∧ ∃ turns, Performs deltaTime s t turns ∧
      (e.pass.presents = true → ∃ u ∈ turns, u.pass = e.pass) := by
  obtain ⟨turns, performs⟩ := performs_of_render_ok hr
  have frame := performs
  obtain ⟨read, write, ready, host, f, -, hprepare, plays⟩ := frame
  have made := (readies_of_prepareEntries hprepare).madeReady
  obtain ⟨e', he', m⟩ := exists_mem_of_forall₂ made he
  cases m with
  | disabled hdisabled => exact absurd (henabled.symm.trans hdisabled) Bool.true_eq_false.mp
  | @ready q _ rebuilt hready =>
    obtain ⟨hoptions, rfl⟩ := rebuilt.eq_of_disposed hready hd
    refine ⟨hoptions, turns, performs, fun hpresents => ?_⟩
    have hmem : e.pass ∈ (ready.filter isPresenter).map (·.pass) :=
      List.mem_map.2 ⟨e, List.mem_filter.2 ⟨he', by rw [isPresenter, henabled, hpresents]; rfl⟩, rfl⟩
    rw [← plays.presenters] at hmem
    obtain ⟨u, hu, hpass⟩ := List.mem_map.1 hmem
    exact ⟨u, List.mem_of_mem_filter hu, hpass⟩

theorem addPass_of_kind (hlive : s.stage.isDisposed = false) (hk : pass.isDepthProducer = false)
    (index : Option Nat) : ∃ pass' place, place ≤ s.stage.entries.length ∧ disposed pass' = disposed pass ∧
      (pass'.options? = pass.options?.map fun _ => s.stage.setup.options) ∧ pass'.isDepthProducer = false ∧
      (addPass pass index s).1 = .ok s.stage.nextPass ∧
      (addPass pass index s).2.stage = { s.stage with
        entries := s.stage.entries.insertIdx place ⟨s.stage.nextPass, pass'⟩
        nextPass := s.stage.nextPass + 1 } := by
  obtain ⟨q, hfit⟩ := fitOut_ok hk s.stage.setup s.stage.size s.host
  have fitted := fitOut_eq s.stage.setup s.stage.size pass s.host
  rw [hfit] at fitted
  rw [addPass_eq]
  cases hb : s.stage.buffers with
  | none =>
    rw [isDisposed, hb] at hlive
    cases hlive
  | some buffers =>
    dsimp only
    rw [hfit]
    exact ⟨q, _, Nat.min_le_right _ _, fitted.1, fitted.2.2, fitted.2.1.trans hk, rfl, rfl⟩

/-- A depth pass that has been disposed of is turned away, and nothing happens. -/
theorem addPass_of_disposed {p : DepthPass} (hlive : s.stage.isDisposed = false) (hd : p.disposed = true)
    (index : Option Nat) : addPass (.depth p) index s = (.error (.resource (.disposedPass DepthPass.name)), s) := by
  have hfit : fitOut s.stage.setup s.stage.size ⟨.depth p, s.host⟩ =
      (.error (.resource (.disposedPass DepthPass.name)), ⟨.depth p, s.host⟩) := by
    have hconfigure : Pass.configure s.stage.setup ⟨.depth p, s.host⟩ =
        (.error (.resource (.disposedPass DepthPass.name)), ⟨.depth p, s.host⟩) := by
      show Pass.within .depth p DepthPass.configure ⟨.depth p, s.host⟩ = _
      rw [Pass.within, DepthPass.configure_of_disposed hd]
    unfold fitOut
    rw [Act.bind_of_error hconfigure]
  rw [addPass_eq]
  cases hb : s.stage.buffers with
  | none =>
    rw [isDisposed, hb] at hlive
    cases hlive
  | some buffers =>
    dsimp only
    rw [hfit]
    have hd : disposed (Pass.depth p) = true := hd
    dsimp only
    rw [Pass.dispose_of_disposed hd]

/-- A live pipeline turns a pass that has been disposed of away, for a resource and with its passes as they were, exactly
if that is a depth pass.  One of another kind gets the next number, and stays a member that has been disposed of through
any uses that spare it.  As long as it is enabled, no frame succeeds if it runs a program, and else each frame that
succeeds runs it. -/
theorem disposed_refused_iff (used : Used s) (hlive : s.stage.isDisposed = false) (hd : disposed pass = true)
    (index : Option Nat) :
    let r := addPass pass index s
    ((∃ cause, r.1 = .error (.resource cause)) ∧ r.2.stage.entries = s.stage.entries ↔ pass.isDepthProducer = true) ∧
    (pass.isDepthProducer = true → r = (.error (.resource (.disposedPass DepthPass.name)), s)) ∧
    (pass.isDepthProducer = false → r.1 = .ok s.stage.nextPass ∧
      ∀ ops : List PipelineOp, (∀ op ∈ ops, op.Spares s.stage.nextPass) →
        ∃ e ∈ (after ops r.2).stage.entries, e.id = s.stage.nextPass ∧ disposed e.pass = true ∧
          (e.pass.isEnabled = true → ∀ deltaTime t, render deltaTime (after ops r.2) = (.ok (), t) →
            pass.options? = none ∧ ∃ turns, Performs deltaTime (after ops r.2) t turns ∧
              ∃ u ∈ turns, u.pass = e.pass)) := by
  dsimp only
  cases hk : pass.isDepthProducer with
  | true =>
    cases pass with
    | depth p =>
      rw [addPass_of_disposed hlive hd]
      exact ⟨⟨fun _ => rfl, fun _ => ⟨⟨_, rfl⟩, rfl⟩⟩, fun _ => rfl, nofun⟩
    | _ => cases hk
  | false =>
    obtain ⟨pass', place, hplace, hdisposed, hoptions, hkind, hok, hstage⟩ := addPass_of_kind hlive hk index
    refine ⟨⟨?_, nofun⟩, nofun, fun _ => ⟨hok, fun ops spares => ?_⟩⟩
    · rintro ⟨⟨cause, herror⟩, -⟩
      cases hok.symm.trans herror
    · have tallied : Tallied (addPass pass index s).2.stage :=
        (rosterStep_addPass pass index s).tallied used.tallied
      have hmem : (⟨s.stage.nextPass, pass'⟩ : PipelineEntry) ∈ (addPass pass index s).2.stage.entries := by
        rw [hstage]
        exact (List.mem_insertIdx hplace).2 (.inl rfl)
      obtain ⟨e, he, persists⟩ := exists_entry_after tallied hmem spares
      have hd' : disposed e.pass = true := persists.lasting.disposed.trans (hdisposed.trans hd)
      refine ⟨e, he, persists.id, hd', fun henabled deltaTime t hr => ?_⟩
      obtain ⟨hnone, turns, performs, hturn⟩ := render_of_disposed he henabled hd' hr
      refine ⟨?_, turns, performs, hturn ?_⟩
      · rw [persists.lasting.options, hoptions, Option.map_eq_none_iff] at hnone
        exact hnone
      · have hkind : e.pass.isDepthProducer = false := persists.lasting.kind.trans hkind
        rw [Pass.presents, hkind]
        rfl

/-- A pass with a program that has been disposed of. -/
def worn : Pass := .material { MaterialPass.create fog with disposed := true }

/-- It becomes the first pass of a pipeline, of which no frame succeeds then. -/
theorem disposed_refused_worn : (addPass worn none (onScene [])).1 = .ok 1 ∧
    ∀ deltaTime t, render deltaTime (addPass worn none (onScene [])).2 ≠ (.ok (), t) := by
  have used : Used (onScene []) := used_onScene (List.forall_mem_nil _)
  have hlive : (onScene []).stage.isDisposed = false := by decide +kernel
  have hnext : (onScene []).stage.nextPass = 1 := by decide +kernel
  have henabled : ∀ e ∈ (addPass worn none (onScene [])).2.stage.entries, e.pass.isEnabled = true := by decide +kernel
  have hworn : disposed worn = true := rfl
  obtain ⟨-, -, admitted⟩ := disposed_refused_iff used hlive hworn none
  obtain ⟨hok, member⟩ := admitted rfl
  obtain ⟨e, he, -, -, fails⟩ := member [] (List.forall_mem_nil _)
  refine ⟨hnext ▸ hok, fun deltaTime t hr => ?_⟩
  obtain ⟨hnone, -⟩ := fails (henabled e he) deltaTime t hr
  cases hnone

/-- A pass that a pipeline has removed, and so disposed of, becomes a member again, and the next frame fails. -/
theorem removed_readmitted : ∃ pass s, removePass 1 (onScene [.material (MaterialPass.create fog)]) = (.ok (some pass), s) ∧
    s.stage.isDisposed = false ∧ disposed pass = true ∧ s.stage.entries = [] ∧ (addPass pass none s).1 = .ok 2 ∧
    (addPass pass none s).2.stage.entries.length = 1 ∧
    (render .zero (addPass pass none s).2).1.toOption = none := by
  let r := removePass 1 (onScene [.material (MaterialPass.create fog)])
  have hremoved : r.1.toOption.join.map disposed = some true := by decide +kernel
  have hlive : r.2.stage.isDisposed = false := by decide +kernel
  have hempty : r.2.stage.entries.isEmpty = true := by decide +kernel
  have hagain : (addPass (r.1.toOption.join.getD default) none r.2).1.toOption = some 2 := by decide +kernel
  have hlength : (addPass (r.1.toOption.join.getD default) none r.2).2.stage.entries.length = 1 := by decide +kernel
  have hfails : (render .zero (addPass (r.1.toOption.join.getD default) none r.2).2).1.toOption = none := by
    decide +kernel
  rcases hr : r with ⟨e | _ | pass, s⟩ <;> rw [hr] at hremoved hlive hempty hagain hlength hfails
  · cases hremoved
  · cases hremoved
  · refine ⟨pass, s, hr, hlive, Option.some.inj hremoved, List.isEmpty_iff.1 hempty, ?_, hlength, hfails⟩
    show (addPass pass none s).1 = .ok 2
    rcases ha : (addPass pass none s).1 with e | id
    · cases (congrArg Except.toOption ha).symm.trans hagain
    · cases (congrArg Except.toOption ha).symm.trans hagain
      rfl

end Pipeline

/-! ## Passes that are turned away -/

namespace Host

/-- The device of the second host has what that of the first has. -/
def Settled (h k : Host) : Prop := h.device.Numbered → h.device.SameHandles k.device

instance : IsPreorder Host Settled where
  refl h _ := .refl h.device
  trans _ _ _ hk kl n := (hk n).trans (kl ((hk n).numbered n))

theorem settled_resizeTarget (target width height : Nat) : Confined Settled (resizeTarget target width height) := by
  intro h n
  rcases device_issue (.resizeTarget target width height) (fun _ : Unit => .done)
    (Device.resizeTarget target width height) h with hd | hd
  · exact hd ▸ .refl h.device
  · exact hd ▸ Device.steady_resizeTarget target width height h.device n

end Host

/-- What is there beside what the stage holds. -/
def Staged.surplus {P : Type} [Holder P] (s : Staged P) : Holdings := s.host.device.live - holdings s.stage

namespace DepthPass

variable {p : DepthPass} {h : Host}

theorem holdings_of_target {n : Nat} (ht : p.target = some n) : holdings p = .target n := by
  show ((p.target.toList : Multiset Nat), (0 : Multiset Nat)) = _
  rw [ht]
  rfl

theorem holdings_of_no_target (ht : p.target = none) : holdings p = 0 := holdings_of_none ht rfl

/-- A pass has no more beside what others have, whether it is set up or not. -/
theorem surplus_configure (n : h.device.Numbered) :
    let t := (configure ⟨p, h⟩).2
    t.host.device.Numbered ∧ t.surplus = (⟨p, h⟩ : Staged DepthPass).surplus ∧ t.stage.disposed = p.disposed := by
  have out := configured_configure p h
  rcases hc : configure ⟨p, h⟩ with ⟨r, t⟩
  rw [hc] at out
  dsimp only at out ⊢
  cases out with
  | disposed _ => exact ⟨n, rfl, rfl⟩
  | kept _ _ => exact ⟨n, rfl, rfl⟩
  | refused _ ht hmade =>
    have hdevice := Host.device_of_issue_error (Device.makes_createTarget _) n hmade
    have hnone : (p.based h.device).target = none := ht
    refine ⟨hdevice ▸ n, ?_, rfl⟩
    unfold surplus
    rw [hdevice, holdings_of_no_target hnone, holdings_of_no_target ht]
  | @allocated target k events _ ht hmade =>
    have made := Device.makes_createTarget (p.based h.device).spec h.device n
    rw [Host.run_of_issue_ok hmade] at made
    refine ⟨made.1, ?_, rfl⟩
    show k.device.live - holdings { p.based h.device with target := some target } = h.device.live - holdings p
    rw [made.2, holdings_of_target rfl, holdings_of_no_target ht, Holdings.add_sub_cancel, Holdings.sub_zero]

theorem surplus_resize (n : h.device.Numbered) (width height : Nat) :
    let t := (resize width height ⟨p, h⟩).2
    t.host.device.Numbered ∧ t.surplus = (⟨p, h⟩ : Staged DepthPass).surplus ∧ t.stage.disposed = p.disposed := by
  have c := conserves_resize width height ⟨p, h⟩
  have settled : h.Settled (resize width height ⟨p, h⟩).2.host :=
    along_resize (fun _ _ n => .refl _) (fun _ _ _ _ _ => Host.settled_resizeTarget _ _ _) width height ⟨p, h⟩
  have same := settled n
  refine ⟨same.numbered n, ?_, c.disposed⟩
  unfold surplus
  have hholdings : holdings (resize width height ⟨p, h⟩).2.stage = holdings p := by
    unfold holdings
    rw [c.target]
    rfl
  rw [same.live_eq, hholdings]

/-- A live pass that is disposed of leaves what is there beside it. -/
theorem live_dispose (n : h.device.Numbered) (hd : p.disposed = false) :
    (dispose ⟨p, h⟩).2.host.device.live = (⟨p, h⟩ : Staged DepthPass).surplus := by
  unfold dispose surplus
  rw [Act.bind_of_ok (get_apply _), if_neg (by simp [hd])]
  cases ht : p.target with
  | none =>
    rw [holdings_of_no_target ht]
    exact (Holdings.sub_zero _).symm
  | some target =>
    rw [holdings_of_target ht]
    exact Device.live_releaseTarget n target

end DepthPass

namespace Pipeline

variable {s t : Staged Pipeline} {pass : Pass} {index : Option Nat} {e : Error}

/-- What a depth pass that is to be added gets is its own, also if that fails, and it is as live as it was. -/
theorem surplus_fitOut {p : DepthPass} {h : Host} (n : h.device.Numbered) (setup : Setup) (size : Nat × Nat) :
    ∃ q k, (fitOut setup size ⟨.depth p, h⟩).2 = ⟨.depth q, k⟩ ∧ k.device.Numbered ∧
      (⟨q, k⟩ : Staged DepthPass).surplus = (⟨p, h⟩ : Staged DepthPass).surplus ∧ q.disposed = p.disposed := by
  have configured := DepthPass.surplus_configure (p := p) n
  have hconfigure : Pass.configure setup ⟨.depth p, h⟩ = Pass.within .depth p DepthPass.configure ⟨.depth p, h⟩ := rfl
  unfold fitOut
  rw [Act.bind_apply, hconfigure, Pass.within]
  rcases hc : DepthPass.configure ⟨p, h⟩ with ⟨e | _, q, k⟩ <;> rw [hc] at configured
  · exact ⟨q, k, rfl, configured⟩
  · have resized := DepthPass.surplus_resize (p := q) configured.1 size.1 size.2
    refine ⟨_, _, rfl, resized.1, resized.2.1.trans configured.2.1, resized.2.2.trans configured.2.2⟩

/-- A live pipeline turns only depth passes away, and releases what one has got and had. -/
theorem addPass_error_of_live (numbered : s.host.device.Numbered) (used : Pass.Used ⟨pass, s.host⟩)
    (hlive : s.stage.isDisposed = false) (hr : addPass pass index s = (.error e, t)) :
    t.stage = s.stage ∧ pass.isDepthProducer = true ∧ t.host.device.live = s.host.device.live - holdings pass := by
  have hkind : pass.isDepthProducer = true := by
    cases hk : pass.isDepthProducer with
    | true => rfl
    | false =>
      obtain ⟨_, _, -, -, -, -, hok, -⟩ := addPass_of_kind hlive hk index
      cases hok.symm.trans (congrArg Prod.fst hr)
  cases pass with
  | depth p =>
    cases hd : p.disposed with
    | true =>
      -- such a pass holds nothing and gets nothing
      have hnone : holdings (Pass.depth p) = 0 := used.holdings_eq_zero hd
      rw [addPass_of_disposed hlive hd] at hr
      cases hr
      exact ⟨rfl, rfl, by rw [hnone, Holdings.sub_zero]⟩
    | false =>
      obtain ⟨q, k, hfit, n, hsurplus, hdisposed⟩ := surplus_fitOut (p := p) numbered s.stage.setup s.stage.size
      rw [addPass_eq] at hr
      cases hb : s.stage.buffers with
      | none =>
        rw [isDisposed, hb] at hlive
        cases hlive
      | some buffers =>
        rw [hb] at hr
        dsimp only at hr
        rcases hf : fitOut s.stage.setup s.stage.size ⟨.depth p, s.host⟩ with ⟨e' | _, u⟩ <;> rw [hf] at hr hfit
        · cases hfit
          cases hr
          exact ⟨rfl, rfl, (DepthPass.live_dispose n (hdisposed.trans hd)).trans hsurplus⟩
        · cases hr
  | _ => cases hkind

theorem addPass_of_disposedPipeline (hs : s.stage.isDisposed = true) (pass : Pass) (index : Option Nat) :
    addPass pass index s = (.error (.resource .disposedPipeline), s) := by
  rw [addPass_eq]
  cases hb : s.stage.buffers with
  | none => rfl
  | some buffers => cases hs.symm.trans (isDisposed_of_some hb)

/-- Nothing that the pass holds is there. -/
structure Bereft (pass : Pass) (d : Device) : Prop where
  target : ∀ n, target? pass = some n → n ∉ d.targets.keys
  program : ∀ n, program? pass = some n → n ∉ d.programs.keys

theorem sub_toList_eq_iff (bag : Multiset Nat) (one : Option Nat) :
    bag = bag - (one.toList : Multiset Nat) ↔ ∀ n, one = some n → n ∉ bag := by
  cases one with
  | none => exact ⟨fun _ => nofun, fun _ => (tsub_zero bag).symm⟩
  | some n =>
    show bag = bag - {n} ↔ _
    rw [Multiset.sub_singleton]
    constructor
    · rintro hsame m hm hin
      cases hm
      have hcard := Multiset.card_erase_lt_of_mem hin
      rw [← hsame] at hcard
      exact Nat.lt_irrefl _ hcard
    · exact fun hno => (Multiset.erase_of_notMem (hno n rfl)).symm

theorem bereft_iff (pass : Pass) (d : Device) : d.live = d.live - holdings pass ↔ Bereft pass d := by
  have targets := sub_toList_eq_iff d.targets.keys (target? pass)
  have programs := sub_toList_eq_iff d.programs.keys (program? pass)
  constructor
  · intro hsame
    obtain ⟨ht, hp⟩ := Prod.ext_iff.1 hsame
    exact ⟨targets.1 ht, programs.1 hp⟩
  · exact fun bereft => Prod.ext (targets.2 bereft.target) (programs.2 bereft.program)

/-- A pipeline that turns a pass away is as it was.  If it is live, the pass is a depth pass, and there is all that there
was but for what that pass held.  If it has been disposed of nothing is released.  So what the pass held and got is
released exactly if the pipeline is live, or nothing that the pass holds is there. -/
theorem rejected_clean_iff (numbered : s.host.device.Numbered) (used : Pass.Used ⟨pass, s.host⟩)
    (hr : addPass pass index s = (.error e, t)) :
    t.stage = s.stage ∧
    (s.stage.isDisposed = false → pass.isDepthProducer = true) ∧
    (s.stage.isDisposed = true → e = .resource .disposedPipeline ∧ t = s) ∧
    (t.host.device.live = s.host.device.live - holdings pass ↔
      s.stage.isDisposed = false ∨ Bereft pass s.host.device) := by
  cases hs : s.stage.isDisposed with
  | false =>
    obtain ⟨hstage, hkind, hlive⟩ := addPass_error_of_live numbered used hs hr
    exact ⟨hstage, fun _ => hkind, nofun, fun _ => .inl rfl, fun _ => hlive⟩
  | true =>
    rw [addPass_of_disposedPipeline hs] at hr
    cases hr
    refine ⟨rfl, nofun, fun _ => ⟨rfl, rfl⟩, ?_⟩
    rw [bereft_iff]
    exact ⟨.inr, fun hor => hor.resolve_left Bool.true_eq_false.mp⟩

/-- A pipeline without passes, on a device whose screen has grown since. -/
def outgrown : Staged Pipeline := after [.useHost (.setOutputSize 2 2)] (onScene [])

/-- A depth pass that has got a target of the size of the screen. -/
def keeper : Staged Pass := (Pass.configure outgrown.stage.setup ⟨.depth (DepthPass.create 3), outgrown.host⟩).2

theorem used_keeper {h : Host} (l : keeper.host.Later h) : Pass.Used ⟨keeper.stage, h⟩ := by
  have configured : Pass.Used keeper := .used (.configure _) (.made _ (.depth 3)) trivial
  exact configured.elsewhere l

/-- The pipeline on a device that does not change the size of a target the next time. -/
def stiff : Staged Pipeline := after [.useHost (.arm "resize_target" 0)] ⟨outgrown.stage, keeper.host⟩

/-- The pass cannot get the size of the pipeline, and its target is released. -/
theorem rejected_clean_keeper : ∃ e t, addPass keeper.stage none stiff = (.error e, t) ∧
    stiff.host.device.targets.keys = [1, 2, 4] ∧ t.host.device.live = stiff.host.device.live - .target 4 := by
  have numbered : stiff.host.device.Numbered := by
    refine ⟨⟨?_, ?_, ?_⟩, ⟨?_, ?_, ?_⟩⟩ <;> decide +kernel
  have hfails : (addPass keeper.stage none stiff).1.toOption = none := by decide +kernel
  have hlive : stiff.stage.isDisposed = false := by decide +kernel
  have hkeys : stiff.host.device.targets.keys = [1, 2, 4] := by decide +kernel
  have hheld : holdings keeper.stage = .target 4 := by decide +kernel
  have used : Pass.Used ⟨keeper.stage, stiff.host⟩ := used_keeper ((HostUse.arm "resize_target" 0).later_run keeper.host)
  rcases hr : addPass keeper.stage none stiff with ⟨e | id, t⟩ <;> rw [hr] at hfails
  · obtain ⟨-, -, -, hclean⟩ := rejected_clean_iff numbered used hr
    exact ⟨e, t, rfl, hkeys, hheld ▸ hclean.2 (.inl hlive)⟩
  · cases hfails

/-- A pipeline that has been disposed of turns the pass away, and its target stays. -/
theorem keeper_unreleased : Pass.Used ⟨keeper.stage, (after [.dispose] ⟨outgrown.stage, keeper.host⟩).host⟩ ∧
    target? keeper.stage = some 4 ∧
    ∃ e t, addPass keeper.stage none (after [.dispose] ⟨outgrown.stage, keeper.host⟩) = (.error e, t) ∧
      t.host.device.targets.keys = [4] := by
  have later : keeper.host.Later (after [.dispose] ⟨outgrown.stage, keeper.host⟩).host :=
    (onward_dispose ⟨outgrown.stage, keeper.host⟩).later
  have htarget : target? keeper.stage = some 4 := by decide +kernel
  have hfails : (addPass keeper.stage none (after [.dispose] ⟨outgrown.stage, keeper.host⟩)).1.toOption = none := by
    decide +kernel
  have hkeys : (addPass keeper.stage none
      (after [.dispose] ⟨outgrown.stage, keeper.host⟩)).2.host.device.targets.keys = [4] := by decide +kernel
  refine ⟨used_keeper later, htarget, ?_⟩
  rcases hr : addPass keeper.stage none (after [.dispose] ⟨outgrown.stage, keeper.host⟩) with ⟨e | id, t⟩ <;>
    rw [hr] at hfails hkeys
  · exact ⟨e, t, rfl, hkeys⟩
  · cases hfails

end Pipeline

end ScreenFusion
