import ScreenFusion.Proofs.Pass.KeptProgram
import ScreenFusion.Proofs.Pass.Vetting

/-!
# ScreenFusion.Proofs.Pass.Violation — members that can no longer share a program

Changes through references can bring members to where they cannot share a program.  None of them does so unseen: it leaves
something to acknowledge.  So the next commit does not pass over it, and does not find the key of the program there is;
it builds, and the build fails at the check of the members.

* `disposed_of_altered`: what becomes of members where nothing is left to acknowledge.
* `compatible_after`: members that can share a program still can, if nothing is left to acknowledge.
* `commit_of_violation`: a commit of members that cannot.
* `never_fused`: all that is fused, and all that a commit without error leaves, can share a program.
-/

namespace ScreenFusion

namespace EffectPass

variable {p q : EffectPass} {h k : Host}

/-! ## Uses that leave nothing to acknowledge -/

/-- Members with the same key, of which the same ones are live, can share a program as before. -/
theorem compatible_congr (hkey : q.key = p.key) (hd : q.effects.map Effect.disposed = p.effects.map Effect.disposed)
    (hp : Compatible p.effects) : Compatible q.effects := by
  have hkeys : q.effects.map EffectKey.of = p.effects.map EffectKey.of := congrArg ProgramKey.effects hkey
  constructor
  · intro e he
    have hmem : e.disposed ∈ p.effects.map Effect.disposed := hd ▸ List.mem_map_of_mem he
    obtain ⟨e', he', hsame⟩ := List.mem_map.1 hmem
    rw [← hsame]
    exact hp.live e' he'
  · have hcount (r : EffectPass) : r.effects.countP Effect.convolves =
        (r.effects.map EffectKey.of).countP (·.attributes.includes .convolution) := by
      rw [List.countP_map]
      rfl
    rw [hcount, hkeys, ← hcount]
    exact hp.exclusive

/-- Members changed in place and left without anything to acknowledge are as live as they were. -/
theorem disposed_of_mapped {f : Effect → Effect} (hf : ∀ e, EffectChange.Spec e (f e))
    (hd : ∀ e, (f e).version = e.version → (f e).disposed = e.disposed)
    (ha : ∀ e ∈ p.effects, e.acknowledged ≤ e.version)
    (hclean : ({ p with effects := p.effects.map f } : EffectPass).isDirty = false) :
    (p.effects.map f).map Effect.disposed = p.effects.map Effect.disposed := by
  have hany : (p.effects.map f).any Effect.isChanged = false := (Bool.or_eq_false_iff.1 hclean).2
  rw [List.map_map]
  refine List.map_congr_left fun e he => hd e ?_
  have hunchanged : (f e).version = (f e).acknowledged := by
    have hfe := List.any_eq_false.1 hany (f e) (List.mem_map_of_mem he)
    simpa [Effect.isChanged] using hfe
  have hle := ha e he
  rw [(hf e).acknowledged_eq] at hunchanged
  rcases (hf e).version with hv | ⟨hv, -⟩
  · omega
  · exact hv

/-- A use that builds nothing and leaves nothing to acknowledge leaves each member live or disposed of. -/
theorem disposed_of_altered {op : EffectPassOp} (a : Altered op p q) (ha : ∀ e ∈ p.effects, e.acknowledged ≤ e.version)
    (hclean : q.isDirty = false) : q.effects.map Effect.disposed = p.effects.map Effect.disposed := by
  cases a with
  | kept => rfl
  | marked _ => cases hclean
  | changed id c _ =>
    refine disposed_of_mapped (fun e => ?_) (fun e => ?_) ha hclean
    · split
      · exact c.apply_spec e
      · exact .same e
    · split
      · exact EffectChange.disposed_of_version
      · exact fun _ => rfl
  | restored id a b =>
    have hset (a : Attributes) (e : Effect) : (e.setAttributes a).disposed = e.disposed := by
      unfold Effect.setAttributes
      split <;> rfl
    exact (map_modifyEffect (hset b) _ id).trans (map_modifyEffect (hset a) p id)
  | dressed _ _ => rfl
  | disposed =>
    exact disposed_of_mapped EffectChange.dispose.apply_spec (fun e => EffectChange.disposed_of_version) ha hclean

/-! ## Runs -/

/-- What every use keeps is kept by a run of uses. -/
theorem FairRun.keeps {P : EffectPass → Prop} {uses : List (EffectPassOp × Host)} (hu : FairRun p uses)
    (hstep : ∀ (p : EffectPass) (op : EffectPassOp) (h : Host), op.Admissible p → op.Novel p → P p →
      P (op.run ⟨p, h⟩).2.stage) (hp : P p) : P (p.after uses) := by
  induction uses generalizing p with
  | nil => exact hp
  | cons use rest ih => exact ih hu.2.2 (hstep p use.1 use.2 hu.1 hu.2.1 hp)

theorem Reached.after {calls : List Call} (r : Reached p calls) {uses : List (EffectPassOp × Host)}
    (hu : FairRun p uses) : ∃ more, Reached (p.after uses) more := by
  refine hu.keeps (P := fun p => ∃ calls, Reached p calls) ?_ ⟨calls, r⟩
  rintro p op h ha - ⟨calls, r⟩
  exact ⟨_, r.used op h ha⟩

theorem Vetted.after (v : Vetted p) {uses : List (EffectPassOp × Host)} (hu : FairRun p uses) :
    Vetted (p.after uses) :=
  hu.keeps (fun _ _ h _ hn v => v.used hn h) v

theorem carried_after {uses : List (EffectPassOp × Host)} (hu : FairRun p uses)
    (hb : ∀ use ∈ uses, use.1.builds = false) : Carried p (p.after uses) := by
  induction uses generalizing p with
  | nil => exact .refl p
  | cons use rest ih =>
    obtain ⟨huse, hrest⟩ := List.forall_mem_cons.1 hb
    exact (leaves_run huse hu.1 use.2).stage.trans (ih hu.2.2 hrest)

/-- Members that can share a program still can after uses that build nothing, if nothing is left to acknowledge. -/
theorem compatible_after {uses : List (EffectPassOp × Host)} (hu : FairRun p uses)
    (hb : ∀ use ∈ uses, use.1.builds = false) (ha : ∀ e ∈ p.effects, e.acknowledged ≤ e.version)
    (hp : Compatible p.effects) (hclean : (p.after uses).isDirty = false) : Compatible (p.after uses).effects := by
  induction uses generalizing p with
  | nil => exact hp
  | cons use rest ih =>
    obtain ⟨op, h⟩ := use
    obtain ⟨hop, hrest⟩ := List.forall_mem_cons.1 hb
    have hstep := (leaves_run hop hu.1 h).stage
    have hnext := hstep.acknowledged ha
    have hfirst := ((carried_after hu.2.2 hrest).clean hnext hclean).1
    refine ih hu.2.2 hrest hnext ?_ hclean
    exact compatible_congr (hstep.clean ha hfirst).2 (disposed_of_altered (altered_run hop p h) ha hfirst) hp

/-- A commit of a live pass whose members cannot share a program, with something to acknowledge, fails with an error of
the pass and asks nothing of the device. -/
theorem commit_of_violation (v : Vetted p) (hd : p.disposed = false) (hdirty : p.isDirty = true)
    (hn : ¬Compatible p.effects) (h : Host) :
    ∃ cause s, EffectPass.commit ⟨p, h⟩ = (.error (.configuration p.name cause), s) ∧
      s.host.calls = h.calls ∧ s.host.device = h.device := by
  obtain ⟨cause, hcheck⟩ := checkMembers_error p.name hn
  have hw : p.WantsBuild := by
    refine ⟨.inl hdirty, fun hk => hn ?_⟩
    obtain ⟨c, hc, hck⟩ := Option.map_eq_some_iff.1 hk
    exact v.compatible hc hck
  have hb : build p.key ⟨p, h⟩ = (.error (.configuration p.name cause), ⟨p, h⟩) := by rw [build_eq, hcheck]
  rw [commit_of_wantsBuild hd hw, rebuild_of_error hb]
  exact ⟨cause, _, rfl, rfl, rfl⟩

/-- Of every pass that can be had, by any uses in any order, with members changed through references as well (a kernel
that is set is a new one, `EffectPassOp.Novel`):

* whatever is done with it next, a program is asked for only if its members can share one, and it is theirs;
* after a commit that succeeds, if no error is kept, its members can share a program;
* if its members can share a program and then, by uses that commit nothing, no longer can, the next commit or render of
  the pass, if it is live, fails with an error of the pass and asks nothing of the device. -/
theorem never_fused {name : String} {effects : List Effect} (hmade : ∀ e ∈ effects, e.Made)
    (hdistinct : (effects.map Effect.id).Nodup) (hp : create name effects = .ok p)
    {uses : List (EffectPassOp × Host)} (hu : FairRun p uses) :
    let q := p.after uses
    (∀ (op : EffectPassOp) (h : Host), ∀ call ∈ h.issuedSince (op.run ⟨q, h⟩).2.host, Vouched q call.command) ∧
    (∀ h b r k, EffectPass.commit ⟨q, h⟩ = (.ok b, ⟨r, k⟩) → r.lastError = none → Compatible r.effects) ∧
    ∀ more, FairRun q more → (∀ use ∈ more, use.1.builds = false) → Compatible q.effects →
      let r := q.after more
      r.disposed = false → ¬Compatible r.effects → ∀ (op : EffectPassOp) (h : Host), op.builds = true →
        ∃ cause s, op.run ⟨r, h⟩ = (.error (.configuration r.name cause), s) ∧
          s.host.calls = h.calls ∧ s.host.device = h.device := by
  intro q
  obtain ⟨calls, reached⟩ := (Reached.created hmade hdistinct hp).after hu
  have v : Vetted q := by
    refine Vetted.after ?_ hu
    unfold create at hp
    obtain ⟨a, -, hp⟩ := ok_of_bind hp
    cases hp
    exact .of_none rfl
  have i := reached.invariant
  refine ⟨fun op h => (vouched_run op q h).issuedSince, fun h b r k hc hl => compatible_of_commit_ok i v hc hl, ?_⟩
  intro more hmore hb hq r hd hn op h hop
  have hdirty : r.isDirty = true := by
    rw [← Bool.not_eq_false]
    exact fun hclean => hn (compatible_after hmore hb i.acknowledged hq hclean)
  obtain ⟨cause, s, hcommit, hs⟩ := commit_of_violation (v.after hmore) hd hdirty hn h
  refine ⟨cause, s, ?_, hs⟩
  cases op with
  | commit => exact Act.bind_of_error hcommit
  | render io deltaTime => exact render_of_commit_error hcommit io deltaTime
  | _ => cases hop

/-! ## Two effects that both convolve -/

/-- A pass with two effects, of which the first convolves. -/
def pair : EffectPass :=
  ((create "fx" [red.setAttributes .convolution,
    (Effect.create 2 "b" "fn main_image").setKernel ⟨1, fun i => i.color⟩]).toOption).getD default

theorem pair_made : ∀ e ∈ pair.effects, e.Made :=
  List.forall_mem_cons.2 ⟨.changed (.attributes .convolution) red_made,
    List.forall_mem_singleton.2 (.changed (.kernel _) (.created 2 "b" "fn main_image"))⟩

theorem pair_created : create "fx" pair.effects = .ok pair := rfl

theorem reached_pair : Reached pair [] := .created pair_made (by decide) pair_created

/-- The pair is built; then its second effect is made to convolve too, which the next commit refuses. -/
theorem never_fused_pair :
    let host := plain.host
    let built := pair.after [(.commit, host)]
    let r := built.after [(.change 2 (.attributes .convolution), host)]
    Compatible built.effects ∧ built.lastError = none ∧ ¬Compatible r.effects ∧
      ∃ cause s, EffectPassOp.commit.run ⟨r, host⟩ = (.error (.configuration r.name cause), s) ∧
        s.host.calls = host.calls ∧ s.host.device = host.device := by
  intro host built r
  have hrun : FairRun pair [(.commit, host)] := ⟨trivial, nofun, trivial⟩
  obtain ⟨-, -, hviolated⟩ := never_fused pair_made (by decide) pair_created hrun
  have hbuilt : Compatible built.effects := by decide +kernel
  have hr : ¬Compatible r.effects := by decide +kernel
  refine ⟨hbuilt, by decide +kernel, hr, ?_⟩
  exact hviolated [(.change 2 (.attributes .convolution), host)] ⟨trivial, nofun, trivial⟩
    (List.forall_mem_singleton.2 rfl) hbuilt (by decide +kernel) hr .commit host rfl

end EffectPass

end ScreenFusion
