import ScreenFusion.Pass.Basic

/-!
# ScreenFusion.Proofs.Host.Alike — nothing depends on what was reported

Events are written and never read.  Two hosts are alike if they differ at most in their events, and an act respects a
relation between states if related states give it the same result and are related again after it.

* `Act.Respects.bind`: acts that respect a relation can be put in sequence.
* `Host.respects_issue`: commands to a device respect likeness.
* `Staged.respects_onHost`, `Staged.respects_report`: so do the acts that passes are made of.
-/

namespace ScreenFusion

namespace Act

variable {σ α β : Type} {R : σ → σ → Prop}

/-- Related states give the same result and stay related. -/
def Respects (R : σ → σ → Prop) (x : Act σ α) : Prop :=
  ∀ s t, R s t → (x s).1 = (x t).1 ∧ R (x s).2 (x t).2

namespace Respects

theorem pure (a : α) : Respects R (Pure.pure a : Act σ α) := fun _ _ h => ⟨rfl, h⟩

theorem fail (e : Error) : Respects R (Act.fail e : Act σ α) := fun _ _ h => ⟨rfl, h⟩

theorem ofExcept (r : Except Error α) : Respects R (Act.ofExcept r : Act σ α) := fun _ _ h => ⟨rfl, h⟩

theorem bind {x : Act σ α} {f : α → Act σ β} (hx : Respects R x) (hf : ∀ a, Respects R (f a)) :
    Respects R (x >>= f) := by
  intro s t h
  obtain ⟨hr, hs⟩ := hx s t h
  rw [bind_apply, bind_apply]
  rcases hxs : x s with ⟨r | a, s'⟩ <;> rcases hxt : x t with ⟨r' | a', t'⟩ <;>
    rw [hxs, hxt] at hr hs
  · cases hr
    exact ⟨rfl, hs⟩
  · cases hr
  · cases hr
  · cases hr
    exact hf a s' t' hs

theorem attempt {x : Act σ α} (hx : Respects R x) : Respects R (Act.attempt x) := by
  intro s t h
  obtain ⟨hr, hs⟩ := hx s t h
  exact ⟨congrArg Except.ok hr, hs⟩

theorem ite {p : Prop} [Decidable p] {x y : Act σ α} (hx : Respects R x) (hy : Respects R y) :
    Respects R (if p then x else y) := by
  split
  · exact hx
  · exact hy

end Respects

end Act

/-! ## Hosts -/

namespace Host

/-- The hosts differ at most in what was reported. -/
structure Alike (h k : Host) : Prop where
  device : h.device = k.device
  calls : h.calls = k.calls
  armed : h.armed = k.armed

theorem Alike.refl (h : Host) : Alike h h := ⟨rfl, rfl, rfl⟩

theorem Alike.report {h k : Host} (a : Alike h k) (events events' : List Event) :
    Alike (h.report events) (k.report events') := ⟨a.device, a.calls, a.armed⟩

theorem Alike.report_left {h k : Host} (a : Alike h k) (events : List Event) : Alike (h.report events) k :=
  ⟨a.device, a.calls, a.armed⟩

theorem respects_issue {α : Type} (command : Command) (answer : α → Answer) (run : Act Device α) :
    Act.Respects Alike (issue command answer run) := by
  rintro ⟨d, calls, events, armed⟩ ⟨d', calls', events', armed'⟩ ⟨hd, hc, ha⟩
  cases hd
  cases hc
  cases ha
  unfold issue
  rcases countDown command.name armed with ⟨fires, rest⟩
  cases fires with
  | true => exact ⟨rfl, rfl, rfl, rfl⟩
  | false =>
    simp only [Bool.false_eq_true, if_false]
    rcases run d with ⟨e | a, d'⟩ <;> exact ⟨rfl, rfl, rfl, rfl⟩

theorem alike_issueRelease {h k : Host} (a : Alike h k) (command : Command) (run : Device → Bool × Device) :
    (h.issueRelease command run).1 = (k.issueRelease command run).1 ∧
      Alike (h.issueRelease command run).2 (k.issueRelease command run).2 := by
  obtain ⟨d, calls, events, armed⟩ := h
  obtain ⟨d', calls', events', armed'⟩ := k
  obtain ⟨hd, hc, ha⟩ := a
  cases hd
  cases hc
  cases ha
  exact ⟨rfl, rfl, rfl, rfl⟩

end Host

/-! ## What acts on a host -/

namespace Staged

variable {P α : Type}

/-- The same stage on hosts that differ at most in what was reported. -/
structure Alike (s t : Staged P) : Prop where
  stage : s.stage = t.stage
  host : s.host.Alike t.host

theorem respects_get : Act.Respects Alike (get : Act (Staged P) P) :=
  fun _ _ h => ⟨congrArg Except.ok h.stage, h⟩

theorem respects_device : Act.Respects Alike (device : Act (Staged P) Device) :=
  fun _ _ h => ⟨congrArg Except.ok h.host.device, h⟩

theorem respects_modify (f : P → P) : Act.Respects Alike (modify f) :=
  fun _ _ h => ⟨rfl, congrArg f h.stage, h.host⟩

theorem respects_report (events : List Event) : Act.Respects Alike (report events : Act (Staged P) Unit) :=
  fun _ _ h => ⟨rfl, h.stage, h.host.report events events⟩

theorem respects_onHost {x : Act Host α} (hx : Act.Respects Host.Alike x) :
    Act.Respects Alike (onHost x : Act (Staged P) α) := by
  intro s t h
  obtain ⟨hr, hh⟩ := hx s.host t.host h.host
  exact ⟨hr, h.stage, hh⟩

theorem respects_releaseProgram (program : Nat) :
    Act.Respects Alike (release (Host.releaseProgram program) : Act (Staged P) Bool) := by
  intro s t h
  obtain ⟨hr, hh⟩ := Host.alike_issueRelease h.host (.releaseProgram program) (Device.releaseProgram program)
  exact ⟨congrArg Except.ok hr, h.stage, hh⟩

end Staged

end ScreenFusion
