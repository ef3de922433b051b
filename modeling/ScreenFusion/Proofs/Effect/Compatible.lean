import ScreenFusion.Effect.Members

/-!
# ScreenFusion.Proofs.Effect.Compatible — effects that can share a program

The check of a pass's members goes through them in order and keeps the owners of exclusive attributes.  It succeeds
exactly if all of them are live and at most one owns the convolution attribute, and else says which member is at fault.

* `Compatible`: what the check stands for.
* `checkMembers_ok_iff`: it succeeds exactly then.
* `checkMembers_error`: how it fails.
-/

namespace ScreenFusion

/-- Whether an effect samples several neighbouring texels of its input. -/
def Effect.convolves (e : Effect) : Bool := e.attributes.includes .convolution

/-- Effects that can share a program. -/
structure Compatible (effects : List Effect) : Prop where
  live : ∀ e ∈ effects, e.disposed = false
  exclusive : effects.countP Effect.convolves ≤ 1

instance (effects : List Effect) : Decidable (Compatible effects) :=
  decidable_of_iff ((∀ e ∈ effects, e.disposed = false) ∧ effects.countP Effect.convolves ≤ 1)
    ⟨fun h => ⟨h.1, h.2⟩, fun h => ⟨h.live, h.exclusive⟩⟩

variable {label : String} {e : Effect} {effects : List Effect} {owners : Owners} {union : Attributes} {err : Error}

/-! ## Owners -/

/-- An effect takes the exclusive attribute if it has it, unless another one is the owner. -/
theorem claimExclusive_eq (label : String) (e : Effect) (owners : Owners) :
    claimExclusive label e Attributes.exclusive owners =
      if e.convolves = true then
        match owners.lookup .convolution with
        | some first => .error (.configuration label (.exclusiveAttribute first e.name "CONVOLUTION"))
        | none => .ok (owners ++ [(.convolution, e.name)])
      else .ok owners := rfl

theorem isSome_lookup_append (owners : Owners) (name : String) :
    ((owners ++ [(Attributes.convolution, name)]).lookup .convolution).isSome = true := by
  rw [List.lookup_append, Option.isSome_or, Bool.or_eq_true]
  exact .inr rfl

/-! ## The check -/

/-- How many members may still own the exclusive attribute. -/
def Owners.left (owners : Owners) : Nat := if (owners.lookup .convolution).isSome then 0 else 1

theorem checkMembersFrom_ok_iff : (∃ a, checkMembersFrom label effects owners union = .ok a) ↔
    (∀ e ∈ effects, e.disposed = false) ∧ effects.countP Effect.convolves ≤ owners.left := by
  induction effects generalizing owners union with
  | nil => simp [checkMembersFrom]
  | cons e es ih =>
    rw [checkMembersFrom, List.forall_mem_cons]
    cases hd : e.disposed with
    | true => simp
    | false =>
      rw [if_neg (by simp), claimExclusive_eq]
      by_cases hc : e.convolves = true
      · rw [if_pos hc, List.countP_cons_of_pos hc]
        cases hl : owners.lookup .convolution with
        | some first =>
          have hleft : owners.left = 0 := by simp [Owners.left, hl]
          rw [hleft]
          refine iff_of_false ?_ fun h => absurd h.2 (by omega)
          rintro ⟨a, h⟩
          cases h
        | none =>
          have hleft : owners.left = 1 := by simp [Owners.left, hl]
          have hnext : (owners ++ [(Attributes.convolution, e.name)] : Owners).left = 0 := by
            rw [Owners.left, if_pos (isSome_lookup_append owners e.name)]
          refine ih.trans ?_
          rw [hleft, hnext]
          simp
      · rw [if_neg hc, List.countP_cons_of_neg hc]
        refine ih.trans ?_
        simp

theorem checkMembers_ok_iff : (∃ a, checkMembers label effects = .ok a) ↔ Compatible effects :=
  checkMembersFrom_ok_iff.trans ⟨fun h => ⟨h.1, h.2⟩, fun h => ⟨h.live, h.exclusive⟩⟩

theorem checkMembersFrom_error (h : checkMembersFrom label effects owners union = .error err) :
    ∃ cause, err = .configuration label cause := by
  induction effects generalizing owners union with
  | nil => cases h
  | cons e es ih =>
    rw [checkMembersFrom, claimExclusive_eq] at h
    split at h
    · cases h
      exact ⟨_, rfl⟩
    · split at h
      · cases hl : owners.lookup .convolution with
        | some first =>
          rw [hl] at h
          cases h
          exact ⟨_, rfl⟩
        | none =>
          rw [hl] at h
          exact ih h
      · exact ih h

/-- The check of effects that cannot share a program fails with an error of their pass. -/
theorem checkMembers_error (label : String) (h : ¬Compatible effects) :
    ∃ cause, checkMembers label effects = .error (.configuration label cause) := by
  cases hc : checkMembers label effects with
  | ok a => exact absurd (checkMembers_ok_iff.1 ⟨a, hc⟩) h
  | error err =>
    obtain ⟨cause, rfl⟩ := checkMembersFrom_error hc
    exact ⟨cause, rfl⟩

end ScreenFusion
