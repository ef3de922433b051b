import Mathlib.Data.List.Nodup
import Mathlib.Data.List.Perm.Subperm
import ScreenFusion.Fusion.Unit

/-!
# ScreenFusion.Proofs.Fusion.Fresh — fresh names

The candidates for a name are its base, and the base with one number or two.  There are more of them than taken names, and
no two are the same, so one is free.

* `freshName_not_mem`: a fresh name is not taken.
* `toList_freshName`: what may follow the base.
* `freshNames`: names for many bases, each of which is taken for those after it.
-/

namespace ScreenFusion.Fusion

/-! ## Candidates -/

/-- A number after an underscore. -/
def numbered (n : Nat) : List Char := '_' :: Nat.toDigits 10 n

theorem numbered_injective {m n : Nat} (h : numbered m = numbered n) : m = n := by
  have hdigits := congrArg (fun ds => Nat.ofDigitChars 10 ds 0) (List.cons.inj h).2
  simpa using hdigits

theorem isNameRest_of_mem_numbered {n : Nat} {c : Char} (h : c ∈ numbered n) : Wgsl.isNameRest c = true := by
  rcases List.mem_cons.1 h with rfl | h
  · decide
  · have hdigit := Nat.isDigit_of_mem_toDigits (by decide) (by decide) h
    simp [Wgsl.isNameRest, Char.isAlphanum, hdigit]

theorem candidates_eq (base : String) (index count : Nat) :
    (candidates base index count).map String.toList =
      base.toList :: (base.toList ++ numbered index) ::
        (List.range count).map fun k => base.toList ++ numbered index ++ numbered (k + 1) := by
  have htext (s : String) : toString s = s := rfl
  simp [candidates, htext, numbered]

theorem nodup_candidates (base : String) (index count : Nat) : (candidates base index count).Nodup := by
  refine List.Nodup.of_map String.toList ?_
  rw [candidates_eq, List.nodup_cons, List.nodup_cons]
  refine ⟨?_, ?_, ?_⟩
  · intro h
    rcases List.mem_cons.1 h with h | h
    · have hlength := congrArg List.length h
      simp [numbered] at hlength
    · obtain ⟨k, -, hk⟩ := List.mem_map.1 h
      have hlength := congrArg List.length hk
      simp [numbered] at hlength
  · intro h
    obtain ⟨k, -, hk⟩ := List.mem_map.1 h
    have hlength := congrArg List.length hk
    simp [numbered] at hlength
  · refine List.Nodup.map ?_ List.nodup_range
    intro j k hjk
    have hnumber := numbered_injective (List.append_cancel_left hjk)
    omega

theorem freshName_spec (base : String) (index : Nat) (taken : List String) :
    freshName base index taken ∈ candidates base index taken.length ∧ freshName base index taken ∉ taken := by
  unfold freshName
  cases hfind : (candidates base index taken.length).find? fun c => !taken.contains c with
  | some c =>
    have hfree := List.find?_some hfind
    exact ⟨List.mem_of_find?_eq_some hfind, by simpa using hfree⟩
  | none =>
    -- There are more candidates than taken names.
    have hsub : candidates base index taken.length ⊆ taken := by
      intro c hc
      have hnot := List.find?_eq_none.1 hfind c hc
      simpa using hnot
    have hle := ((nodup_candidates base index taken.length).subperm hsub).length_le
    simp only [candidates, List.length_cons, List.length_map, List.length_range] at hle
    omega

theorem freshName_not_mem (base : String) (index : Nat) (taken : List String) : freshName base index taken ∉ taken :=
  (freshName_spec base index taken).2

/-- A fresh name is its base, or its base with an underscore and more characters of names after it. -/
theorem toList_freshName (base : String) (index : Nat) (taken : List String) :
    ∃ more, (freshName base index taken).toList = base.toList ++ more ∧ more.head?.all (· == '_') = true ∧
      ∀ c ∈ more, Wgsl.isNameRest c = true := by
  have hmem := List.mem_map_of_mem (f := String.toList) (freshName_spec base index taken).1
  rw [candidates_eq] at hmem
  rcases List.mem_cons.1 hmem with h | h
  · exact ⟨[], by rw [h, List.append_nil], rfl, nofun⟩
  · rcases List.mem_cons.1 h with h | h
    · exact ⟨numbered index, h, rfl, fun c hc => isNameRest_of_mem_numbered hc⟩
    · obtain ⟨k, -, hk⟩ := List.mem_map.1 h
      refine ⟨numbered index ++ numbered (k + 1), by rw [← hk, List.append_assoc], rfl, fun c hc => ?_⟩
      rcases List.mem_append.1 hc with hc | hc
      · exact isNameRest_of_mem_numbered hc
      · exact isNameRest_of_mem_numbered hc

/-! ## Names for many bases -/

/-- Fresh names for bases in order, each taken for those after it. -/
def freshNames (index : Nat) : List String → List String → List String
  | [], _ => []
  | base :: bases, taken =>
    freshName base index taken :: freshNames index bases (taken ++ [freshName base index taken])

theorem length_freshNames (index : Nat) (bases : List String) (taken : List String) :
    (freshNames index bases taken).length = bases.length := by
  induction bases generalizing taken with
  | nil => rfl
  | cons base bases ih => rw [freshNames, List.length_cons, List.length_cons, ih]

theorem freshNames_append (index : Nat) (bases more : List String) (taken : List String) :
    freshNames index (bases ++ more) taken =
      freshNames index bases taken ++ freshNames index more (taken ++ freshNames index bases taken) := by
  induction bases generalizing taken with
  | nil => simp [freshNames]
  | cons base bases ih => simp [freshNames, ih]

theorem freshNames_not_mem {index : Nat} {bases : List String} {taken : List String} {n : String}
    (h : n ∈ freshNames index bases taken) : n ∉ taken := by
  induction bases generalizing taken with
  | nil => cases h
  | cons base bases ih =>
    rcases List.mem_cons.1 h with rfl | h
    · exact freshName_not_mem base index taken
    · exact fun hmem => ih h (List.mem_append_left _ hmem)

theorem nodup_freshNames (index : Nat) (bases : List String) (taken : List String) :
    (freshNames index bases taken).Nodup := by
  induction bases generalizing taken with
  | nil => exact .nil
  | cons base bases ih =>
    refine List.nodup_cons.2 ⟨fun hmem => ?_, ih _⟩
    exact freshNames_not_mem hmem (List.mem_append_right _ (List.mem_singleton.2 rfl))

theorem exists_base {index : Nat} {bases : List String} {taken : List String} {n : String}
    (h : n ∈ freshNames index bases taken) : ∃ b ∈ bases, ∃ before, n = freshName b index before := by
  induction bases generalizing taken with
  | nil => cases h
  | cons base bases ih =>
    rcases List.mem_cons.1 h with rfl | h
    · exact ⟨base, List.mem_cons_self, taken, rfl⟩
    · obtain ⟨b, hb, before, hn⟩ := ih h
      exact ⟨b, List.mem_cons_of_mem _ hb, before, hn⟩

end ScreenFusion.Fusion
