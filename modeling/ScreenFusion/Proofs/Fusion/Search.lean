import Mathlib.Data.Finset.Card
import Mathlib.Data.Finset.Image
import Mathlib.Order.Bounds.Basic
import ScreenFusion.Proofs.Fusion.Naming

/-!
# ScreenFusion.Proofs.Fusion.Search — looking for a name that is free

A name that is taken gets the index of its unit, and if that is taken as well, the numbers from one on are tried until
one is free.  The search has no bound of its own: it ends because no two numbers give the same name, so that each number
that is passed over uses up one of the taken names.

* `numberedName`, `numberedName_injective`: the names that are tried after the base.
* `seek`, `takeName`: the search, and a name put among the taken ones.
* `seek_spec`: where the search ends.
* `freshName_eq`: the first free one of enough candidates is what the search finds.
* `takeName_picks`: the name is new, it is all that is added, and it is the first of the names tried that is free.
-/

namespace ScreenFusion.Fusion

/-! ## The names that are tried -/

/-- The names for a base that is taken, in the order in which they are tried: with the index of the unit, and then with
a number from one on as well. -/
def numberedName (base : String) (index : Nat) : Nat → String
  | 0 => s!"{base}_{index}"
  | k + 1 => s!"{base}_{index}_{k + 1}"

theorem candidates_eq_numberedName (base : String) (index count : Nat) :
    candidates base index count = base :: (List.range (count + 1)).map (numberedName base index) := by
  rw [List.range_succ_eq_map, List.map_cons, List.map_map]
  rfl

theorem numberedName_injective (base : String) (index : Nat) : Function.Injective (numberedName base index) := by
  intro j k h
  have hnodup := nodup_candidates base index (max j k)
  rw [candidates_eq_numberedName, List.nodup_cons] at hnodup
  exact List.inj_on_of_nodup_map hnodup.2 (List.mem_range.2 (by omega)) (List.mem_range.2 (by omega)) h

/-! ## The search -/

section

variable {base : String} {index k n : Nat} {taken : Finset String}

/-- The taken names that the numbers below `k` have not used up. -/
def unused (base : String) (index : Nat) (taken : Finset String) (k : Nat) : Finset String :=
  taken \ (Finset.range k).image (numberedName base index)

theorem mem_unused_iff {name : String} :
    name ∈ unused base index taken k ↔ name ∈ taken ∧ ∀ j < k, numberedName base index j ≠ name := by
  simp [unused]

/-- Passing over a number uses up a taken name. -/
theorem card_unused_succ_lt (h : numberedName base index k ∈ taken) :
    (unused base index taken (k + 1)).card < (unused base index taken k).card := by
  refine Finset.card_lt_card ((Finset.ssubset_iff_of_subset fun name hn => ?_).2 ⟨numberedName base index k, ?_, ?_⟩)
  · obtain ⟨hn, hnot⟩ := mem_unused_iff.1 hn
    exact mem_unused_iff.2 ⟨hn, fun j hj => hnot j (Nat.lt_succ_of_lt hj)⟩
  · exact mem_unused_iff.2 ⟨h, fun j hj hjk => Nat.ne_of_lt hj (numberedName_injective base index hjk)⟩
  · exact fun hn => (mem_unused_iff.1 hn).2 k (Nat.lt_succ_self k) rfl

/-- Tries the names of a base one after another, from the `k`-th on, until one is free. -/
def seek (base : String) (index : Nat) (taken : Finset String) (k : Nat) : String :=
  if numberedName base index k ∈ taken then seek base index taken (k + 1) else numberedName base index k
termination_by (unused base index taken k).card
decreasing_by exact card_unused_succ_lt ‹_›

/-- A free name for a base, and the taken names with it. -/
def takeName (base : String) (index : Nat) (taken : Finset String) : String × Finset String :=
  let name := if base ∈ taken then seek base index taken 0 else base
  (name, insert name taken)

/-- Free names for bases in order, each taken for those after it, and the taken names with them. -/
def takeNames (index : Nat) : List String → Finset String → List String × Finset String
  | [], taken => ([], taken)
  | base :: bases, taken =>
    let (name, taken) := takeName base index taken
    let (names, taken) := takeNames index bases taken
    (name :: names, taken)

/-- The search ends at the first name from where it began on that is free. -/
theorem seek_spec (base : String) (index : Nat) (taken : Finset String) (k : Nat) :
    ∃ n, k ≤ n ∧ seek base index taken k = numberedName base index n ∧ numberedName base index n ∉ taken ∧
      ∀ j, k ≤ j → j < n → numberedName base index j ∈ taken := by
  fun_induction seek base index taken k with
  | case1 k hk ih =>
    obtain ⟨n, hle, heq, hfree, hpassed⟩ := ih
    refine ⟨n, Nat.le_of_succ_le hle, heq, hfree, fun j hkj hjn => ?_⟩
    rcases Nat.eq_or_lt_of_le hkj with rfl | hlt
    · exact hk
    · exact hpassed j hlt hjn
  | case2 k hk => exact ⟨k, Nat.le_refl k, rfl, hk, fun j hkj hjk => absurd hjk (Nat.not_lt.2 hkj)⟩

/-- Where the base and all names below the `n`-th are taken, there are more taken names than `n`. -/
theorem lt_card_of_passed (hbase : base ∈ taken) (h : ∀ j < n, numberedName base index j ∈ taken) : n < taken.card := by
  have hnodup := nodup_candidates base index n
  rw [candidates_eq_numberedName, List.range_succ, List.map_append, ← List.cons_append] at hnodup
  have hnew := (List.nodup_append.1 hnodup).1
  have hsub : (base :: (List.range n).map (numberedName base index)).toFinset ⊆ taken := by
    intro name hname
    rcases List.mem_cons.1 (List.mem_toFinset.1 hname) with rfl | hname
    · exact hbase
    · obtain ⟨j, hj, rfl⟩ := List.mem_map.1 hname
      exact h j (List.mem_range.1 hj)
  have hcard := Finset.card_le_card hsub
  rw [List.toFinset_card_of_nodup hnew, List.length_cons, List.length_map, List.length_range] at hcard
  exact hcard

end

/-- Of enough candidates the first that is free is the name that the search finds. -/
theorem freshName_eq (base : String) (index : Nat) (taken : List String) :
    freshName base index taken = (takeName base index taken.toFinset).1 := by
  unfold takeName
  dsimp only
  by_cases hbase : base ∈ taken
  · obtain ⟨n, -, heq, hfree, hpassed⟩ := seek_spec base index taken.toFinset 0
    rw [if_pos (List.mem_toFinset.2 hbase), heq]
    have hlt : n < taken.length + 1 :=
      Nat.lt_succ_of_lt ((lt_card_of_passed (List.mem_toFinset.2 hbase) fun j hj =>
        hpassed j (Nat.zero_le j) hj).trans_le (List.toFinset_card_le taken))
    have hfind : (List.range (taken.length + 1)).find? (fun k => !taken.contains (numberedName base index k)) =
        some n := by
      refine List.find?_range_eq_some.2 ⟨?_, List.mem_range.2 hlt, fun j hj => ?_⟩
      · simpa using hfree
      · simpa using hpassed j (Nat.zero_le j) hj
    rw [freshName, candidates_eq_numberedName, List.find?_cons_of_neg (by simpa using hbase), List.find?_map]
    show (Option.map _ ((List.range (taken.length + 1)).find? fun k =>
      !taken.contains (numberedName base index k))).getD base = _
    rw [hfind]
    rfl
  · rw [if_neg (List.mem_toFinset.not.2 hbase), freshName_of_not_mem hbase]

theorem takeName_toFinset (base : String) (index : Nat) (taken : List String) :
    takeName base index taken.toFinset =
      (freshName base index taken, (taken ++ [freshName base index taken]).toFinset) := by
  refine Prod.ext (freshName_eq base index taken).symm ?_
  rw [freshName_eq, List.toFinset_append, Finset.union_comm]
  rfl

theorem takeNames_toFinset (index : Nat) (bases taken : List String) :
    takeNames index bases taken.toFinset =
      (freshNames index bases taken, (taken ++ freshNames index bases taken).toFinset) := by
  induction bases generalizing taken with
  | nil => rw [takeNames, freshNames, List.append_nil]
  | cons base bases ih =>
    simp only [takeNames, freshNames, takeName_toFinset, ih, List.append_assoc, List.singleton_append]

/-! ## What is picked -/

/-- A name for a base and the taken names after it: the name is new and the only one that is added; it is the base if that
is free, or else the base with the index, or else the base with the index and the least number from one on that makes it
free, which is below the number of taken names. -/
structure Picks (base : String) (index : Nat) (taken : Finset String) (picked : String × Finset String) : Prop where
  fresh : picked.1 ∉ taken
  added : picked.2 = insert picked.1 taken
  kept : base ∉ taken → picked.1 = base
  indexed : base ∈ taken → s!"{base}_{index}" ∉ taken → picked.1 = s!"{base}_{index}"
  counted : base ∈ taken → s!"{base}_{index}" ∈ taken →
    ∃ k, IsLeast {k | 1 ≤ k ∧ s!"{base}_{index}_{k}" ∉ taken} k ∧ k < taken.card ∧ picked.1 = s!"{base}_{index}_{k}"

theorem picks_takeName (base : String) (index : Nat) (taken : Finset String) :
    Picks base index taken (takeName base index taken) := by
  obtain ⟨n, -, heq, hfree, hpassed⟩ := seek_spec base index taken 0
  by_cases hbase : base ∈ taken
  · have hname : (takeName base index taken).1 = numberedName base index n := by rw [takeName, if_pos hbase, heq]
    refine ⟨by rwa [hname], rfl, fun h => absurd hbase h, fun _ hindex => ?_, fun _ hindex => ?_⟩
    · cases n with
      | zero => exact hname
      | succ n => exact absurd (hpassed 0 (Nat.le_refl 0) (Nat.succ_pos n)) hindex
    · cases n with
      | zero => exact absurd hindex hfree
      | succ n =>
        refine ⟨n + 1, ⟨⟨Nat.succ_pos n, hfree⟩, fun k hk => ?_⟩,
          lt_card_of_passed hbase fun j hj => hpassed j (Nat.zero_le j) hj, hname⟩
        obtain ⟨k, rfl⟩ := Nat.exists_eq_add_of_le' hk.1
        exact Nat.le_of_not_lt fun hlt => hk.2 (hpassed (k + 1) (Nat.zero_le _) hlt)
  · have hname : (takeName base index taken).1 = base := by rw [takeName, if_neg hbase]
    exact ⟨by rwa [hname], rfl, fun _ => hname, fun h => absurd h hbase, fun h => absurd h hbase⟩

/-- Whatever names are taken, the search for a name ends at one that is free, and puts it among them.  It is the search
by which slots, constants, functions and structures of a program get their names, each after those that are taken. -/
theorem takeName_picks (base : String) (index : Nat) :
    (∀ taken : Finset String, Picks base index taken (takeName base index taken)) ∧
      (∀ taken : List String, takeName base index taken.toFinset =
        (freshName base index taken, (taken ++ [freshName base index taken]).toFinset)) ∧
      (∀ kind table, takeName base index (table.map Prod.fst).toFinset =
        ((claim index base kind table).1.member, ((claim index base kind table).2.map Prod.fst).toFinset)) ∧
      (∀ context entries d d', fuseDefines context index entries d = .ok d' →
        (takeNames index ((valued entries).map Prod.fst) d.taken.toFinset).2 = d'.taken.toFinset) ∧
      ∀ context items substitutes taken after, fuseItems context index items substitutes taken = .ok after →
        (takeNames index (items.map fun item => s!"e{index}_{item}") taken.toFinset).2 = after.2.toFinset := by
  refine ⟨picks_takeName base index, takeName_toFinset base index, fun kind table => ?_, fun context entries d d' h => ?_,
    fun context items substitutes taken after h => ?_⟩
  · rw [takeName_toFinset, claim, List.map_append]
    rfl
  · obtain ⟨-, -, htaken, -⟩ := fuseDefines_ok h
    rw [takeNames_toFinset, htaken]
  · obtain ⟨-, htaken, -⟩ := fuseItems_ok h
    rw [takeNames_toFinset, htaken]

/-- With the base, the base with its index and the first number taken, the second number is picked. -/
theorem takeName_picks_second :
    "gain" ∈ ({"gain", "gain_0", "gain_0_1"} : Finset String) ∧
      "gain_0" ∈ ({"gain", "gain_0", "gain_0_1"} : Finset String) ∧
      (takeName "gain" 0 {"gain", "gain_0", "gain_0_1"}).1 = "gain_0_2" := by
  have hbase : "gain" ∈ ({"gain", "gain_0", "gain_0_1"} : Finset String) := by decide
  have hindex : "gain_0" ∈ ({"gain", "gain_0", "gain_0_1"} : Finset String) := by decide
  refine ⟨hbase, hindex, ?_⟩
  obtain ⟨k, ⟨⟨hpos, hfree⟩, hleast⟩, -, hname⟩ :=
    ((takeName_picks "gain" 0).1 {"gain", "gain_0", "gain_0_1"}).counted hbase hindex
  have hle : k ≤ 2 := hleast ⟨by decide, by decide⟩
  have hne : k ≠ 1 := by
    rintro rfl
    exact hfree (by decide)
  obtain rfl : k = 2 := by omega
  exact hname

end ScreenFusion.Fusion
