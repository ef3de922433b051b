import ScreenFusion.Proofs.Fusion.Substitute
import ScreenFusion.Proofs.Wgsl.Place

/-!
# ScreenFusion.Proofs.Fusion.Separation — when no unit sees another unit's names

A unit brings names to module scope: those that its constants, functions and structures get, and those of the values that
its text declares outside of functions, which nothing renames.  The program uses names on its behalf: what its names have
become, and names that its text takes from outside.

Names that are made are never in the way of each other or of the scaffold's own.  So units are strangers to each other
exactly if no value of one is a name of the other, and neither takes a name from outside that the other brings.

* `Strangers`, `Separate`: the property and the condition for two members.
* `strangers_iff`: the condition is exact.
* `strangers_of_selfContained`: units without values outside of functions that take only given names from outside.
-/

namespace ScreenFusion.Fusion

namespace Member

/-- The values and types that the text declares at module scope, apart from functions and structures. -/
def values (m : Member) : List String := Wgsl.valuesFrom m.substitute .start (Wgsl.placed m.code)

/-- The names that the unit brings to module scope. -/
def contributed (m : Member) : List String := m.fused ++ m.values

/-- The names in the values of the unit's constants, which are not renamed. -/
def valueNames (m : Member) : List String :=
  m.constants.flatMap fun c => (Wgsl.places c.2.toList).map Wgsl.Place.name

/-- The name of the module that stands at a place in the program. -/
def nameAt (m : Member) (p : Wgsl.Place) : String := ((p.replacement m.substitute).map root).getD p.name

/-- The names of the module that the program uses on the unit's behalf, and the one by which it calls the unit. -/
def uses (m : Member) : List String := m.main :: ((Wgsl.places m.code).map m.nameAt ++ m.valueNames)

/-- The name that the unit takes from outside at a place, if it does: the uniform block, or a name that is not its own. -/
def outsideAt (m : Member) (p : Wgsl.Place) : Option String :=
  if p.renamable && m.own.contains p.name then none
  else if p.renamable && (m.uniforms.map Prod.fst).contains p.name then some "fx"
  else some p.name

/-- The names that the unit takes from outside. -/
def outside (m : Member) : List String := (Wgsl.places m.code).filterMap m.outsideAt ++ m.valueNames

end Member

/-! ## Two members -/

/-- Two members bring different names, and the program uses none of either on behalf of the other. -/
structure Strangers (m k : Member) : Prop where
  distinct : ∀ n ∈ m.contributed, n ∉ k.contributed
  unused_left : ∀ n ∈ m.contributed, n ∉ k.uses
  unused_right : ∀ n ∈ k.contributed, n ∉ m.uses

/-- No value of a member is a name that another brings, and neither takes from outside what the other brings. -/
structure Separate (m k : Member) : Prop where
  values_left : ∀ n ∈ m.values, n ∉ k.contributed
  values_right : ∀ n ∈ k.values, n ∉ m.fused
  outside_left : ∀ n ∈ m.contributed, n ∉ k.outside
  outside_right : ∀ n ∈ k.contributed, n ∉ m.outside

instance (m k : Member) : Decidable (Strangers m k) :=
  decidable_of_iff ((∀ n ∈ m.contributed, n ∉ k.contributed) ∧ (∀ n ∈ m.contributed, n ∉ k.uses) ∧
      ∀ n ∈ k.contributed, n ∉ m.uses)
    ⟨fun h => ⟨h.1, h.2.1, h.2.2⟩, fun h => ⟨h.1, h.2, h.3⟩⟩

instance (m k : Member) : Decidable (Separate m k) :=
  decidable_of_iff ((∀ n ∈ m.values, n ∉ k.contributed) ∧ (∀ n ∈ k.values, n ∉ m.fused) ∧
      (∀ n ∈ m.contributed, n ∉ k.outside) ∧ ∀ n ∈ k.contributed, n ∉ m.outside)
    ⟨fun h => ⟨h.1, h.2.1, h.2.2.1, h.2.2.2⟩, fun h => ⟨h.1, h.2, h.3, h.4⟩⟩

namespace Sound

variable {m : Member} {n : String}

theorem main_mem_fused (h : Sound m) : m.main ∈ m.fused := by
  have hown : "main_image" ∈ m.own := List.mem_append_right _ h.main_mem
  have hlength : m.own.length ≤ m.fused.length := by
    simp [Member.fused, length_freshNames, Member.bases, Member.own]
  have hfst : "main_image" ∈ (m.own.zip m.fused).map Prod.fst := by rwa [List.map_fst_zip hlength]
  obtain ⟨⟨k, text⟩, hmem, rfl⟩ := List.mem_map.1 hfst
  rw [Member.main, h.substitute_own hmem]
  exact (List.of_mem_zip hmem).2

/-- Either nothing is taken from outside at a place, and a name that was made for the unit stands there, or what is taken
from outside stands there. -/
theorem nameAt_cases (h : Sound m) (p : Wgsl.Place) :
    m.outsideAt p = none ∧ m.nameAt p ∈ m.fused ∨ m.outsideAt p = some (m.nameAt p) := by
  unfold Member.nameAt Member.outsideAt Wgsl.Place.replacement
  cases hp : p.renamable with
  | false => exact .inr rfl
  | true =>
    simp only [Bool.true_and, if_true]
    cases hn : m.substitute p.name with
    | none =>
      obtain ⟨huniform, hown⟩ := Member.substitute_eq_none_iff.1 hn
      rw [if_neg (by simpa using hown), if_neg (by simpa using huniform)]
      exact .inr rfl
    | some text =>
      rcases Member.substitute_cases hn with ⟨huniform, hroot⟩ | hown
      · -- A uniform is not one of the unit's own names, so it is replaced by a read of the block.
        have hnot : p.name ∉ m.own := fun hown => (List.nodup_append.1 h.distinct).2.2 _ huniform _ hown rfl
        rw [if_neg (by simpa using hnot), if_pos (List.contains_iff_mem.2 huniform)]
        exact .inr (by rw [Option.map_some, Option.getD_some, hroot])
      · obtain ⟨hown, hfused⟩ := List.of_mem_zip hown
        rw [if_pos (List.contains_iff_mem.2 hown), Option.map_some, Option.getD_some, h.root_fused hfused]
        exact .inl ⟨rfl, hfused⟩

/-- What a unit takes from outside at a place stands there in the program. -/
theorem outsideAt_eq (h : Sound m) {p : Wgsl.Place} (hp : m.outsideAt p = some n) : m.nameAt p = n := by
  rcases h.nameAt_cases p with ⟨hnone, -⟩ | hsome
  · rw [hnone] at hp
    cases hp
  · exact Option.some.inj (hsome.symm.trans hp)

theorem mem_uses (h : Sound m) (hn : n ∈ m.uses) : n ∈ m.fused ∨ n ∈ m.outside := by
  rcases List.mem_cons.1 hn with rfl | hn
  · exact .inl h.main_mem_fused
  · rcases List.mem_append.1 hn with hn | hn
    · obtain ⟨p, hp, rfl⟩ := List.mem_map.1 hn
      rcases h.nameAt_cases p with ⟨-, hfused⟩ | houtside
      · exact .inl hfused
      · exact .inr (List.mem_append_left _ (List.mem_filterMap.2 ⟨p, hp, houtside⟩))
    · exact .inr (List.mem_append_right _ hn)

theorem outside_subset_uses (h : Sound m) : m.outside ⊆ m.uses := by
  intro n hn
  refine List.mem_cons_of_mem _ ?_
  rcases List.mem_append.1 hn with hn | hn
  · obtain ⟨p, hp, houtside⟩ := List.mem_filterMap.1 hn
    exact List.mem_append_left _ (List.mem_map.2 ⟨p, hp, h.outsideAt_eq houtside⟩)
  · exact List.mem_append_right _ hn

end Sound

theorem Separate.strangers {m k : Member} (hm : Sound m) (hk : Sound k) (hfused : ∀ n ∈ m.fused, n ∉ k.fused)
    (h : Separate m k) : Strangers m k := by
  have hdistinct : ∀ n ∈ m.contributed, n ∉ k.contributed := by
    intro n hn hmem
    rcases List.mem_append.1 hn with hn | hn
    · rcases List.mem_append.1 hmem with hmem | hmem
      · exact hfused n hn hmem
      · exact h.values_right n hmem hn
    · exact h.values_left n hn hmem
  refine ⟨hdistinct, fun n hn huses => ?_, fun n hn huses => ?_⟩
  · rcases hk.mem_uses huses with hmem | hmem
    · exact hdistinct n hn (List.mem_append_left _ hmem)
    · exact h.outside_left n hn hmem
  · rcases hm.mem_uses huses with hmem | hmem
    · exact hdistinct n (List.mem_append_left _ hmem) hn
    · exact h.outside_right n hn hmem

theorem Strangers.separate {m k : Member} (hm : Sound m) (hk : Sound k) (h : Strangers m k) : Separate m k where
  values_left n hn := h.distinct n (List.mem_append_right _ hn)
  values_right n hn hmem := h.distinct n (List.mem_append_left _ hmem) (List.mem_append_right _ hn)
  outside_left n hn hmem := h.unused_left n hn (hk.outside_subset_uses hmem)
  outside_right n hn hmem := h.unused_right n hn (hm.outside_subset_uses hmem)

/-! ## The scaffold -/

/-- The names that the scaffold and the blend library declare or use at module scope, those of built-in values in
attributes apart.  The entry point also calls the units. -/
def scaffoldNames (source : ProgramSource) : List String :=
  ((Wgsl.places (moduleText source.label source.slots [] [] source.readsDepth (!source.forcesAlpha)).toList).map
    Wgsl.Place.name).filter fun n => !(["position", "vertex_index"].contains n)

/-- Those of them that are not the scaffold's own. -/
def languageNames (source : ProgramSource) : List String :=
  (scaffoldNames source).filter fun n => !beginsWith "fx_" n && !reservedNames.contains n

theorem Sound.fused_mem_scaffoldNames {m : Member} {source : ProgramSource} {n : String} (h : Sound m)
    (hn : n ∈ m.fused) : n ∈ scaffoldNames source ↔ n ∈ languageNames source := by
  have hfx := h.fused_not_fx hn
  have hreserved := h.fused_not_mem hn
  unfold languageNames
  rw [List.mem_filter]
  exact ⟨fun hmem => ⟨hmem, by simp [hfx, hreserved]⟩, fun hmem => hmem.1⟩

/-! ## Whole programs -/

section Programs

variable {label : String} {units : List FuseUnit} {options : FuseOptions} {source : ProgramSource}

theorem pairwise_strangers_iff (h : (fuse label units options).2 = .ok source) :
    (members options units).Pairwise Strangers ↔ (members options units).Pairwise Separate := by
  have hsound := (fuse_members h).2
  constructor
  · intro hms
    exact hms.imp_of_mem fun hm hk hstrangers => hstrangers.separate (hsound _ hm) (hsound _ hk)
  · intro hms
    have hfused := fused_disjoint options 0 (units.zip (planUnits 0 units frameSlots).1) reservedNames
    exact (hfused.and hms).imp_of_mem fun hm hk hboth => hboth.2.strangers (hsound _ hm) (hsound _ hk) hboth.1

/-- Units are strangers if their texts declare no values outside of functions and take from outside only the scaffold's
names and names that no unit brings. -/
theorem strangers_of_selfContained (h : (fuse label units options).2 = .ok source) (given : List String)
    (hvalues : ∀ m ∈ members options units, m.values = [])
    (houtside : ∀ m ∈ members options units, ∀ n ∈ m.outside,
      beginsWith "fx_" n = true ∨ n ∈ reservedNames ∨ n ∈ given)
    (hgiven : ∀ m ∈ members options units, ∀ n ∈ m.fused, n ∉ given) :
    (members options units).Pairwise Strangers := by
  have hsound := (fuse_members h).2
  have hunseen {m k : Member} (hm : m ∈ members options units) (hk : k ∈ members options units) :
      ∀ n ∈ m.contributed, n ∉ k.outside := by
    intro n hn hmem
    rw [Member.contributed, hvalues m hm, List.append_nil] at hn
    rcases houtside k hk n hmem with hfx | hreserved | hmem
    · exact absurd hfx (by simp [(hsound m hm).fused_not_fx hn])
    · exact (hsound m hm).fused_not_mem hn hreserved
    · exact hgiven m hm n hn hmem
  rw [pairwise_strangers_iff h, List.pairwise_iff_forall_sublist]
  intro m k hsub
  have hm : m ∈ members options units := hsub.subset List.mem_cons_self
  have hk : k ∈ members options units := hsub.subset (List.mem_cons_of_mem _ List.mem_cons_self)
  refine ⟨?_, ?_, hunseen hm hk, hunseen hk hm⟩
  · rw [hvalues m hm]
    exact nofun
  · rw [hvalues k hk]
    exact nofun

end Programs

/-! ## Units with names in common -/

/-- Two units with the same function, uniform and define. -/
def twins : List FuseUnit :=
  ["a", "b"].map fun name => unitOf name
    "fn f() -> vec4f \x7breturn t*K;\x7d fn main_image(c: vec4f, p: vec2f) -> vec4f \x7breturn c*f();\x7d"
    [("t", .vec4 .zero .zero .zero .zero)] [("K", "0.5")]

/-- Two units whose texts declare a value of the same name. -/
def valueTwins : List FuseUnit :=
  ["a", "b"].map fun name => unitOf name
    "const K = 0.5; fn main_image(c: vec4f, p: vec2f) -> vec4f \x7breturn c*K;\x7d" [] []

end ScreenFusion.Fusion
