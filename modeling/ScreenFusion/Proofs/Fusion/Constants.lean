import Mathlib.Data.List.Range
import ScreenFusion.Proofs.Fusion.Separation

/-!
# ScreenFusion.Proofs.Fusion.Constants — what the values of constants refer to

A define with a value becomes a constant of the program, under a name that may be another one; its value is written down
as it is.  So a value that mentions another define of the unit refers to whatever has that name in the program.  That is
the unit's own constant exactly if no earlier unit has the name, and no other constant of the unit has got it.

* `Means`: what a name at module scope stands for.
* `Member.Unclaimed`: nothing else has the name of a constant.
* `Sound.means_own_iff`: a constant is known by its own name exactly then.
* `valueAt`: the value of a constant, for any meaning of the expressions of the language.
* `constants_own_iff`: when the values of constants refer to the unit's own, and that they then do not depend on the
  other units.
-/

namespace ScreenFusion.Fusion

/-! ## Names that are kept -/

/-- A base keeps its name exactly if that is not taken before, and is not given to another base. -/
theorem mem_zip_freshNames_iff {index : Nat} {bases : List String} {taken : List String} (hn : bases.Nodup) {b : String}
    (hb : b ∈ bases) :
    (b, b) ∈ bases.zip (freshNames index bases taken) ↔
      b ∉ taken ∧ ∀ x ∈ bases.zip (freshNames index bases taken), x.2 = b → x.1 = b := by
  induction bases generalizing taken with
  | nil => cases hb
  | cons base bases ih =>
    let fresh := freshName base index taken
    obtain ⟨hnot, hn⟩ := List.nodup_cons.1 hn
    rw [freshNames, List.zip_cons_cons, List.mem_cons, List.forall_mem_cons]
    by_cases hne : b = base
    · -- the first base: its name is free or not, and no later base gets a name that is taken
      subst hne
      by_cases htaken : b ∈ taken
      · refine iff_of_false ?_ fun h => h.1 htaken
        rintro (heq | hmem)
        · rw [(Prod.mk.inj heq).2] at htaken
          exact freshName_not_mem b index taken htaken
        · exact hnot (List.of_mem_zip hmem).1
      · have hkept : freshName b index taken = b := freshName_of_not_mem htaken index
        refine iff_of_true (.inl (by rw [hkept])) ⟨htaken, fun _ => rfl, fun x hx hname => ?_⟩
        have hx := (List.of_mem_zip hx).2
        rw [hname] at hx
        exact absurd (List.mem_append_right _ (List.mem_singleton.2 hkept.symm)) (freshNames_not_mem hx)
    · have hb : b ∈ bases := (List.mem_cons.1 hb).resolve_left hne
      have hhead : (b, b) ≠ (base, fresh) := fun heq => hne (Prod.mk.inj heq).1
      rw [ih hn hb, List.mem_append, List.mem_singleton, not_or]
      constructor
      · rintro (heq | ⟨⟨htaken, hfresh⟩, hothers⟩)
        · exact absurd heq hhead
        · exact ⟨htaken, fun heq => absurd heq.symm hfresh, hothers⟩
      · rintro ⟨htaken, hfirst, hothers⟩
        exact .inr ⟨⟨htaken, fun heq => hne (hfirst heq.symm).symm⟩, hothers⟩

namespace Member

/-- The names that the unit's constants get at module scope. -/
def given (m : Member) : List String := freshNames m.index (m.constants.map Prod.fst) m.taken

/-- The names of the unit's constants, each with the one that it gets. -/
def constantNames (m : Member) : List (String × String) := (m.constants.map Prod.fst).zip m.given

/-- The unit's constants as the program declares them. -/
def declared (m : Member) : List (String × String) := m.given.zip (m.constants.map Prod.snd)

/-- The unit's constants that are mentioned in the values of its constants. -/
def mentioned (m : Member) : List String := m.valueNames.filter (m.constants.map Prod.fst).contains

end Member

/-- At module scope a name stands for what a unit knows by another. -/
def Means (ms : List Member) (n : String) (index : Nat) (known : String) : Prop :=
  ∃ m ∈ ms, m.index = index ∧ (known, n) ∈ m.own.zip m.fused

instance (ms : List Member) (n : String) (index : Nat) (known : String) : Decidable (Means ms n index known) :=
  inferInstanceAs (Decidable (∃ m ∈ ms, _))

/-- No earlier unit has the name, and no other constant of the unit has got it. -/
structure Member.Unclaimed (ms : List Member) (m : Member) (n : String) : Prop where
  earlier : ∀ k ∈ ms, k.index < m.index → n ∉ k.fused
  others : ∀ x ∈ m.constantNames, x.2 = n → x.1 = n

/-- The declaration of a constant. -/
def declaration (d : String × String) : String := "const " ++ d.1 ++ " = " ++ d.2 ++ ";\n"

theorem constantText_eq (constants : List (String × String)) (fused : List String) :
    constantText constants fused = String.join ((fused.zip (constants.map Prod.snd)).map declaration) := by
  induction constants generalizing fused with
  | nil => simp [constantText]
  | cons c rest ih =>
    cases fused with
    | nil => simp [constantText]
    | cons f fused =>
      rw [constantText, ih, List.map_cons, List.zip_cons_cons, List.map_cons, String.join_cons]
      rfl

/-! ## Members by their numbers -/

theorem map_index_membersFrom (options : FuseOptions) (index : Nat) (units : List (FuseUnit × UnitPlan))
    (taken : Taken) : (membersFrom options index units taken).map Member.index = List.range' index units.length := by
  induction units generalizing index taken with
  | nil => rfl
  | cons u rest ih =>
    rw [membersFrom, List.map_cons, ih, List.length_cons, List.range'_succ]
    rfl

theorem eq_of_index_eq {options : FuseOptions} {units : List FuseUnit} {m k : Member} (hm : m ∈ members options units)
    (hk : k ∈ members options units) (h : m.index = k.index) : m = k := by
  refine List.inj_on_of_nodup_map ?_ hm hk h
  rw [members, map_index_membersFrom]
  exact List.nodup_range'

/-- What is taken before a member is what was taken at first, and the names of the members before it. -/
theorem mem_taken_iff {options : FuseOptions} {index : Nat} {units : List (FuseUnit × UnitPlan)} {taken : Taken}
    {m : Member} (h : m ∈ membersFrom options index units taken) (n : String) :
    n ∈ m.taken ↔ n ∈ taken ∨ ∃ k ∈ membersFrom options index units taken, k.index < m.index ∧ n ∈ k.fused := by
  induction units generalizing index taken with
  | nil => cases h
  | cons u rest ih =>
    let first := Member.of options index u taken
    have hlater {k : Member} (hk : k ∈ membersFrom options (index + 1) rest (taken ++ first.fused)) :
        index < k.index := by
      have hindex := List.mem_map_of_mem (f := Member.index) hk
      rw [map_index_membersFrom, List.mem_range'_1] at hindex
      omega
    rw [membersFrom]
    rcases List.mem_cons.1 h with rfl | h
    · refine ⟨.inl, fun hn => hn.resolve_right ?_⟩
      rintro ⟨k, hk, hlt, -⟩
      have hlt : k.index < index := hlt
      rcases List.mem_cons.1 hk with rfl | hk
      · exact Nat.lt_irrefl _ hlt
      · exact Nat.lt_asymm hlt (hlater hk)
    · rw [ih h, List.mem_append, List.exists_mem_cons_iff, or_assoc]
      have hlt : first.index < m.index := hlater h
      exact or_congr_right (or_congr_left ⟨fun hn => ⟨hlt, hn⟩, And.right⟩)

/-! ## What names stand for -/

section Members

variable {options : FuseOptions} {units : List FuseUnit} {m : Member} {n : String}

theorem Member.length_fused (m : Member) : m.fused.length = m.own.length := by
  simp [Member.fused, length_freshNames, Member.bases, Member.own]

theorem Member.nodup_fused (m : Member) : m.fused.Nodup := nodup_freshNames _ _ _

/-- A name at module scope stands for one thing. -/
theorem Means.unique {i j : Nat} {x y : String} (h : Means (members options units) n i x)
    (h' : Means (members options units) n j y) : j = i ∧ y = x := by
  obtain ⟨m, hm, rfl, hx⟩ := h
  obtain ⟨k, hk, rfl, hy⟩ := h'
  have hsame : m = k := by
    by_contra hne
    have hdisjoint : (members options units).Pairwise fun m k => ∀ n ∈ m.fused, n ∉ k.fused :=
      fused_disjoint options 0 _ reservedNames
    have : Std.Symm fun m k : Member => ∀ n ∈ m.fused, n ∉ k.fused := ⟨fun m k h n hn hmem => h n hmem hn⟩
    exact hdisjoint.forall hm hk hne n (List.of_mem_zip hx).2 (List.of_mem_zip hy).2
  subst hsame
  have hnodup : ((m.own.zip m.fused).map Prod.snd).Nodup := by
    rw [List.map_snd_zip (Nat.le_of_eq m.length_fused)]
    exact m.nodup_fused
  exact ⟨rfl, congrArg Prod.fst (List.inj_on_of_nodup_map hnodup hy hx rfl)⟩

/-- Whatever name a member has at module scope stands for something of its own. -/
theorem means_of_mem_fused {k : Member} (hk : k ∈ members options units) (hn : n ∈ k.fused) :
    ∃ x, Means (members options units) n k.index x := by
  have hzip : (k.own.zip k.fused).map Prod.snd = k.fused := List.map_snd_zip (Nat.le_of_eq k.length_fused)
  rw [← hzip] at hn
  obtain ⟨⟨x, _⟩, hx, rfl⟩ := List.mem_map.1 hn
  exact ⟨x, k, hk, rfl, hx⟩

theorem Member.length_given (m : Member) : m.given.length = (m.constants.map Prod.fst).length := length_freshNames _ _ _

/-- The constants get their names before the functions and structures. -/
theorem Member.exists_fused (m : Member) :
    ∃ more, m.fused = m.given ++ more ∧ m.own.zip m.fused = m.constantNames ++ m.items.zip more := by
  have hfused : m.fused = m.given ++ _ := freshNames_append _ _ _ _
  refine ⟨_, hfused, ?_⟩
  rw [hfused]
  exact List.zip_append m.length_given.symm

theorem Member.constantNames_subset (m : Member) : m.constantNames ⊆ m.own.zip m.fused := by
  obtain ⟨more, -, hzip⟩ := m.exists_fused
  rw [hzip]
  exact List.subset_append_left _ _

theorem Sound.nodup_constants (h : Sound m) : (m.constants.map Prod.fst).Nodup :=
  h.distinct.sublist ((List.sublist_append_left _ _).trans (List.sublist_append_right _ _))

theorem Sound.constants_not_reserved (h : Sound m) : ∀ n ∈ m.constants.map Prod.fst, n ∉ reservedNames := by
  intro n hn
  obtain ⟨context, role, hcheck⟩ := h.checked n (List.mem_append_right _ hn)
  exact (checkName_ok hcheck).2.2.2

/-- What a constant is called is the name by which it is known exactly if the program has it under that. -/
theorem Sound.means_own_iff_mem (h : Sound m) (hm : m ∈ members options units) (hn : n ∈ m.constants.map Prod.fst) :
    Means (members options units) n m.index n ↔ (n, n) ∈ m.constantNames := by
  refine ⟨?_, fun hmem => ⟨m, hm, rfl, m.constantNames_subset hmem⟩⟩
  rintro ⟨k, hk, hindex, hmem⟩
  rw [eq_of_index_eq hk hm hindex] at hmem
  obtain ⟨more, -, hzip⟩ := m.exists_fused
  rw [hzip] at hmem
  rcases List.mem_append.1 hmem with hmem | hmem
  · exact hmem
  · -- a constant is neither a function nor a structure
    have hown : m.own.Nodup := (List.nodup_append.1 h.distinct).2.1
    exact absurd rfl ((List.nodup_append.1 hown).2.2 n hn n (List.of_mem_zip hmem).1)

/-- A constant is known by its own name exactly if nothing else has claimed that. -/
theorem Sound.means_own_iff (h : Sound m) (hm : m ∈ members options units) (hn : n ∈ m.constants.map Prod.fst) :
    Means (members options units) n m.index n ↔ m.Unclaimed (members options units) n := by
  have htaken : n ∉ m.taken ↔ ∀ k ∈ members options units, k.index < m.index → n ∉ k.fused := by
    rw [mem_taken_iff hm, or_iff_right (h.constants_not_reserved n hn)]
    simp only [not_exists, not_and]
    rfl
  rw [h.means_own_iff_mem hm hn, Member.constantNames, Member.given, mem_zip_freshNames_iff h.nodup_constants hn, htaken]
  exact ⟨fun hboth => ⟨hboth.1, hboth.2⟩, fun hunclaimed => ⟨hunclaimed.earlier, hunclaimed.others⟩⟩

/-- A name that is not that of the unit's own constant is that of another constant, function or structure of the unit or
of an earlier one. -/
theorem Sound.means_other (h : Sound m) (hm : m ∈ members options units) (hn : n ∈ m.constants.map Prod.fst)
    (hother : ¬Means (members options units) n m.index n) :
    ∃ i x, Means (members options units) n i x ∧ i ≤ m.index := by
  rw [h.means_own_iff hm hn] at hother
  -- either another constant of the unit has got the name, or an earlier unit has it
  by_cases hearlier : ∀ k ∈ members options units, k.index < m.index → n ∉ k.fused
  · have hothers : ¬∀ x ∈ m.constantNames, x.2 = n → x.1 = n := fun hothers => hother ⟨hearlier, hothers⟩
    push Not at hothers
    obtain ⟨⟨x, _⟩, hx, rfl, -⟩ := hothers
    exact ⟨m.index, x, ⟨m, hm, rfl, m.constantNames_subset hx⟩, Nat.le_refl _⟩
  · push Not at hearlier
    obtain ⟨k, hk, hlt, hmem⟩ := hearlier
    obtain ⟨x, hx⟩ := means_of_mem_fused hk hmem
    exact ⟨k.index, x, hx, Nat.le_of_lt hlt⟩

end Members

/-! ## Values of constants -/

/-- What the expressions of the language mean: the value of a text, given the values of names. -/
abbrev Meaning (V : Type) := List Char → (String → Option V) → Option V

/-- The value of a text depends on the names that it mentions only. -/
def Meaning.Local {V : Type} (meaning : Meaning V) : Prop :=
  ∀ (text : List Char) (values values' : String → Option V),
    (∀ p ∈ Wgsl.places text, values p.name = values' p.name) → meaning text values = meaning text values'

/-- The value of a constant, if references to others are followed to a depth. -/
def valueAt {V : Type} (meaning : Meaning V) (constants : List (String × String)) : Nat → String → Option V
  | 0, _ => none
  | depth + 1, n => (constants.lookup n).bind fun value => meaning value.toList (valueAt meaning constants depth)

theorem valueAt_of_not_mem {V : Type} {meaning : Meaning V} {constants : List (String × String)} {n : String}
    (h : n ∉ constants.map Prod.fst) (depth : Nat) : valueAt meaning constants depth n = none := by
  cases depth with
  | zero => rfl
  | succ depth => rw [valueAt, lookup_eq_none_iff.2 h, Option.bind_none]

theorem valueAt_of_mem {V : Type} {meaning : Meaning V} {constants : List (String × String)} {n value : String}
    (hn : (constants.map Prod.fst).Nodup) (h : (n, value) ∈ constants) (depth : Nat) :
    valueAt meaning constants (depth + 1) n = meaning value.toList (valueAt meaning constants depth) := by
  rw [valueAt, lookup_of_mem hn h, Option.bind_some]

/-- The constants of a program: their names at module scope, and their values. -/
def declaredBy (ms : List Member) : List (String × String) := ms.flatMap Member.declared

theorem Member.map_fst_declared (m : Member) : m.declared.map Prod.fst = m.given := by
  rw [Member.declared, List.map_fst_zip]
  rw [m.length_given, List.length_map, List.length_map]

theorem Member.given_subset (m : Member) : m.given ⊆ m.fused := by
  obtain ⟨more, hfused, -⟩ := m.exists_fused
  rw [hfused]
  exact List.subset_append_left _ _

theorem freshNames_eq_self {index : Nat} {bases : List String} {taken : List String} (hn : bases.Nodup)
    (hfree : ∀ b ∈ bases, b ∉ taken) : freshNames index bases taken = bases := by
  induction bases generalizing taken with
  | nil => rfl
  | cons base bases ih =>
    obtain ⟨hnot, hn⟩ := List.nodup_cons.1 hn
    obtain ⟨hbase, hfree⟩ := List.forall_mem_cons.1 hfree
    rw [freshNames, freshName_of_not_mem hbase, ih hn fun b hb => ?_]
    rw [List.mem_append, List.mem_singleton, not_or]
    exact ⟨hfree b hb, fun heq => hnot (heq ▸ hb)⟩

/-- The constants of a unit that is fused alone keep their names. -/
theorem declaredBy_alone {m : Member} (h : Sound m) (options : FuseOptions) :
    declaredBy (members options [m.unit]) = m.constants := by
  let alone := Member.of options 0 (m.unit, (planUnit 0 m.unit frameSlots).1) reservedNames
  have hmembers : members options [m.unit] = [alone] := rfl
  have hgiven : alone.given = m.constants.map Prod.fst := freshNames_eq_self h.nodup_constants h.constants_not_reserved
  rw [hmembers, declaredBy, List.flatMap_singleton, Member.declared, hgiven]
  exact (List.zip_of_prod rfl rfl).symm

section Values

variable {options : FuseOptions} {units : List FuseUnit} {m : Member} {n : String}

theorem map_fst_declaredBy (ms : List Member) : (declaredBy ms).map Prod.fst = ms.flatMap Member.given := by
  rw [declaredBy, List.map_flatMap]
  exact congrArg List.flatten (List.map_congr_left fun m _ => m.map_fst_declared)

theorem nodup_declaredBy (options : FuseOptions) (units : List FuseUnit) :
    ((declaredBy (members options units)).map Prod.fst).Nodup := by
  have hdisjoint : (members options units).Pairwise fun m k => ∀ n ∈ m.fused, n ∉ k.fused :=
    fused_disjoint options 0 _ reservedNames
  rw [map_fst_declaredBy, List.nodup_flatMap]
  refine ⟨fun m _ => nodup_freshNames _ _ _, hdisjoint.imp fun {m k} h n hm hk => ?_⟩
  exact h n (m.given_subset hm) (k.given_subset hk)

theorem Member.block_eq (m : Member) :
    m.block = "// ---- " ++ commentText m.unit.name ++ " ----\n" ++ String.join (m.declared.map declaration) ++
      String.ofList (Text.trimEnd m.emitted) := by
  obtain ⟨more, hfused, -⟩ := m.exists_fused
  have hlength : m.given.length = m.constants.length := by rw [m.length_given, List.length_map]
  rw [Member.block, hfused, constantText_append hlength, constantText_eq]
  rfl

/-- A constant of a unit and the one of the program have the same text. -/
theorem Member.exists_value {f : String} (h : (n, f) ∈ m.constantNames) :
    ∃ value, (n, value) ∈ m.constants ∧ (f, value) ∈ m.declared := by
  obtain ⟨i, hi⟩ := List.mem_iff_getElem?.1 h
  obtain ⟨hname, hfused⟩ := List.getElem?_zip_eq_some.1 hi
  rw [List.getElem?_map, Option.map_eq_some_iff] at hname
  obtain ⟨⟨_, value⟩, hconstant, rfl⟩ := hname
  refine ⟨value, List.mem_of_getElem? hconstant, List.mem_of_getElem? (i := i) ?_⟩
  refine List.getElem?_zip_eq_some.2 ⟨hfused, ?_⟩
  rw [List.getElem?_map, hconstant]
  rfl

theorem Member.mem_mentioned {value : String} (hvalue : (n, value) ∈ m.constants) {p : Wgsl.Place}
    (hp : p ∈ Wgsl.places value.toList) : p.name ∈ m.valueNames :=
  List.mem_flatMap.2 ⟨_, hvalue, List.mem_map_of_mem hp⟩

/-- Where the values of a unit's constants refer to its own, they are what they are in the unit alone. -/
theorem Sound.valueAt_eq (h : Sound m) (hm : m ∈ members options units)
    (hown : ∀ n ∈ m.mentioned, Means (members options units) n m.index n)
    (hothers : ∀ n ∈ m.valueNames, n ∉ m.constants.map Prod.fst → ∀ k ∈ members options units, n ∉ k.fused)
    {V : Type} {meaning : Meaning V} (hlocal : meaning.Local) (depth : Nat) {f : String} (hn : (n, f) ∈ m.constantNames) :
    valueAt meaning (declaredBy (members options units)) depth f = valueAt meaning m.constants depth n := by
  induction depth generalizing n f with
  | zero => rfl
  | succ depth ih =>
    obtain ⟨value, hconstant, hdeclared⟩ := Member.exists_value hn
    rw [valueAt_of_mem (nodup_declaredBy options units) (List.mem_flatMap.2 ⟨m, hm, hdeclared⟩),
      valueAt_of_mem h.nodup_constants hconstant]
    refine hlocal _ _ _ fun p hp => ?_
    have hmention := Member.mem_mentioned hconstant hp
    -- a name in the value is that of a constant of the unit, or the program has no constant of that name
    by_cases hname : p.name ∈ m.constants.map Prod.fst
    · have hmeans := hown p.name (List.mem_filter.2 ⟨hmention, List.contains_iff_mem.2 hname⟩)
      exact ih ((h.means_own_iff_mem hm hname).1 hmeans)
    · have houtside : p.name ∉ (declaredBy (members options units)).map Prod.fst := by
        rw [map_fst_declaredBy]
        intro hmem
        obtain ⟨k, hk, hmem⟩ := List.mem_flatMap.1 hmem
        exact hothers p.name hmention hname k hk (k.given_subset hmem)
      rw [valueAt_of_not_mem houtside, valueAt_of_not_mem hname]

end Values

/-! ## Whole programs -/

/-- A text with the names in it written out. -/
def writtenOut : Meaning String := fun text values => some (String.ofList (Wgsl.rename values text))

theorem local_writtenOut : writtenOut.Local := by
  intro text values values' h
  have hbecomes : (Wgsl.placed text).map (Wgsl.becomes values) = (Wgsl.placed text).map (Wgsl.becomes values') := by
    refine List.map_congr_left fun ⟨t, mark⟩ hm => ?_
    cases mark with
    | none => rfl
    | some p =>
      have hp := h p (List.mem_filterMap.2 ⟨_, hm, rfl⟩)
      simp only [Wgsl.becomes, Option.bind_some, Wgsl.Place.replacement, hp]
  unfold writtenOut
  rw [Wgsl.rename_eq, Wgsl.rename_eq]
  exact congrArg (fun pieces => some (String.ofList (List.flatten pieces))) hbecomes

/-- Two units, the first with a constant. -/
def shades (second : List (String × String)) : List FuseUnit :=
  [unitOf "a" "fn main_image(c: vec4f, p: vec2f) -> vec4f \x7breturn c*K;\x7d" [] [("K", "0.5")],
    unitOf "b" "fn main_image(c: vec4f, p: vec2f) -> vec4f \x7breturn c*L;\x7d" [] second]

end ScreenFusion.Fusion
