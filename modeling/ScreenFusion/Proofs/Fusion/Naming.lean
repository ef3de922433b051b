import ScreenFusion.Act
import ScreenFusion.Fusion.Basic
import ScreenFusion.Proofs.Fusion.Fresh

/-!
# ScreenFusion.Proofs.Fusion.Naming — the names that a program gives to its units

A valued define, a function or a structure of a unit gets a name at module scope that no earlier unit has and that the
scaffold does not own.  The names of a whole program are settled unit by unit.

* `Member`, `members`: the units of a program, each with its text and the names taken before it.
* `Sound`: what is known of the names of a member of a program.
* `fuse_members`: the text of a program is made of the blocks and calls of its members, and its members are sound.
-/

namespace ScreenFusion.Fusion

/-! ## Members of a program -/

/-- The defines that have a value. -/
def valued : List (String × String) → List (String × String)
  | [] => []
  | (name, value) :: rest =>
    if (Text.trim value.toList).isEmpty then valued rest
    else (name, String.ofList (Text.trim value.toList)) :: valued rest

/-- The declarations of constants with the given values and names. -/
def constantText : List (String × String) → List String → String
  | (_, value) :: rest, fused :: more => "const " ++ fused ++ " = " ++ value ++ ";\n" ++ constantText rest more
  | _, _ => ""

/-- A unit in a program. -/
structure Member where
  index : Nat
  unit : FuseUnit
  plan : UnitPlan
  /-- The unit's text after its conditionals. -/
  code : List Char
  /-- The names at module scope that are taken before the unit. -/
  taken : Taken

namespace Member

def uniforms (m : Member) : Substitutes := uniformSubstitutes m.unit.uniforms.entries m.plan.uniforms

/-- The unit's defines that have a value. -/
def constants (m : Member) : List (String × String) := valued m.unit.defines.entries

/-- The unit's functions and structures. -/
def items (m : Member) : List String := Wgsl.declaredItems m.code

/-- The unit's names that get a name at module scope. -/
def own (m : Member) : List String := m.constants.map Prod.fst ++ m.items

/-- What the names at module scope are made from. -/
def bases (m : Member) : List String :=
  m.constants.map Prod.fst ++ m.items.map fun item => s!"e{m.index}_{item}"

/-- The names that the unit's own get at module scope. -/
def fused (m : Member) : List String := freshNames m.index m.bases m.taken

def substitutes (m : Member) : Substitutes := m.uniforms ++ m.own.zip m.fused

def substitute (m : Member) (n : String) : Option String := m.substitutes.lookup n

/-- The unit's text in the program. -/
def emitted (m : Member) : List Char := Wgsl.rename m.substitute m.code

/-- The name by which the program calls the unit. -/
def main (m : Member) : String := (m.substitute "main_image").getD "main_image"

def block (m : Member) : String :=
  "// ---- " ++ commentText m.unit.name ++ " ----\n" ++ constantText m.constants m.fused ++
    String.ofList (Text.trimEnd m.emitted)

def call (m : Member) : String := callText m.plan.blend m.main m.unit.attributes.readsDepth

/-- A unit with its slots, where the given names are taken. -/
def of (options : FuseOptions) (index : Nat) (u : FuseUnit × UnitPlan) (taken : Taken) : Member :=
  let code := Wgsl.selectText (options.precision.define :: u.1.defines.names) u.1.shader.toList
  ⟨index, u.1, u.2, code.toOption.getD [], taken⟩

end Member

/-- The members of a program, numbered from `index`. -/
def membersFrom (options : FuseOptions) : Nat → List (FuseUnit × UnitPlan) → Taken → List Member
  | _, [], _ => []
  | index, u :: rest, taken =>
    let m := Member.of options index u taken
    m :: membersFrom options (index + 1) rest (taken ++ m.fused)

/-- The members of the program of units. -/
def members (options : FuseOptions) (units : List FuseUnit) : List Member :=
  membersFrom options 0 (units.zip (planUnits 0 units frameSlots).1) reservedNames

/-! ## What is known of the names -/

/-- What is known of the names of a member of a program. -/
structure Sound (m : Member) : Prop where
  /-- Uniforms and defines have passed their check. -/
  checked : ∀ n ∈ m.uniforms.map Prod.fst ++ m.constants.map Prod.fst,
    ∃ context role, checkName context role n = .ok ()
  items : ∀ n ∈ m.items, beginsWith "fx_" n = false
  /-- No name stands for two things. -/
  distinct : (m.uniforms.map Prod.fst ++ m.own).Nodup
  main_mem : "main_image" ∈ m.items
  reserved : reservedNames ⊆ m.taken

theorem checkUniforms_ok {context : String} {names : List String} (h : checkUniforms context names = .ok ()) :
    ∀ n ∈ names, checkName context .uniform n = .ok () := by
  induction names with
  | nil => exact nofun
  | cons n names ih =>
    rw [checkUniforms] at h
    obtain ⟨_, hn, h⟩ := ok_of_bind h
    intro k hk
    rcases List.mem_cons.1 hk with rfl | hk
    · exact hn
    · exact ih h k hk

theorem lookup_eq_none_of_append {name : String} {before after : Substitutes}
    (h : (before ++ after).lookup name = none) : before.lookup name = none := by
  rw [List.lookup_append, Option.or_eq_none_iff] at h
  exact h.1

/-- What taking in defines does. -/
theorem fuseDefines_ok {context : String} {index : Nat} {entries : List (String × String)} {d d' : DefineText}
    (h : fuseDefines context index entries d = .ok d') :
    let names := (valued entries).map Prod.fst
    let fused := freshNames index names d.taken
    d'.constants = d.constants ++ constantText (valued entries) fused ∧
      d'.substitutes = d.substitutes ++ names.zip fused ∧ d'.taken = d.taken ++ fused ∧
      ∀ e ∈ entries, checkName context .define e.1 = .ok () ∧ d.substitutes.lookup e.1 = none := by
  induction entries generalizing d with
  | nil =>
    cases h
    simp [valued, constantText, freshNames]
  | cons e rest ih =>
    obtain ⟨name, value⟩ := e
    rw [fuseDefines] at h
    obtain ⟨_, hname, h⟩ := ok_of_bind h
    split at h
    · cases h
    · next hlookup =>
      have hlookup : d.substitutes.lookup name = none := Option.not_isSome_iff_eq_none.1 hlookup
      dsimp only at h
      split at h
      · next hempty =>
        obtain ⟨hconstants, hsubstitutes, htaken, hrest⟩ := ih h
        have hvalued : valued ((name, value) :: rest) = valued rest := by rw [valued, if_pos hempty]
        rw [hvalued]
        exact ⟨hconstants, hsubstitutes, htaken, List.forall_mem_cons.2 ⟨⟨hname, hlookup⟩, hrest⟩⟩
      · next hempty =>
        obtain ⟨hconstants, hsubstitutes, htaken, hrest⟩ := ih h
        have hvalued : valued ((name, value) :: rest) =
            (name, String.ofList (Text.trim value.toList)) :: valued rest := by
          rw [valued, if_neg hempty]
        rw [hvalued]
        refine ⟨?_, ?_, ?_, List.forall_mem_cons.2 ⟨⟨hname, hlookup⟩, fun e he => ?_⟩⟩
        · simp [hconstants, constantText, freshNames, String.append_assoc]
        · simp [hsubstitutes, freshNames]
        · simp [htaken, freshNames]
        · exact ⟨(hrest e he).1, lookup_eq_none_of_append (hrest e he).2⟩

/-- What taking in functions and structures does. -/
theorem fuseItems_ok {context : String} {index : Nat} {items : List String} {substitutes substitutes' : Substitutes}
    {taken taken' : Taken} (h : fuseItems context index items substitutes taken = .ok (substitutes', taken')) :
    let fused := freshNames index (items.map fun item => s!"e{index}_{item}") taken
    substitutes' = substitutes ++ items.zip fused ∧ taken' = taken ++ fused ∧
      ∀ item ∈ items, beginsWith "fx_" item = false ∧ substitutes.lookup item = none := by
  induction items generalizing substitutes taken with
  | nil =>
    cases h
    simp [freshNames]
  | cons item rest ih =>
    rw [fuseItems] at h
    split at h
    · cases h
    · next hitem =>
      rw [Bool.or_eq_true, not_or] at hitem
      have hlookup : substitutes.lookup item = none := Option.not_isSome_iff_eq_none.1 hitem.2
      obtain ⟨hsubstitutes, htaken, hrest⟩ := ih h
      refine ⟨?_, ?_, List.forall_mem_cons.2 ⟨⟨by simpa using hitem.1, hlookup⟩, fun i hi => ?_⟩⟩
      · simp [hsubstitutes, freshNames]
      · simp [htaken, freshNames]
      · exact ⟨(hrest i hi).1, lookup_eq_none_of_append (hrest i hi).2⟩

theorem map_fst_uniformSubstitutes (entries : List (String × UniformValue)) (claims : List Claim) :
    (uniformSubstitutes entries claims).map Prod.fst <+: entries.map Prod.fst := by
  induction entries generalizing claims with
  | nil => exact List.prefix_rfl
  | cons e rest ih =>
    cases claims with
    | nil => exact List.nil_prefix
    | cons c cs => exact List.cons_prefix_cons.2 ⟨rfl, ih cs⟩

theorem map_fst_valued (entries : List (String × String)) :
    List.Sublist ((valued entries).map Prod.fst) (entries.map Prod.fst) := by
  induction entries with
  | nil => exact .slnil
  | cons e rest ih =>
    obtain ⟨name, value⟩ := e
    rw [valued]
    split
    · exact ih.cons name
    · exact ih.cons_cons name

/-- One token adds at most one name, which was not there. -/
theorem names_step (d : Wgsl.Declared) (t : Wgsl.Token) :
    (d.step t).names = d.names ∨ ∃ text free, t = .name text free ∧ String.ofList text ∉ d.names ∧
      (d.step t).names = d.names ++ [String.ofList text] := by
  cases t with
  | other text => exact .inl rfl
  | name text free =>
    unfold Wgsl.Declared.step
    dsimp only
    by_cases hexpected : d.expected = true
    · rw [if_pos hexpected]
      by_cases hmem : String.ofList text ∈ d.names
      · exact .inl (if_pos (List.contains_iff_mem.2 hmem))
      · exact .inr ⟨text, free, rfl, hmem, if_neg (mt List.contains_iff_mem.1 hmem)⟩
    · rw [if_neg hexpected]
      exact .inl rfl

/-- What holds of no names, and still holds when a name of the text is added, holds of the declared names. -/
theorem declaredItems_induction {code : List Char} {motive : List String → Prop} (nil : motive [])
    (snoc : ∀ names text free, .name text free ∈ Wgsl.scan code → String.ofList text ∉ names → motive names →
      motive (names ++ [String.ofList text])) : motive (Wgsl.declaredItems code) := by
  have hfold (ts : List Wgsl.Token) (hts : ts ⊆ Wgsl.scan code) (d : Wgsl.Declared) (hd : motive d.names) :
      motive (ts.foldl Wgsl.Declared.step d).names := by
    induction ts generalizing d with
    | nil => exact hd
    | cons t ts ih =>
      refine ih (fun t ht => hts (List.mem_cons_of_mem _ ht)) _ ?_
      rcases names_step d t with h | ⟨text, free, rfl, hnot, h⟩
      · rwa [h]
      · rw [h]
        exact snoc _ text free (hts List.mem_cons_self) hnot hd
  exact hfold _ (List.Subset.refl _) _ nil

theorem nodup_declaredItems (code : List Char) : (Wgsl.declaredItems code).Nodup := by
  refine declaredItems_induction List.nodup_nil fun names text free _ hnot hnames => ?_
  refine List.nodup_append.2 ⟨hnames, List.nodup_singleton _, fun a ha b hb hab => hnot ?_⟩
  rwa [← List.mem_singleton.1 hb, ← hab]

theorem lookup_eq_none_iff {name : String} {substitutes : Substitutes} :
    substitutes.lookup name = none ↔ name ∉ substitutes.map Prod.fst := by
  induction substitutes with
  | nil => simp
  | cons s rest ih =>
    rw [List.lookup_cons, List.map_cons, List.mem_cons, not_or]
    by_cases hs : name = s.1
    · simp [hs]
    · rw [beq_false_of_ne hs]
      exact ⟨fun h => ⟨hs, ih.1 h⟩, fun h => ih.2 h.2⟩

theorem constantText_append {constants : List (String × String)} {fused : List String}
    (h : fused.length = constants.length) (more : List String) :
    constantText constants (fused ++ more) = constantText constants fused := by
  induction constants generalizing fused with
  | nil => simp [constantText]
  | cons c rest ih =>
    cases fused with
    | nil => cases h
    | cons f fused => rw [List.cons_append, constantText, constantText, ih (Nat.succ.inj h)]

section Steps

variable {label : String} {options : FuseOptions} {index : Nat} {u : FuseUnit} {plan : UnitPlan} {taken taken' : Taken}
  {part : UnitText}

/-- The steps in which a unit is fused. -/
theorem fuseUnit_steps (h : fuseUnit label options index u plan taken = .ok (part, taken')) :
    let context := unitContext label index u
    let m := Member.of options index (u, plan) taken
    ∃ defines substitutes, checkUniforms context u.uniforms.names = .ok () ∧
      fuseDefines context index u.defines.entries ⟨"", m.uniforms, taken⟩ = .ok defines ∧
      fuseItems context index m.items defines.substitutes defines.taken = .ok (substitutes, taken') ∧
      "main_image" ∈ m.items ∧
      part.block = "// ---- " ++ commentText u.name ++ " ----\n" ++ defines.constants ++
        String.ofList (Text.trimEnd (Wgsl.rename (fun n => substitutes.lookup n) m.code)) ∧
      part.call = callText plan.blend ((substitutes.lookup "main_image").getD "main_image") u.attributes.readsDepth := by
  intro context m
  unfold fuseUnit at h
  obtain ⟨_, huniforms, h⟩ := ok_of_bind h
  obtain ⟨defines, hdefines, h⟩ := ok_of_bind h
  dsimp only at h
  split at h
  · next code hselect =>
    obtain ⟨code', hcode, h⟩ := ok_of_bind h
    cases hcode
    have hmcode : m.code = code := by simp [m, Member.of, hselect, Except.toOption]
    rw [← hmcode] at h
    split at h
    · cases h
    · next hmain =>
      obtain ⟨⟨substitutes, taken''⟩, hitems, h⟩ := ok_of_bind h
      cases h
      refine ⟨defines, substitutes, huniforms, hdefines, hitems, ?_, rfl, rfl⟩
      simpa [Member.items] using hmain
  · obtain ⟨code, hcode, -⟩ := ok_of_bind h
    cases hcode

/-- The part of a unit that is fused. -/
theorem fuseUnit_ok (h : fuseUnit label options index u plan taken = .ok (part, taken')) :
    let m := Member.of options index (u, plan) taken
    part.block = m.block ∧ part.call = m.call ∧ taken' = taken ++ m.fused := by
  intro m
  obtain ⟨defines, substitutes, huniforms, hdefines, hitems, hmain, hblock, hcall⟩ := fuseUnit_steps h
  obtain ⟨hconstants, hdefined, htaken, -⟩ := fuseDefines_ok hdefines
  obtain ⟨hsubstitutes, htaken', -⟩ := fuseItems_ok hitems
  let names := m.constants.map Prod.fst
  let constants := freshNames index names taken
  let functions := freshNames index (m.items.map fun item => s!"e{index}_{item}") (taken ++ constants)
  have htaken : defines.taken = taken ++ constants := htaken
  rw [htaken] at hsubstitutes htaken'
  have hfused : m.fused = constants ++ functions := freshNames_append index _ _ taken
  have hlength : constants.length = names.length := length_freshNames index names taken
  have hown : m.own.zip m.fused = names.zip constants ++ m.items.zip functions := by
    rw [hfused]
    exact List.zip_append hlength.symm
  have hsubstitutes : substitutes = m.substitutes := by
    rw [hsubstitutes, hdefined, List.append_assoc]
    exact congrArg (m.uniforms ++ ·) hown.symm
  have hconstants : defines.constants = constantText m.constants m.fused := by
    rw [hconstants, hfused, constantText_append (by rw [hlength, List.length_map])]
    exact String.empty_append
  refine ⟨?_, ?_, ?_⟩
  · rw [hblock, hsubstitutes, hconstants]
    rfl
  · rw [hcall, hsubstitutes]
    rfl
  · rw [htaken', hfused, List.append_assoc]

/-- A unit that is fused is a sound member, if the scaffold's names are taken before. -/
theorem fuseUnit_sound (h : fuseUnit label options index u plan taken = .ok (part, taken'))
    (hreserved : reservedNames ⊆ taken) : Sound (Member.of options index (u, plan) taken) := by
  obtain ⟨defines, substitutes, huniforms, hdefines, hitems, hmain, -, -⟩ := fuseUnit_steps h
  obtain ⟨-, hdefined, -, hchecked⟩ := fuseDefines_ok hdefines
  obtain ⟨-, -, hitems⟩ := fuseItems_ok hitems
  let m := Member.of options index (u, plan) taken
  have huniformNames : m.uniforms.map Prod.fst <+: u.uniforms.names := map_fst_uniformSubstitutes _ _
  have hconstantNames : List.Sublist (m.constants.map Prod.fst) u.defines.names := map_fst_valued _
  have hdefine : ∀ n ∈ m.constants.map Prod.fst,
      checkName (unitContext label index u) .define n = .ok () ∧ n ∉ m.uniforms.map Prod.fst := by
    intro n hn
    obtain ⟨e, he, rfl⟩ := List.mem_map.1 (hconstantNames.subset hn)
    exact ⟨(hchecked e he).1, lookup_eq_none_iff.1 (hchecked e he).2⟩
  have hitem : ∀ n ∈ m.items, n ∉ m.uniforms.map Prod.fst ∧ n ∉ m.constants.map Prod.fst := by
    intro n hn
    have hnone := lookup_eq_none_iff.1 (hitems n hn).2
    rw [hdefined, List.map_append, List.map_fst_zip (Nat.le_of_eq (length_freshNames _ _ _).symm),
      List.mem_append, not_or] at hnone
    exact hnone
  refine ⟨fun n hn => ?_, fun n hn => (hitems n hn).1, ?_, hmain, hreserved⟩
  · rcases List.mem_append.1 hn with hn | hn
    · exact ⟨_, _, checkUniforms_ok huniforms n (huniformNames.subset hn)⟩
    · exact ⟨_, _, (hdefine n hn).1⟩
  · have hown : (m.constants.map Prod.fst ++ m.items).Nodup := by
      refine List.nodup_append.2 ⟨u.defines.nodup.sublist hconstantNames, nodup_declaredItems _, ?_⟩
      rintro a ha _ hb rfl
      exact (hitem a hb).2 ha
    refine List.nodup_append.2 ⟨u.uniforms.nodup.sublist huniformNames.sublist, hown, ?_⟩
    rintro a ha _ hb rfl
    rcases List.mem_append.1 hb with hb | hb
    · exact (hdefine a hb).2 ha
    · exact (hitem a hb).1 ha

end Steps

/-! ## Whole programs -/

section Programs

variable {label : String} {options : FuseOptions} {index : Nat} {taken : Taken}

/-- If units are fused, the first one is, and then the others where its names are taken too. -/
theorem fuseUnits_cons_ok {u : FuseUnit × UnitPlan} {rest : List (FuseUnit × UnitPlan)} {parts : List UnitText}
    (h : (fuseUnits label options index (u :: rest) taken).2 = .ok parts) :
    ∃ part taken' more, fuseUnit label options index u.1 u.2 taken = .ok (part, taken') ∧
      (fuseUnits label options (index + 1) rest taken').2 = .ok more ∧ parts = part :: more := by
  obtain ⟨u, plan⟩ := u
  rw [fuseUnits] at h
  cases hu : fuseUnit label options index u plan taken with
  | error e =>
    rw [hu] at h
    cases h
  | ok r =>
    obtain ⟨part, taken'⟩ := r
    rw [hu] at h
    have h : (fuseUnits label options (index + 1) rest taken').2.map (part :: ·) = .ok parts := h
    cases hr : (fuseUnits label options (index + 1) rest taken').2 with
    | error e =>
      rw [hr] at h
      cases h
    | ok more =>
      rw [hr] at h
      cases h
      exact ⟨part, taken', more, rfl, hr, rfl⟩

/-- The parts of units that are fused, and what is known of the members. -/
theorem fuseUnits_ok {units : List (FuseUnit × UnitPlan)} {parts : List UnitText}
    (h : (fuseUnits label options index units taken).2 = .ok parts) (hreserved : reservedNames ⊆ taken) :
    let ms := membersFrom options index units taken
    parts.map UnitText.block = ms.map Member.block ∧ parts.map UnitText.call = ms.map Member.call ∧
      ∀ m ∈ ms, Sound m := by
  induction units generalizing index taken parts with
  | nil =>
    cases h
    exact ⟨rfl, rfl, nofun⟩
  | cons u rest ih =>
    obtain ⟨part, taken', more, hu, hr, rfl⟩ := fuseUnits_cons_ok h
    obtain ⟨hblock, hcall, rfl⟩ := fuseUnit_ok hu
    obtain ⟨hblocks, hcalls, hsound⟩ := ih hr fun n hn => List.mem_append_left _ (hreserved hn)
    refine ⟨?_, ?_, List.forall_mem_cons.2 ⟨fuseUnit_sound hu hreserved, hsound⟩⟩
    · rw [List.map_cons, hblock, hblocks]
      rfl
    · rw [List.map_cons, hcall, hcalls]
      rfl

variable {units : List FuseUnit} {source : ProgramSource}

/-- A program is assembled from the parts of its units. -/
theorem fuse_ok (h : (fuse label units options).2 = .ok source) :
    ∃ parts, (fuseUnits label options 0 (units.zip (planUnits 0 units frameSlots).1) reservedNames).2 = .ok parts ∧
      source = assemble label options (planUnits 0 units frameSlots).2 parts := by
  have h : (fuseUnits label options 0 (units.zip (planUnits 0 units frameSlots).1) reservedNames).2.map
      (assemble label options (planUnits 0 units frameSlots).2) = .ok source := h
  cases hparts : (fuseUnits label options 0 (units.zip (planUnits 0 units frameSlots).1) reservedNames).2 with
  | error e =>
    rw [hparts] at h
    cases h
  | ok parts =>
    rw [hparts] at h
    cases h
    exact ⟨parts, rfl, rfl⟩

/-- What a program of units says, and what is known of the names of its members. -/
theorem fuse_members (h : (fuse label units options).2 = .ok source) :
    let ms := members options units
    source.text = moduleText label source.slots (ms.map Member.block) (ms.map Member.call) source.readsDepth
        options.alpha ∧
      ∀ m ∈ ms, Sound m := by
  intro ms
  obtain ⟨parts, hparts, rfl⟩ := fuse_ok h
  obtain ⟨hblocks, hcalls, hsound⟩ := fuseUnits_ok hparts (List.Subset.refl _)
  refine ⟨?_, hsound⟩
  show moduleText label _ (parts.map UnitText.block) (parts.map UnitText.call) _ _ = _
  rw [hblocks, hcalls]
  rfl

end Programs

/-! ## Units of examples -/

/-- A unit that is combined with what is below it. -/
def unitOf (name shader : String) (uniforms : List (String × UniformValue)) (defines : List (String × String)) :
    FuseUnit where
  name
  shader
  uniforms := OrderedMap.empty.insertMany uniforms
  defines := OrderedMap.empty.insertMany defines
  attributes := .none
  kernel := none
  blended := true

theorem exists_of_isOk {α : Type} {r : Except Error α} (h : r.isOk = true) : ∃ a, r = .ok a := by
  cases r with
  | ok a => exact ⟨a, rfl⟩
  | error e => cases h

end ScreenFusion.Fusion
