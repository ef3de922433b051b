import ScreenFusion.Proofs.Fusion.Separation
import ScreenFusion.Proofs.Fusion.Source
import ScreenFusion.Proofs.Wgsl.Declaration

/-!
# ScreenFusion.Proofs.Fusion.Slots — the table of slots

The uniform block has the frame's slots first, then those of the units.  A unit's slots are named after its blend mode and
its uniforms, each by a fresh name, so no two slots of a program have one name.

* `planUnits_table`: the table in closed form.
* `slots_of_fuse`: the table of a program.
* `nodup_tableFrom`: no name is given twice.
* `declaredMembers?_moduleText`: what the text of a program declares for its uniform block.
* `fuse_orderly`: the slots and the names of a program.
-/

namespace ScreenFusion.Fusion

/-! ## The table in closed form -/

/-- What the slots of a unit are named after. -/
def slotBases (index : Nat) (u : FuseUnit) : List String :=
  (if u.blended then [s!"e{index}_blend"] else []) ++ u.uniforms.names

/-- The slots of a unit, where the given names are taken. -/
def unitTable (index : Nat) (u : FuseUnit) (taken : List String) : SlotTable :=
  (freshNames index (slotBases index u) taken).zip (unitKinds u)

/-- The slots of units numbered from `index`, where the given names are taken. -/
def tableFrom : Nat → List FuseUnit → List String → SlotTable
  | _, [], _ => []
  | index, u :: us, taken =>
    let table := unitTable index u taken
    table ++ tableFrom (index + 1) us (taken ++ table.map Prod.fst)

theorem claimAll_table (index : Nat) (entries : List (String × UniformValue)) (table : SlotTable) :
    (claimAll index entries table).2 =
      table ++ (freshNames index (entries.map Prod.fst) (table.map Prod.fst)).zip (entries.map fun e => .of e.2) := by
  induction entries generalizing table with
  | nil => simp [claimAll, freshNames]
  | cons e rest ih =>
    obtain ⟨name, value⟩ := e
    simp only [claimAll, claim, ih, List.map_cons, freshNames, List.zip_cons_cons, List.map_append, List.map_nil,
      List.append_assoc, List.cons_append, List.nil_append]

theorem planUnit_table (index : Nat) (u : FuseUnit) (table : SlotTable) :
    (planUnit index u table).2 = table ++ unitTable index u (table.map Prod.fst) := by
  unfold planUnit unitTable slotBases unitKinds
  cases u.blended with
  | true =>
    simp only [if_true, claim, claimAll_table, List.map_append, List.map_cons, List.map_nil, List.append_assoc,
      List.cons_append, List.nil_append, freshNames, List.zip_cons_cons]
    rfl
  | false =>
    simp only [Bool.false_eq_true, if_false, claimAll_table, List.nil_append]
    rfl

theorem planUnits_table (index : Nat) (units : List FuseUnit) (table : SlotTable) :
    (planUnits index units table).2 = table ++ tableFrom index units (table.map Prod.fst) := by
  induction units generalizing index table with
  | nil => simp [planUnits, tableFrom]
  | cons u us ih => simp only [planUnits, ih, planUnit_table, tableFrom, List.map_append, List.append_assoc]

/-- The table of a program. -/
theorem slots_of_fuse {label : String} {units : List FuseUnit} {options : FuseOptions} {source : ProgramSource}
    (h : (fuse label units options).2 = .ok source) : source.slots = frameSlots ++ tableFrom 0 units frameMembers := by
  obtain ⟨parts, -, rfl⟩ := fuse_ok h
  exact planUnits_table 0 units frameSlots

/-! ## Members and their slots -/

/-- The slot of a claim has the name that the claim gives it. -/
def Placed (table : SlotTable) (c : Claim) : Prop := (table.map Prod.fst)[c.slot]? = some c.member

/-- All the claims of a unit. -/
def UnitPlan.claims (p : UnitPlan) : List Claim := p.blend.toList ++ p.uniforms

theorem Placed.mono {table more : SlotTable} {c : Claim} (h : Placed table c) (hmore : table <+: more) :
    Placed more c := by
  obtain ⟨rest, rfl⟩ := hmore
  have hlt : c.slot < (table.map Prod.fst).length := (List.getElem?_eq_some_iff.1 h).1
  unfold Placed
  rw [List.map_append, List.getElem?_append_left hlt]
  exact h

theorem isPrefix_claimAll (index : Nat) (entries : List (String × UniformValue)) (table : SlotTable) :
    table <+: (claimAll index entries table).2 := by
  rw [claimAll_table]
  exact List.prefix_append _ _

theorem isPrefix_planUnits (index : Nat) (units : List FuseUnit) (table : SlotTable) :
    table <+: (planUnits index units table).2 := by
  rw [planUnits_table]
  exact List.prefix_append _ _

theorem placed_claim (index : Nat) (base : String) (kind : SlotKind) (table : SlotTable) :
    Placed (claim index base kind table).2 (claim index base kind table).1 := by
  simp [Placed, claim]

theorem claimAll_placed (index : Nat) (entries : List (String × UniformValue)) (table : SlotTable) :
    ∀ c ∈ (claimAll index entries table).1, Placed (claimAll index entries table).2 c := by
  induction entries generalizing table with
  | nil => exact nofun
  | cons e rest ih =>
    obtain ⟨name, value⟩ := e
    exact List.forall_mem_cons.2 ⟨(placed_claim index name (.of value) table).mono (isPrefix_claimAll _ _ _), ih _⟩

theorem planUnit_placed (index : Nat) (u : FuseUnit) (table : SlotTable) :
    ∀ c ∈ (planUnit index u table).1.claims, Placed (planUnit index u table).2 c := by
  unfold planUnit
  cases u.blended with
  | true =>
    exact List.forall_mem_cons.2
      ⟨(placed_claim index _ .float table).mono (isPrefix_claimAll _ _ _), claimAll_placed _ _ _⟩
  | false => exact claimAll_placed index _ table

theorem planUnits_placed (index : Nat) (units : List FuseUnit) (table : SlotTable) :
    ∀ p ∈ (planUnits index units table).1, ∀ c ∈ p.claims, Placed (planUnits index units table).2 c := by
  induction units generalizing index table with
  | nil => exact nofun
  | cons u us ih =>
    exact List.forall_mem_cons.2
      ⟨fun c hc => (planUnit_placed index u table c hc).mono (isPrefix_planUnits _ _ _), ih _ _⟩

theorem plan_of_mem_membersFrom {options : FuseOptions} {index : Nat} {units : List (FuseUnit × UnitPlan)}
    {taken : Taken} {m : Member} (h : m ∈ membersFrom options index units taken) : (m.unit, m.plan) ∈ units := by
  induction units generalizing index taken with
  | nil => cases h
  | cons u rest ih =>
    rcases List.mem_cons.1 h with rfl | h
    · exact List.mem_cons_self
    · exact List.mem_cons_of_mem _ (ih h)

/-! ## Names of slots -/

theorem map_fst_unitTable (index : Nat) (u : FuseUnit) (taken : List String) :
    (unitTable index u taken).map Prod.fst = freshNames index (slotBases index u) taken := by
  have hlength : (freshNames index (slotBases index u) taken).length = (unitKinds u).length := by
    rw [length_freshNames, length_unitKinds, slotBases, List.length_append]
    cases u.blended <;> rfl
  exact List.map_fst_zip (Nat.le_of_eq hlength)

/-- The names of slots are distinct if those taken before are. -/
theorem nodup_tableFrom {taken : List String} (h : taken.Nodup) (index : Nat) (units : List FuseUnit) :
    (taken ++ (tableFrom index units taken).map Prod.fst).Nodup := by
  induction units generalizing index taken with
  | nil => simpa [tableFrom] using h
  | cons u us ih =>
    rw [tableFrom, List.map_append, ← List.append_assoc]
    refine ih ?_ (index + 1)
    rw [map_fst_unitTable]
    refine List.nodup_append.2 ⟨h, nodup_freshNames _ _ _, ?_⟩
    rintro n hn _ hfresh rfl
    exact freshNames_not_mem hfresh hn

/-- Where the name of a slot comes from. -/
theorem mem_tableFrom {index : Nat} {units : List FuseUnit} {taken : List String} {n : String}
    (h : n ∈ (tableFrom index units taken).map Prod.fst) :
    ∃ i, ∃ u ∈ units, ∃ base ∈ slotBases i u, ∃ before, n = freshName base i before := by
  induction units generalizing index taken with
  | nil => cases h
  | cons u us ih =>
    rw [tableFrom, List.map_append, List.mem_append, map_fst_unitTable] at h
    rcases h with h | h
    · obtain ⟨base, hbase, before, hn⟩ := exists_base h
      exact ⟨index, u, List.mem_cons_self, base, hbase, before, hn⟩
    · obtain ⟨i, k, hk, hbase⟩ := ih h
      exact ⟨i, k, List.mem_cons_of_mem _ hk, hbase⟩

/-- A name of the shader language. -/
abbrev IsName (n : String) : Prop := (Wgsl.Lexeme.name n).valid = true

theorem isName_iff {n : String} : IsName n ↔ ∃ c cs, n.toList = c :: cs ∧ Wgsl.isNameStart c = true ∧
    ∀ d ∈ cs, Wgsl.isNameRest d = true := by
  unfold IsName Wgsl.Lexeme.valid
  cases hn : n.toList with
  | nil => simp [hn]
  | cons c cs => simp [hn]

theorem isName_of_isIdentifier {n : String} (h : Wgsl.isIdentifier n = true) : IsName n := by
  unfold Wgsl.isIdentifier at h
  split at h
  · cases h
  · cases h
  · cases h
  · next c cs _ _ hn =>
    obtain ⟨hc, hcs⟩ := Bool.and_eq_true_iff.1 h
    exact isName_iff.2 ⟨c, cs, hn, hc, List.all_eq_true.1 hcs⟩

theorem isName_freshName {base : String} (h : IsName base) (index : Nat) (taken : List String) :
    IsName (freshName base index taken) := by
  obtain ⟨c, cs, hbase, hc, hcs⟩ := isName_iff.1 h
  obtain ⟨more, htext, -, hmore⟩ := toList_freshName base index taken
  refine isName_iff.2 ⟨c, cs ++ more, by rw [htext, hbase, List.cons_append], hc, fun d hd => ?_⟩
  exact (List.mem_append.1 hd).elim (hcs d) (hmore d)

theorem isName_blend (index : Nat) : IsName s!"e{index}_blend" := by
  have htext : (s!"e{index}_blend").toList = 'e' :: (Nat.toDigits 10 index ++ "_blend".toList) := by
    have he : toString "e" = "e" := rfl
    have hblend : toString "_blend" = "_blend" := rfl
    simp [he, hblend]
  refine isName_iff.2 ⟨'e', _, htext, by decide, fun d hd => ?_⟩
  rcases List.mem_append.1 hd with hd | hd
  · exact isNameRest_of_mem_numbered (List.mem_cons_of_mem _ hd)
  · have hall : "_blend".toList.all Wgsl.isNameRest = true := by decide
    exact List.all_eq_true.1 hall d hd

section Programs

variable {label : String} {units : List FuseUnit} {options : FuseOptions} {source : ProgramSource}

theorem checked_of_fuseUnits {index : Nat} {units : List (FuseUnit × UnitPlan)} {taken : Taken} {parts : List UnitText}
    (h : (fuseUnits label options index units taken).2 = .ok parts) :
    ∀ u ∈ units, ∀ n ∈ u.1.uniforms.names, ∃ context, checkName context .uniform n = .ok () := by
  induction units generalizing index taken parts with
  | nil => exact nofun
  | cons u rest ih =>
    obtain ⟨part, taken', more, hu, hr, rfl⟩ := fuseUnits_cons_ok h
    obtain ⟨-, -, huniforms, -⟩ := fuseUnit_steps hu
    exact List.forall_mem_cons.2 ⟨fun n hn => ⟨_, checkUniforms_ok huniforms n hn⟩, ih hr⟩

/-- The uniforms of units that are fused have names of the language. -/
theorem isName_uniforms (h : (fuse label units options).2 = .ok source) :
    ∀ u ∈ units, ∀ n ∈ u.uniforms.names, IsName n := by
  intro u hu n hn
  obtain ⟨parts, hparts, -⟩ := fuse_ok h
  have hunits : (units.zip (planUnits 0 units frameSlots).1).map Prod.fst = units :=
    List.map_fst_zip (Nat.le_of_eq (length_planUnits 0 units frameSlots).symm)
  rw [← hunits] at hu
  obtain ⟨⟨k, plan⟩, hk, rfl⟩ := List.mem_map.1 hu
  obtain ⟨context, hcheck⟩ := checked_of_fuseUnits hparts _ hk n hn
  exact isName_of_isIdentifier (checkName_ok hcheck).1

theorem isName_slots (h : (fuse label units options).2 = .ok source) : ∀ s ∈ source.slots, IsName s.1 := by
  have hframe : ∀ s ∈ frameSlots, IsName s.1 := by decide
  rw [slots_of_fuse h]
  refine List.forall_mem_append.2 ⟨hframe, fun s hs => ?_⟩
  obtain ⟨i, u, hu, base, hbase, before, hname⟩ := mem_tableFrom (List.mem_map_of_mem hs)
  rw [hname]
  refine isName_freshName ?_ i before
  rcases List.mem_append.1 hbase with hblend | huniform
  · split at hblend
    · rw [List.mem_singleton.1 hblend]
      exact isName_blend i
    · cases hblend
  · exact isName_uniforms h u hu base huniform

end Programs

/-! ## The declaration of the uniform block -/

/-- The pieces of the shader type of a slot. -/
def typePieces : SlotKind → List String
  | .float => ["vec4f"]
  | .int => ["vec4", "<", "i32", ">"]
  | .uint => ["vec4", "<", "u32", ">"]

theorem pieces_shaderType (kind : SlotKind) (rest : List Char) :
    Wgsl.pieces (kind.shaderType.toList ++ ',' :: rest) = typePieces kind ++ "," :: Wgsl.pieces rest := by
  have hcomma : Wgsl.pieces (',' :: rest) = "," :: Wgsl.pieces rest := Wgsl.pieces_mark (by decide) rfl
  have hint (n : String) (hn : IsName n) : Wgsl.pieces ("vec4".toList ++ '<' :: (n.toList ++ '>' :: ',' :: rest)) =
      ["vec4", "<", n, ">"] ++ "," :: Wgsl.pieces rest := by
    rw [Wgsl.pieces_name (by decide) rfl, Wgsl.pieces_mark (by decide) rfl, Wgsl.pieces_name hn rfl,
      Wgsl.pieces_mark (by decide) rfl, hcomma]
    rfl
  cases kind with
  | float =>
    show Wgsl.pieces ("vec4f".toList ++ ',' :: rest) = _
    rw [Wgsl.pieces_name (by decide) rfl, hcomma]
    rfl
  | int => exact hint "i32" (by decide)
  | uint => exact hint "u32" (by decide)

theorem pieces_entry {n : String} (hn : IsName n) (kind : SlotKind) (rest : List Char) :
    Wgsl.pieces (("    " ++ n ++ ": " ++ kind.shaderType ++ ",\n").toList ++ rest) =
      n :: ":" :: (typePieces kind ++ "," :: Wgsl.pieces rest) := by
  have htext : ("    " ++ n ++ ": " ++ kind.shaderType ++ ",\n").toList ++ rest =
      ' ' :: ' ' :: ' ' :: ' ' :: (n.toList ++ ':' :: ' ' :: (kind.shaderType.toList ++ ',' :: '\n' :: rest)) := by
    simp
  rw [htext, Wgsl.pieces_blank (by decide), Wgsl.pieces_blank (by decide), Wgsl.pieces_blank (by decide),
    Wgsl.pieces_blank (by decide), Wgsl.pieces_name hn rfl, Wgsl.pieces_mark (by decide) rfl,
    Wgsl.pieces_blank (by decide), pieces_shaderType, Wgsl.pieces_blank (by decide)]

/-- The pieces of the members of the uniform block. -/
def fieldPieces (slots : SlotTable) : List (String × List String) := slots.map fun s => (s.1, typePieces s.2)

theorem pieces_entries {slots : SlotTable} (h : ∀ s ∈ slots, IsName s.1) (rest : List Char) :
    Wgsl.pieces ((String.join (slots.map fun s => "    " ++ s.1 ++ ": " ++ s.2.shaderType ++ ",\n")).toList ++ rest) =
      Wgsl.bodyPieces (fieldPieces slots) ++ Wgsl.pieces rest := by
  induction slots with
  | nil => simp [fieldPieces, Wgsl.bodyPieces]
  | cons s slots ih =>
    obtain ⟨hs, hslots⟩ := List.forall_mem_cons.1 h
    rw [List.map_cons, String.join_cons, String.toList_append, List.append_assoc, pieces_entry hs, ih hslots]
    simp [fieldPieces, Wgsl.bodyPieces]

theorem pieces_opening (body : List Char) : Wgsl.pieces ("struct FxUniforms \x7b\n".toList ++ body) =
    "struct" :: "FxUniforms" :: "\x7b" :: Wgsl.pieces body := by
  have htext : "struct FxUniforms \x7b\n".toList =
      "struct".toList ++ ' ' :: ("FxUniforms".toList ++ [' ', '\x7b', '\n']) := by decide
  rw [htext, List.append_assoc, List.cons_append, List.append_assoc, Wgsl.pieces_name (by decide) rfl,
    Wgsl.pieces_blank (by decide), Wgsl.pieces_name (by decide) rfl, List.cons_append, Wgsl.pieces_blank (by decide),
    List.cons_append, Wgsl.pieces_mark (by decide) rfl, List.cons_append, Wgsl.pieces_blank (by decide),
    List.nil_append]

theorem pieces_closing (rest : List Char) : Wgsl.pieces ("\x7d;\n\n".toList ++ rest) =
    "\x7d" :: ";" :: Wgsl.pieces rest := by
  have htext : "\x7d;\n\n".toList = ['\x7d', ';', '\n', '\n'] := by decide
  rw [htext, List.cons_append, Wgsl.pieces_mark (by decide) rfl, List.cons_append, Wgsl.pieces_mark (by decide) rfl,
    List.cons_append, Wgsl.pieces_blank (by decide), List.cons_append, Wgsl.pieces_blank (by decide), List.nil_append]

theorem pieces_blockText {slots : SlotTable} (h : ∀ s ∈ slots, IsName s.1) (rest : List Char) :
    Wgsl.pieces ((blockText slots).toList ++ rest) =
      "struct" :: "FxUniforms" :: "\x7b" ::
        (Wgsl.bodyPieces (fieldPieces slots) ++ "\x7d" :: ";" :: Wgsl.pieces rest) := by
  unfold blockText
  rw [String.toList_append, String.toList_append, List.append_assoc, List.append_assoc, pieces_opening,
    pieces_entries h, pieces_closing]

theorem map_join_fieldPieces (slots : SlotTable) :
    (fieldPieces slots).map (fun f => (f.1, String.join f.2)) = slots.map fun s => (s.1, s.2.shaderType) := by
  have hjoin (kind : SlotKind) : String.join (typePieces kind) = kind.shaderType := by cases kind <;> decide
  simp only [fieldPieces, List.map_map, Function.comp_def, hjoin]

theorem ne_lineFeed_of_mem_commentText {name : String} {c : Char} (h : c ∈ (commentText name).toList) : c ≠ '\n' := by
  rw [commentText, String.toList_ofList] at h
  obtain ⟨d, -, rfl⟩ := List.mem_map.1 h
  split
  · decide
  · next hcontrol =>
    rintro rfl
    exact hcontrol (by decide)

/-- A program begins with a comment and the uniform block. -/
theorem toList_moduleText (label : String) (slots : SlotTable) (blocks calls : List String) (readsDepth alpha : Bool) :
    ∃ rest, (moduleText label slots blocks calls readsDepth alpha).toList =
      '/' :: '/' :: ((" fused program: ".toList ++ (commentText label).toList) ++ '\n' :: '\n' ::
        ((blockText slots).toList ++ rest)) := by
  have hbegin : "// fused program: ".toList = '/' :: '/' :: " fused program: ".toList := by decide
  have hend : "\n\n".toList = ['\n', '\n'] := by decide
  unfold moduleText
  simp only [String.toList_append, List.append_assoc, hbegin, hend, List.cons_append, List.nil_append]
  exact ⟨_, rfl⟩

/-- The text of a program declares the slots as the members of its uniform block. -/
theorem declaredMembers?_moduleText {slots : SlotTable} (h : ∀ s ∈ slots, IsName s.1) (label : String)
    (blocks calls : List String) (readsDepth alpha : Bool) :
    Wgsl.declaredMembers? "FxUniforms" (Wgsl.pieces (moduleText label slots blocks calls readsDepth alpha).toList) =
      some (slots.map fun s => (s.1, s.2.shaderType)) := by
  have hcomma : ∀ f ∈ fieldPieces slots, "," ∉ f.2 := by
    intro f hf
    obtain ⟨s, -, rfl⟩ := List.mem_map.1 hf
    have htype (kind : SlotKind) : "," ∉ typePieces kind := by cases kind <;> decide
    exact htype s.2
  have hclose : "\x7d" ∉ Wgsl.bodyPieces (fieldPieces slots) := by
    intro hmem
    obtain ⟨f, hf, hmem⟩ := List.mem_flatMap.1 hmem
    obtain ⟨s, hs, rfl⟩ := List.mem_map.1 hf
    rcases List.mem_cons.1 hmem with hname | hmem
    · exact absurd (h s hs) (by rw [← hname]; decide)
    · have htype (kind : SlotKind) : "\x7d" ∉ ":" :: (typePieces kind ++ [","]) := by cases kind <;> decide
      exact htype s.2 hmem
  obtain ⟨rest, htext⟩ := toList_moduleText label slots blocks calls readsDepth alpha
  have hcomment : ∀ c ∈ " fused program: ".toList ++ (commentText label).toList, c ≠ '\n' := by
    have hbegin : '\n' ∉ " fused program: ".toList := by decide
    exact List.forall_mem_append.2 ⟨fun c hc h => hbegin (h ▸ hc), fun c hc => ne_lineFeed_of_mem_commentText hc⟩
  rw [htext, Wgsl.pieces_line _ _ hcomment, Wgsl.pieces_blank (by decide), pieces_blockText h,
    Wgsl.declaredMembers?_struct hcomma hclose, map_join_fieldPieces]

/-! ## Programs -/

/-- The slots and the names of a program of units are as they should be. -/
structure Orderly (label : String) (units : List FuseUnit) (options : FuseOptions) (source : ProgramSource) : Prop where
  /-- The frame's slots come first. -/
  frame : frameSlots <+: source.slots
  counted : source.kinds.length = (source.slots.map Prod.fst).length
  distinct : (source.slots.map Prod.fst).Nodup
  /-- The uniform block has the slots as its members, with their types and in their order. -/
  declared : Wgsl.declaredMembers? "FxUniforms" (Wgsl.pieces source.text.toList) =
    some (source.slots.map fun s => (s.1, s.2.shaderType))
  /-- The text of a unit reads a value from the member at the slot that the unit has for it. -/
  placed : ∀ m ∈ members options units, ∀ c ∈ m.plan.claims, Placed source.slots c
  /-- No slot belongs to two units, or twice to one. -/
  apart : (source.layout.flatMap UnitSlots.all).Nodup
  inside : ∀ s ∈ source.layout.flatMap UnitSlots.all, frameSlots.length ≤ s ∧ s < source.slots.length
  /-- The slots of each unit have the kinds of its values. -/
  fits : List.Forall₂ (Fits source.kinds) units source.layout
  /-- The stage of each unit has the slots that the layout gives it. -/
  stages : source.stages = List.zipWith stageOf units source.layout
  /-- The program is made of its members' blocks and calls. -/
  text : source.text = moduleText label source.slots ((members options units).map Member.block)
    ((members options units).map Member.call) source.readsDepth options.alpha
  /-- No name at module scope is given twice. -/
  chosen : ((members options units).flatMap Member.fused).Nodup
  free : ∀ n ∈ (members options units).flatMap Member.fused, n ∉ reservedNames ∧ beginsWith "fx_" n = false

/-- Every program that units are fused to is orderly. -/
theorem fuse_orderly {label : String} {units : List FuseUnit} {options : FuseOptions} {source : ProgramSource}
    (h : (fuse label units options).2 = .ok source) : Orderly label units options source := by
  have hslots := slots_of_fuse h
  have hfused := fuse_source h
  obtain ⟨htext, hsound⟩ := fuse_members h
  have hall : source.layout.flatMap UnitSlots.all = List.range' 3 (units.flatMap unitKinds).length := by
    rw [hfused.layout_eq, flatMap_all_layoutFrom]
  refine ⟨?_, ?_, ?_, ?_, ?_, ?_, ?_, hfused.fits, ?_, htext, ?_, ?_⟩
  · rw [hslots]
    exact List.prefix_append _ _
  · simp [ProgramSource.kinds]
  · rw [hslots, List.map_append]
    exact nodup_tableFrom (by decide) 0 units
  · rw [htext]
    exact declaredMembers?_moduleText (isName_slots h) _ _ _ _ _
  · intro m hm
    have hplan := (List.of_mem_zip (plan_of_mem_membersFrom hm)).2
    rw [hslots, show frameSlots ++ tableFrom 0 units frameMembers = (planUnits 0 units frameSlots).2 from
      (planUnits_table 0 units frameSlots).symm]
    exact planUnits_placed 0 units frameSlots m.plan hplan
  · rw [hall]
    exact List.nodup_range'
  · intro s hs
    rw [hall, List.mem_range'_1] at hs
    rw [hfused.length_slots]
    exact ⟨hs.1, hs.2⟩
  · rw [hfused.stages_eq, hfused.layout_eq]
    exact List.map_zip_eq_zipWith
  · refine List.nodup_flatMap.2 ⟨fun m _ => nodup_freshNames _ _ _, ?_⟩
    exact (fused_disjoint options 0 _ reservedNames).imp fun hdisjoint n hm hk => hdisjoint n hm hk
  · intro n hn
    obtain ⟨m, hm, hn⟩ := List.mem_flatMap.1 hn
    exact ⟨(hsound m hm).fused_not_mem hn, (hsound m hm).fused_not_fx hn⟩

/-- Two units whose uniforms have the names that other slots would get. -/
def lookalikes : List FuseUnit :=
  [["t", "e1_blend", "frame"], ["t", "t_1"]].map fun names =>
    unitOf "a" "fn main_image(c: vec4f, p: vec2f) -> vec4f \x7breturn c*t;\x7d"
      (names.map fun name => (name, .vec4 .zero .zero .zero .zero)) []

theorem fuse_orderly_lookalikes : ∃ source, (fuse "fx" lookalikes default).2 = .ok source ∧
    Orderly "fx" lookalikes default source ∧ source.slots.map Prod.fst =
      ["frame", "resolution", "camera", "e0_blend", "t", "e1_blend", "frame_0", "e1_blend_1", "t_1", "t_1_1"] := by
  obtain ⟨source, hsource⟩ := exists_of_isOk (show (fuse "fx" lookalikes default).2.isOk = true by decide +kernel)
  refine ⟨source, hsource, fuse_orderly hsource, ?_⟩
  rw [slots_of_fuse hsource]
  decide +kernel

end ScreenFusion.Fusion
