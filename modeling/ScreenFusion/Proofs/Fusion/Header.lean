import ScreenFusion.Proofs.Fusion.Slots
import ScreenFusion.Proofs.Wgsl.LineComment

/-!
# ScreenFusion.Proofs.Fusion.Header — names in the text of a program

A program names its pass in a line comment at its top and each unit in a line comment before the unit's code.  Control
characters in these names become spaces; the line separator and the paragraph separator are no control characters, but
they end a line comment.  So a name can only get out of its comment by one of these two, or if it stands in a block
comment that the code of earlier units has left open.

* `FuseUnit.unnamed`, `matched_fuseUnit`: whether units can be fused does not depend on names.
* `Contained`, `NamesContained`: names that stay in comments.
* `sweep_heading_iff`, `sweep_units_iff`: where names leave no trace in one line, and in the texts of units.
* `strippedText_unnamed_iff`: the programs whose text without line comments does not depend on names.
-/

namespace ScreenFusion.Fusion

open Wgsl

/-! ## Units without names -/

/-- A unit without its name. -/
def FuseUnit.unnamed (u : FuseUnit) : FuseUnit := { u with name := "" }

/-- A member whose unit has no name. -/
def Member.unnamed (m : Member) : Member := { m with unit := m.unit.unnamed }

theorem planUnits_unnamed (index : Nat) (units : List FuseUnit) (table : SlotTable) :
    planUnits index (units.map FuseUnit.unnamed) table = planUnits index units table := by
  induction units generalizing index table with
  | nil => rfl
  | cons u us ih =>
    have hu : planUnit index u.unnamed table = planUnit index u table := rfl
    rw [List.map_cons, planUnits, planUnits, hu]
    simp only [ih]

theorem membersFrom_unnamed (options : FuseOptions) (index : Nat) (us : List (FuseUnit × UnitPlan)) (taken : Taken) :
    membersFrom options index (us.map fun u => (u.1.unnamed, u.2)) taken =
      (membersFrom options index us taken).map Member.unnamed := by
  induction us generalizing index taken with
  | nil => rfl
  | cons u us ih =>
    have hu : Member.of options index (u.1.unnamed, u.2) taken = (Member.of options index u taken).unnamed := rfl
    rw [List.map_cons, membersFrom, membersFrom, hu, List.map_cons]
    exact congrArg (_ :: ·) (ih _ _)

theorem members_unnamed (options : FuseOptions) (units : List FuseUnit) :
    members options (units.map FuseUnit.unnamed) = (members options units).map Member.unnamed := by
  unfold members
  rw [planUnits_unnamed, List.zip_map_left, ← membersFrom_unnamed]
  rfl

/-! ## What is fused without names -/

/-- Both results are errors, or both are values that are related. -/
inductive Matched {α β : Type} (R : α → β → Prop) : Except Error α → Except Error β → Prop where
  | ok {a : α} {b : β} : R a b → Matched R (.ok a) (.ok b)
  | error {e e' : Error} : Matched R (.error e) (.error e')

theorem Matched.bind {α β γ δ : Type} {R : α → β → Prop} {S : γ → δ → Prop} {x : Except Error α} {y : Except Error β}
    {f : α → Except Error γ} {g : β → Except Error δ} (hxy : Matched R x y)
    (hfg : ∀ a b, R a b → Matched S (f a) (g b)) : Matched S (x >>= f) (y >>= g) := by
  cases hxy with
  | ok hab => exact hfg _ _ hab
  | error => exact .error

theorem isOk_map {α β : Type} (f : α → β) (x : Except Error α) : (x.map f).isOk = x.isOk := by cases x <;> rfl

section Contexts

variable (context context' : String)

theorem matched_checkName (role : NameRole) (name : String) :
    Matched Eq (checkName context role name) (checkName context' role name) := by
  unfold checkName
  split
  · exact .error
  · split
    · exact .error
    · exact .ok rfl

theorem matched_checkUniforms (names : List String) :
    Matched Eq (checkUniforms context names) (checkUniforms context' names) := by
  induction names with
  | nil => exact .ok rfl
  | cons name names ih => exact .bind (matched_checkName context context' .uniform name) fun _ _ _ => ih

theorem matched_fuseDefines (index : Nat) (entries : List (String × String)) (d : DefineText) :
    Matched Eq (fuseDefines context index entries d) (fuseDefines context' index entries d) := by
  induction entries generalizing d with
  | nil => exact .ok rfl
  | cons e rest ih =>
    refine .bind (matched_checkName context context' .define e.1) fun _ _ _ => ?_
    split
    · exact .error
    · dsimp only
      split
      · exact ih d
      · exact ih _

theorem matched_fuseItems (index : Nat) (items : List String) (substitutes : Substitutes) (taken : Taken) :
    Matched Eq (fuseItems context index items substitutes taken) (fuseItems context' index items substitutes taken) := by
  induction items generalizing substitutes taken with
  | nil => exact .ok rfl
  | cons item rest ih =>
    rw [fuseItems, fuseItems]
    split
    · exact .error
    · exact ih _ _

end Contexts

theorem matched_fuseUnit (label : String) (options : FuseOptions) (index : Nat) (u : FuseUnit) (plan : UnitPlan)
    (taken : Taken) : Matched (fun p q => p.2 = q.2) (fuseUnit label options index u plan taken)
      (fuseUnit "" options index u.unnamed plan taken) := by
  refine .bind (matched_checkUniforms _ _ _) fun _ _ _ => .bind (matched_fuseDefines _ _ _ _ _) ?_
  rintro defines _ rfl
  dsimp only [FuseUnit.unnamed]
  split
  · refine .bind (R := Eq) (.ok rfl) ?_
    rintro code _ rfl
    split
    · exact .error
    · refine .bind (matched_fuseItems _ _ _ _ _ _) ?_
      rintro r _ rfl
      exact .ok rfl
  · exact .error

theorem isOk_fuseUnits_unnamed (label : String) (options : FuseOptions) (index : Nat)
    (us : List (FuseUnit × UnitPlan)) (taken : Taken) : (fuseUnits label options index us taken).2.isOk =
      (fuseUnits "" options index (us.map fun u => (u.1.unnamed, u.2)) taken).2.isOk := by
  induction us generalizing index taken with
  | nil => rfl
  | cons u us ih =>
    obtain ⟨u, plan⟩ := u
    have hu := matched_fuseUnit label options index u plan taken
    rw [List.map_cons, fuseUnits, fuseUnits]
    generalize fuseUnit label options index u plan taken = r at hu ⊢
    generalize fuseUnit "" options index u.unnamed plan taken = r' at hu ⊢
    cases hu with
    | error => rfl
    | @ok p q hpq =>
      obtain ⟨part, taken'⟩ := p
      obtain ⟨part', _⟩ := q
      cases hpq
      exact (isOk_map _ _).trans ((ih (index + 1) taken').trans (isOk_map _ _).symm)

theorem isOk_fuse_unnamed (label : String) (units : List FuseUnit) (options : FuseOptions) :
    (fuse label units options).2.isOk = (fuse "" (units.map FuseUnit.unnamed) options).2.isOk := by
  have hfuse (label : String) (us : List FuseUnit) : (fuse label us options).2.isOk =
      (fuseUnits label options 0 (us.zip (planUnits 0 us frameSlots).1) reservedNames).2.isOk := isOk_map _ _
  rw [hfuse, hfuse, planUnits_unnamed, List.zip_map_left, isOk_fuseUnits_unnamed]
  rfl

/-! ## Lines with a name -/

/-- A name stays in the line comment that it stands in, where `depth` block comments are open before the line. -/
def Contained : Nat → String → Prop
  | 0, name => ∀ c ∈ name.toList, c ≠ '\u2028' ∧ c ≠ '\u2029'
  | _ + 1, name => name = ""

instance (depth : Nat) (name : String) : Decidable (Contained depth name) :=
  match depth with
  | 0 => List.decidableBAll (fun c => c ≠ '\u2028' ∧ c ≠ '\u2029') name.toList
  | _ + 1 => instDecidableEqString name ""

/-- A line comment with a name between two texts. -/
def heading (front name back : List Char) : List Char := '/' :: '/' :: (front ++ (name ++ back))

/-- A text that ends no line and has no star. -/
def Quiet (cs : List Char) : Prop := ∀ c ∈ cs, inLine c = true ∧ c ≠ '*'

instance (cs : List Char) : Decidable (Quiet cs) := List.decidableBAll (fun c => inLine c = true ∧ c ≠ '*') cs

theorem contained_empty (depth : Nat) : Contained depth "" := by
  cases depth with
  | zero => exact fun c hc => absurd hc List.not_mem_nil
  | succ depth => rfl

theorem inLine_commentText_iff (name : String) :
    (∀ c ∈ (commentText name).toList, inLine c = true) ↔ Contained 0 name := by
  rw [commentText, String.toList_ofList, List.forall_mem_map]
  refine forall₂_congr fun c _ => ?_
  split
  · next hcontrol =>
    have hne (d : Char) (hd : Text.isControl d = false) : c ≠ d := fun h => absurd (h ▸ hcontrol) (by simp [hd])
    exact iff_of_true (by decide) ⟨hne _ (by decide), hne _ (by decide)⟩
  · next hcontrol =>
    -- the other ends of lines are control characters
    have hother : c ∉ lineBreaks.take 5 := by
      have hall : (lineBreaks.take 5).all Text.isControl = true := by decide
      exact fun hc => hcontrol (List.all_eq_true.1 hall c hc)
    have hsplit : lineBreaks = lineBreaks.take 5 ++ ['\u2028', '\u2029'] := by decide
    rw [inLine, Bool.not_eq_true', hsplit, ← Bool.not_eq_true, List.contains_iff_mem, List.mem_append, not_or]
    simp [hother]

theorem commentText_eq_nil_iff (name : String) : (commentText name).toList = [] ↔ name = "" := by
  rw [commentText, String.toList_ofList, List.map_eq_nil_iff, String.toList_eq_nil_iff]

theorem append_lineFeed_inj {cs ds rest rest' : List Char} (hcs : '\n' ∉ cs) (hds : '\n' ∉ ds) :
    cs ++ '\n' :: rest = ds ++ '\n' :: rest' ↔ cs = ds ∧ rest = rest' := by
  have hline {cs : List Char} (h : '\n' ∉ cs) (rest : List Char) :
      (cs ++ '\n' :: rest).takeWhile (· ≠ '\n') = cs := by
    have hall : ∀ c ∈ cs, decide (c ≠ '\n') = true := fun c hc => decide_eq_true fun heq => h (heq ▸ hc)
    rw [List.takeWhile_append_of_pos hall]
    simp
  refine ⟨fun h => ?_, by rintro ⟨rfl, rfl⟩; rfl⟩
  obtain rfl : cs = ds := by rw [← hline hcs rest, h, hline hds rest']
  exact ⟨rfl, (List.cons.inj (List.append_cancel_left h)).2⟩

section Headings

variable {front back : List Char} (hfront : Quiet front) (hback : Quiet back)

include hfront hback

theorem inLine_heading {name : List Char} (h : ∀ c ∈ name, inLine c = true) :
    ∀ c ∈ front ++ (name ++ back), inLine c = true :=
  List.forall_mem_append.2 ⟨fun c hc => (hfront c hc).1, List.forall_mem_append.2 ⟨h, fun c hc => (hback c hc).1⟩⟩

theorem starless_heading : '*' ∉ heading front [] back := by
  simp only [heading, List.nil_append, List.mem_cons, List.mem_append, not_or]
  exact ⟨by decide, by decide, fun h => (hfront _ h).2 rfl, fun h => (hback _ h).2 rfl⟩

theorem lineFeed_not_mem_heading (name : String) : '\n' ∉ heading front (commentText name).toList back := by
  simp only [heading, List.mem_cons, List.mem_append, not_or]
  exact ⟨by decide, by decide, fun h => absurd (hfront _ h).1 (by decide),
    fun h => ne_lineFeed_of_mem_commentText h rfl, fun h => absurd (hback _ h).1 (by decide)⟩

/-- A name leaves no trace in its line iff it stays in the comment. -/
theorem sweep_heading_iff (depth : Nat) (name : String) :
    (sweep depth (heading front (commentText name).toList back)).1 = (sweep depth (heading front [] back)).1 ↔
      Contained depth name := by
  cases depth with
  | zero =>
    have hempty : ∀ c ∈ front ++ ([] ++ back), inLine c = true :=
      inLine_heading hfront hback fun c hc => absurd hc List.not_mem_nil
    rw [heading, heading, sweep_line hempty, sweep_line_iff, ← inLine_commentText_iff]
    refine ⟨fun h c hc => h c ?_, fun h => inLine_heading hfront hback h⟩
    exact List.mem_append_right _ (List.mem_append_left _ hc)
  | succ depth =>
    have hslashes : '*' ∉ '/' :: '/' :: front := by
      simp only [List.mem_cons, not_or]
      exact ⟨by decide, by decide, fun h => (hfront _ h).2 rfl⟩
    have hwords := sweep_block_iff depth hslashes (fun h => (hback _ h).2 rfl) (commentText name).toList
    rw [commentText_eq_nil_iff] at hwords
    rw [sweep_starless (starless_heading hfront hback)]
    exact hwords

/-- A line with a name that stays in its comment leaves as many block comments open as there were. -/
theorem sweep_heading_depth {depth : Nat} {name : String} (h : Contained depth name) :
    (sweep depth (heading front (commentText name).toList back)).2 = depth := by
  cases depth with
  | zero =>
    have hname := (inLine_commentText_iff name).2 h
    rw [heading, sweep_line (inLine_heading hfront hback hname)]
  | succ depth =>
    rw [(commentText_eq_nil_iff name).2 h, sweep_starless (starless_heading hfront hback)]

/-- A name in the first line of a text leaves no trace iff it stays in its comment; all else is behind the line. -/
theorem sweep_named_iff (depth : Nat) (name : String) (rest rest' : List Char) :
    (sweep depth (heading front (commentText name).toList back ++ '\n' :: rest)).1 =
        (sweep depth (heading front (commentText "").toList back ++ '\n' :: rest')).1 ↔
      Contained depth name ∧ (sweep depth rest).1 = (sweep depth rest').1 := by
  have hnone (name : String) : '\n' ∉ (sweep depth (heading front (commentText name).toList back)).1 := fun h =>
    lineFeed_not_mem_heading hfront hback name (mem_of_mem_sweep h)
  rw [sweep_lineFeed, sweep_lineFeed, sweep_heading_depth hfront hback (contained_empty depth)]
  dsimp only
  rw [append_lineFeed_inj (hnone name) (hnone ""), ← sweep_heading_iff hfront hback]
  refine and_congr_right fun hsame => ?_
  rw [sweep_heading_depth hfront hback ((sweep_heading_iff hfront hback depth name).1 hsame)]

end Headings

/-! ## The texts of units -/

/-- A member's text behind the line with its name. -/
def Member.body (m : Member) : List Char := (constantText m.constants m.fused).toList ++ Text.trimEnd m.emitted

/-- The texts of members, and what follows them. -/
def unitsText (ms : List Member) (tail : List Char) : List Char :=
  ms.flatMap (fun m => m.block.toList ++ ['\n', '\n']) ++ tail

/-- All names stay in their comments, where `depth` block comments are open before the first of the members. -/
def NamesContained : Nat → List Member → Prop
  | _, [] => True
  | depth, m :: ms => Contained depth m.unit.name ∧ NamesContained (sweep depth m.body).2 ms

instance decidableNamesContained : (depth : Nat) → (ms : List Member) → Decidable (NamesContained depth ms)
  | _, [] => .isTrue trivial
  | depth, m :: ms =>
    have := decidableNamesContained (sweep depth m.body).2 ms
    inferInstanceAs (Decidable (Contained depth m.unit.name ∧ NamesContained (sweep depth m.body).2 ms))

theorem unitsText_cons (m : Member) (ms : List Member) (tail : List Char) :
    unitsText (m :: ms) tail = heading " ---- ".toList (commentText m.unit.name).toList " ----".toList ++
      '\n' :: (m.body ++ '\n' :: ([] ++ '\n' :: unitsText ms tail)) := by
  have hbegin : "// ---- ".toList = '/' :: '/' :: " ---- ".toList := by decide
  have hend : " ----\n".toList = " ----".toList ++ ['\n'] := by decide
  rw [unitsText, List.flatMap_cons, Member.block]
  simp only [String.toList_append, String.toList_ofList, hbegin, hend, heading, Member.body, unitsText,
    List.append_assoc, List.cons_append, List.nil_append]

/-- The names of members leave no trace iff they stay in their comments. -/
theorem sweep_units_iff (depth : Nat) (ms : List Member) (tail : List Char) :
    (sweep depth (unitsText ms tail)).1 = (sweep depth (unitsText (ms.map Member.unnamed) tail)).1 ↔
      NamesContained depth ms := by
  induction ms generalizing depth with
  | nil => exact iff_of_true rfl trivial
  | cons m ms ih =>
    have hfront : Quiet " ---- ".toList := by decide
    have hback : Quiet " ----".toList := by decide
    have hbody : m.unnamed.body = m.body := rfl
    have hname : m.unnamed.unit.name = "" := rfl
    rw [List.map_cons, unitsText_cons, unitsText_cons, hbody, hname, sweep_named_iff hfront hback, sweep_lineFeed_iff,
      sweep_lineFeed_iff, NamesContained, sweep, ih]

/-! ## The text of a program -/

theorem slashless_blendFunctions : ∀ f ∈ blendFunctions, ∀ w ∈ f.words, '/' ∉ w.toList := by decide +kernel

theorem unopening_blendLibrary : Unopening blendLibrary := by
  refine .join (List.forall_mem_map.2 fun f hf => ?_)
  exact (Unopening.of_slashless (by decide)).append (Function.unopening_text (slashless_blendFunctions f hf))

theorem slashless_of_literal {s : String} {cs : List Char} (h : s = String.ofList cs) (hcs : '/' ∉ cs) :
    '/' ∉ s.toList := by
  rw [h, String.toList_ofList]
  exact hcs

set_option maxRecDepth 4000 in
theorem slashless_scaffold : '/' ∉ scaffold.toList := by
  unfold scaffold
  exact slashless_of_literal rfl (by decide +kernel)

theorem slashless_depthScaffold : '/' ∉ depthScaffold.toList := by
  unfold depthScaffold
  exact slashless_of_literal rfl (by decide +kernel)

theorem unopening_bindingText (readsDepth : Bool) : Unopening (bindingText readsDepth) := by
  have literal {s : String} {cs : List Char} (h : s = String.ofList cs) (hcs : '/' ∉ cs) : Unopening s :=
    .of_slashless (slashless_of_literal h hcs)
  have hdepth : Unopening (if readsDepth then "@group(0) @binding(3)\nvar fx_depth: texture_2d<f32>;\n\n" else "") := by
    split
    · exact literal rfl (by decide)
    · exact .of_slashless nofun
  exact (((literal rfl (by decide)).append (literal rfl (by decide))).append (literal rfl (by decide))).append hdepth

theorem IsName.slashless {n : String} (h : IsName n) : '/' ∉ n.toList := by
  obtain ⟨c, cs, hn, hc, hcs⟩ := isName_iff.1 h
  rw [hn, List.mem_cons, not_or]
  refine ⟨?_, fun hmem => absurd (hcs _ hmem) (by decide)⟩
  rintro rfl
  exact absurd hc (by decide)

theorem unopening_blockText {slots : SlotTable} (h : ∀ s ∈ slots, IsName s.1) : Unopening (blockText slots) := by
  have hmember (s : String × SlotKind) (hs : s ∈ slots) :
      Unopening ("    " ++ s.1 ++ ": " ++ s.2.shaderType ++ ",\n") := by
    have htype : '/' ∉ s.2.shaderType.toList := by cases s.2 <;> decide
    have hname : Unopening ("    " ++ s.1) := (Unopening.of_slashless (by decide)).append_slashless (h s hs).slashless
    exact ((hname.append_slashless (by decide)).append_slashless htype).append_slashless (by decide)
  exact ((Unopening.of_slashless (by decide)).append (.join (List.forall_mem_map.2 hmember))).append_slashless (by decide)

/-- A program between its first line and its units. -/
def upperText (slots : SlotTable) (readsDepth : Bool) : String :=
  blockText slots ++ bindingText readsDepth ++ scaffold ++ (if readsDepth then depthScaffold else "") ++ blendLibrary

/-- The scaffold leaves no comment open. -/
theorem sweep_upperText {slots : SlotTable} (h : ∀ s ∈ slots, IsName s.1) (readsDepth : Bool) :
    (sweep 0 (upperText slots readsDepth).toList).2 = 0 := by
  have hdepth : Unopening (if readsDepth then depthScaffold else "") := by
    split
    · exact .of_slashless slashless_depthScaffold
    · exact .of_slashless nofun
  refine sweep_unopened (Unopening.hasPair_eq ?_)
  exact ((((unopening_blockText h).append (unopening_bindingText readsDepth)).append
    (.of_slashless slashless_scaffold)).append hdepth).append unopening_blendLibrary

theorem moduleText_lines (label : String) (slots : SlotTable) (ms : List Member) (calls : List String)
    (readsDepth alpha : Bool) : (moduleText label slots (ms.map Member.block) calls readsDepth alpha).toList =
      heading " fused program: ".toList (commentText label).toList [] ++ '\n' :: ([] ++ '\n' ::
        ((upperText slots readsDepth).toList ++ '\n' ::
          unitsText ms (entryText calls readsDepth alpha).toList)) := by
  have hbegin : "// fused program: ".toList = '/' :: '/' :: " fused program: ".toList := by decide
  have hend : "\n\n".toList = ['\n', '\n'] := by decide
  have hfeed : "\n".toList = ['\n'] := by decide
  unfold moduleText upperText unitsText heading
  simp only [String.toList_append, String.toList_join, List.flatMap_map, List.append_assoc, List.cons_append,
    List.nil_append, hbegin, hend, hfeed]

variable {label : String} {units : List FuseUnit} {options : FuseOptions} {source plain : ProgramSource}

/-- The label and the names of a program's units leave no trace iff they stay in their comments. -/
theorem stripped_iff (h : (fuse label units options).2 = .ok source)
    (hplain : (fuse "" (units.map FuseUnit.unnamed) options).2 = .ok plain) :
    withoutLineComments source.text.toList = withoutLineComments plain.text.toList ↔
      Contained 0 label ∧ NamesContained 0 (members options units) := by
  have hslots : plain.slots = source.slots := by
    rw [slots_of_fuse h, slots_of_fuse hplain]
    have htable (us : List FuseUnit) : frameSlots ++ tableFrom 0 us frameMembers = (planUnits 0 us frameSlots).2 :=
      (planUnits_table 0 us frameSlots).symm
    rw [htable, htable, planUnits_unnamed]
  have hdepth : plain.readsDepth = source.readsDepth := by
    rw [readsDepth_of_fuse h, readsDepth_of_fuse hplain, List.any_map]
    rfl
  have hcalls : ((members options units).map Member.unnamed).map Member.call = (members options units).map Member.call := by
    rw [List.map_map]
    rfl
  have hfront : Quiet " fused program: ".toList := by decide
  have hback : Quiet [] := by decide
  rw [withoutLineComments_eq, withoutLineComments_eq, (fuse_members h).1, (fuse_members hplain).1, hslots, hdepth,
    members_unnamed, hcalls, moduleText_lines, moduleText_lines, sweep_named_iff hfront hback, sweep_lineFeed_iff,
    sweep_lineFeed_iff, sweep, sweep_upperText (isName_slots h), sweep_units_iff]

/-- The text of the program of units without line comments, if they can be fused. -/
def strippedText (label : String) (units : List FuseUnit) (options : FuseOptions) : Option (List Char) :=
  (fuse label units options).2.toOption.map fun source => withoutLineComments source.text.toList

theorem strippedText_of_ok (h : (fuse label units options).2 = .ok source) :
    strippedText label units options = some (withoutLineComments source.text.toList) := by
  rw [strippedText, h]
  rfl

theorem strippedText_eq_iff (hok : (fuse label units options).2.isOk = true) :
    strippedText label units options = strippedText "" (units.map FuseUnit.unnamed) options ↔
      Contained 0 label ∧ NamesContained 0 (members options units) := by
  obtain ⟨source, h⟩ := exists_of_isOk hok
  obtain ⟨plain, hplain⟩ := exists_of_isOk ((isOk_fuse_unnamed label units options).symm.trans hok)
  rw [strippedText_of_ok h, strippedText_of_ok hplain, Option.some_inj]
  exact stripped_iff h hplain

/-- Units can be fused whatever their names and the label are, and the text of the program without line comments is the
same as with empty ones if and only if the label and the names stay in their comments. -/
theorem strippedText_unnamed_iff (label : String) (units : List FuseUnit) (options : FuseOptions) :
    (fuse label units options).2.isOk = (fuse "" (units.map FuseUnit.unnamed) options).2.isOk ∧
      (strippedText label units options = strippedText "" (units.map FuseUnit.unnamed) options ↔
        (fuse label units options).2.isOk = false ∨
          Contained 0 label ∧ NamesContained 0 (members options units)) := by
  have hok := isOk_fuse_unnamed label units options
  refine ⟨hok, ?_⟩
  cases h : (fuse label units options).2 with
  | error e =>
    cases hplain : (fuse "" (units.map FuseUnit.unnamed) options).2 with
    | error e' =>
      rw [strippedText, strippedText, h, hplain]
      exact iff_of_true rfl (.inl rfl)
    | ok plain =>
      rw [h, hplain] at hok
      cases hok
  | ok source =>
    rw [strippedText_eq_iff (by rw [h]; rfl)]
    exact (or_iff_right Bool.noConfusion).symm

/-- A unit without uniforms and defines. -/
def bareUnit (name shader : String) : FuseUnit := unitOf name shader [] []

/-- A line separator in a label brings what is behind it out of the comment, and a name behind a block comment that an
earlier unit has left open is not in a line comment. -/
theorem names_not_contained :
    let unit := bareUnit "a" "fn main_image() \x7b\x7d"
    let label := "p\u2028const evil = 1;"
    let divided := [bareUnit "a" "fn main_image() \x7b\x7d /*", bareUnit "b" "*/ fn main_image() \x7b\x7d"]
    (∃ rest, strippedText label [unit] default = some ("\u2028const evil = 1;".toList ++ '\n' :: rest)) ∧
      strippedText label [unit] default ≠ strippedText "" ([unit].map FuseUnit.unnamed) default ∧
      strippedText "" divided default ≠ strippedText "" (divided.map FuseUnit.unnamed) default := by
  intro unit label divided
  have hok : (fuse label [unit] default).2.isOk = true := by decide +kernel
  have hdivided : (fuse "" divided default).2.isOk = true := by decide +kernel
  refine ⟨?_, (strippedText_eq_iff hok).not.2 fun h => ?_, (strippedText_eq_iff hdivided).not.2 fun h => ?_⟩
  · obtain ⟨source, hsource⟩ := exists_of_isOk hok
    have hline : (sweep 0 (heading " fused program: ".toList (commentText label).toList [])).1 =
        "\u2028const evil = 1;".toList := by decide +kernel
    rw [strippedText_of_ok hsource, withoutLineComments_eq, (fuse_members hsource).1, moduleText_lines, sweep_lineFeed,
      hline]
    exact ⟨_, rfl⟩
  · exact absurd h.1 (by decide)
  · exact absurd h.2 (by decide +kernel)

end ScreenFusion.Fusion
