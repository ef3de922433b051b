import ScreenFusion.Device.Draw
import ScreenFusion.Proofs.Fusion.Slots
import ScreenFusion.Proofs.Pass.SlotKinds
import ScreenFusion.Wgsl.Eval

/-!
# ScreenFusion.Proofs.Uniform.Access — a uniform block read back

The bytes of a uniform block have two readers.  The kernels of a program read each slot at the widest value of its kind.
The text of the program has the block as a structure, whose members are vectors of four words, and reads a value by the
expression that `UniformValue.access` gives.  The expressions of that form are evaluated here: names, unsigned literals,
members, letters of components, comparisons and parentheses.

* `unpackBlock`, `unpackBlock_error_iff`: the values of a block, and when there are none.
* `Wgsl.membersFrom?`, `Wgsl.evaluate?`: the members of a structure in a block, and the value of an expression.
* `Wgsl.evaluate?_access`: the expression for a value gives the value.
* `packBlock_read_back`: what both readers find in a packed block.
-/

namespace ScreenFusion

open Fusion (IsName)

/-! ## The kernels' reader -/

/-- The values of a block, each at the widest of its slot's kind. -/
def unpackBlock (label : String) (kinds : List SlotKind) (bytes : List UInt8) : Except Error (List UniformValue) :=
  match unpackBlock? kinds bytes with
  | some values => .ok values
  | none => .error (.resource (.blockSize label bytes.length (16 * kinds.length)))

/-- A draw with its program and the values of its block. -/
def Device.drawValues (draw : FullscreenDraw) (program : Program) (values : List UniformValue) : Act Device Unit := do
  let input ← findBound draw.input
  let depth ← findBound draw.depth
  let output ← findPlane draw.output
  let sample (uv : Uv) : Rgba Float32 := (input.map (·.sample uv)).getD .transparent
  let texel (i : Nat) : Rgba Float32 :=
    let uv := output.centre i
    DrawContext.run ⟨values, uv, (depth.map (·.sampleDepth uv)).getD 1, output.texelSize, sample⟩ program
  Act.modify fun d =>
    (d.setPlane draw.output (output.mapColor fun i _ => some (texel i))).count fun s =>
      { s with draws := s.draws + 1 }

/-- A draw reads its block after it has its program and before it has its buffers. -/
theorem Device.drawFullscreen_eq (draw : FullscreenDraw) : drawFullscreen draw = (do
    let program ← findProgram draw.program
    let values ← Act.ofExcept (unpackBlock program.label program.kinds draw.block)
    drawValues draw program values) := by
  unfold drawFullscreen
  refine congrArg _ (funext fun program => ?_)
  unfold unpackBlock
  cases unpackBlock? program.kinds draw.block <;> rfl

section Unpack

variable {label : String} {kinds : List SlotKind} {bytes : List UInt8}

theorem unpackBlock_of_length_eq (h : bytes.length = 16 * kinds.length) :
    unpackBlock label kinds bytes = .ok (readBlock kinds bytes) := by
  rw [unpackBlock, unpackBlock?, if_pos h]

theorem unpackBlock_of_length_ne (h : bytes.length ≠ 16 * kinds.length) :
    unpackBlock label kinds bytes = .error (.resource (.blockSize label bytes.length (16 * kinds.length))) := by
  rw [unpackBlock, unpackBlock?, if_neg h]

/-- There are no values exactly if the slots do not fill the block, and then the error says so. -/
theorem unpackBlock_error_iff {e : Error} : unpackBlock label kinds bytes = .error e ↔
    bytes.length ≠ 16 * kinds.length ∧ e = .resource (.blockSize label bytes.length (16 * kinds.length)) := by
  by_cases h : bytes.length = 16 * kinds.length
  · rw [unpackBlock_of_length_eq h]
    exact ⟨nofun, fun ⟨hne, _⟩ => absurd h hne⟩
  · rw [unpackBlock_of_length_ne h]
    exact ⟨fun he => ⟨h, (Except.error.inj he).symm⟩, fun ⟨_, he⟩ => congrArg Except.error he.symm⟩

end Unpack

theorem forall₂_sameReading (values : List UniformValue) :
    List.Forall₂ UniformValue.SameReading values (List.zipWith UniformValue.widened values (values.map .of)) := by
  induction values with
  | nil => exact .nil
  | cons v vs ih => exact .cons v.sameReading_widened ih

namespace Wgsl

/-! ## The text's reader -/

/-- Components of one type: a single one, or those of a vector. -/
inductive Components where
  | floats (xs : List Binary32)
  | ints (ns : List Int32)
  | uints (ns : List UInt32)
  | truths (bs : List Bool)
  deriving DecidableEq

/-- What an expression stands for: components, or a structure with its members. -/
inductive Datum where
  | components (c : Components)
  | record (members : List (String × Components))
  deriving DecidableEq

/-- The vector of a type that four words are. -/
def Components.ofWords? (type : String) (words : List UInt32) : Option Components :=
  if type = "vec4f" ∨ type = "vec4<f32>" then some (.floats (words.map .mk))
  else if type = "vec4i" ∨ type = "vec4<i32>" then some (.ints (words.map UInt32.toInt32))
  else if type = "vec4u" ∨ type = "vec4<u32>" then some (.uints words)
  else none

/-- The members of a structure from the `index`-th on: each is four words, at the next multiple of sixteen bytes. -/
def membersFrom? (block : List UInt8) : Nat → List (String × String) → Option (List (String × Components))
  | _, [] => some []
  | index, (name, type) :: fields => do
    let (slot, _) ← Slot.ofBytes? (slotBytes block index)
    let c ← Components.ofWords? type slot.words
    let members ← membersFrom? block (index + 1) fields
    return (name, c) :: members

/-- The components of a vector that letters name; the letters are all of one set. -/
def pick? {α : Type} (letters : List Char) (xs : List α) : Option (List α) :=
  if 2 ≤ xs.length && 0 < letters.length && letters.length ≤ 4 &&
      (letters.all "xyzw".toList.contains || letters.all "rgba".toList.contains) then
    letters.mapM fun c => do xs[← componentIndex? c]?
  else none

/-- What a name after a point selects. -/
def Datum.select? (name : String) : Datum → Option Datum
  | record members => (members.lookup name).map components
  | components (.floats xs) => (pick? name.toList xs).map fun xs => components (.floats xs)
  | components (.ints ns) => (pick? name.toList ns).map fun ns => components (.ints ns)
  | components (.uints ns) => (pick? name.toList ns).map fun ns => components (.uints ns)
  | components (.truths bs) => (pick? name.toList bs).map fun bs => components (.truths bs)

/-- Where the components of two vectors of one length differ. -/
def differ? {α : Type} (f : α → α → Bool) (xs ys : List α) : Option Datum :=
  if xs.length = ys.length then some (.components (.truths (List.zipWith f xs ys))) else none

/-- The value of `!=` on two values of one type; floats are compared as numbers. -/
def Datum.differs? : Datum → Datum → Option Datum
  | components (.floats xs), components (.floats ys) => differ? (fun x y => x.toFloat != y.toFloat) xs ys
  | components (.ints ms), components (.ints ns) => differ? (· != ·) ms ns
  | components (.uints ms), components (.uints ns) => differ? (· != ·) ms ns
  | components (.truths as), components (.truths bs) => differ? (· != ·) as bs
  | _, _ => none

/-- The number that an unsigned literal stands for. -/
def unsigned? (piece : String) : Option Datum :=
  let digits := piece.toList.dropLast
  let n := digits.foldl (fun n c => 10 * n + (c.toNat - '0'.toNat)) 0
  if piece.toList.getLast? = some 'u' ∧ (digits = ['0'] ∨ digits.head?.any (· ≠ '0')) ∧ digits.all Char.isDigit ∧
      n < 2 ^ 32 then some (.components (.uints [.ofNat n]))
  else none

/-- A value after the names behind points that come next, and the pieces after them. -/
def suffixed? : List String → Datum → Option (Datum × List String)
  | point :: name :: rest, d =>
    if point = "." then (d.select? name).bind (suffixed? rest) else some (d, point :: name :: rest)
  | rest, d => some (d, rest)

/-- The value of a name, a literal or an expression in parentheses, and the pieces after it. -/
def operand? (scope : List (String × Datum)) (inner : List String → Option (Datum × List String)) :
    List String → Option (Datum × List String)
  | [] => none
  | piece :: rest =>
    if piece = "(" then do
      let (d, rest) ← inner rest
      if rest.head? = some ")" then suffixed? rest.tail d else none
    else (scope.lookup piece <|> unsigned? piece).bind (suffixed? rest)

/-- The value of an operand or of a comparison of two, and the pieces after it; `depth` bounds the parentheses. -/
def value? (scope : List (String × Datum)) : Nat → List String → Option (Datum × List String)
  | 0, _ => none
  | depth + 1, ps => do
    let (d, rest) ← operand? scope (value? scope depth) ps
    if rest.take 2 = ["!", "="] then
      let (e, rest) ← operand? scope (value? scope depth) (rest.drop 2)
      return (← d.differs? e, rest)
    else return (d, rest)

/-- The value of the text of an expression where names have the given values. -/
def evaluate? (scope : List (String × Datum)) (text : String) : Option Datum := do
  let ps := pieces text.toList
  match ← value? scope (ps.count "(" + 1) ps with
  | (d, []) => some d
  | _ => none

/-- The uniform value that has the type and the components of a value. -/
def Datum.uniform? : Datum → Option UniformValue
  | components (.floats [x]) => some (.float x)
  | components (.floats [x, y]) => some (.vec2 x y)
  | components (.floats [x, y, z]) => some (.vec3 x y z)
  | components (.floats [x, y, z, w]) => some (.vec4 x y z w)
  | components (.ints [n]) => some (.int n)
  | components (.uints [n]) => some (.uint n)
  | components (.truths [b]) => some (.bool b)
  | _ => none

/-! ## Members of a packed block -/

/-- What a slot of a kind is in the text. -/
def Components.ofKind (words : List UInt32) : SlotKind → Components
  | .float => .floats (words.map .mk)
  | .int => .ints (words.map UInt32.toInt32)
  | .uint => .uints words

theorem ofWords?_shaderType (kind : SlotKind) (words : List UInt32) :
    Components.ofWords? kind.shaderType words = some (Components.ofKind words kind) := by
  cases kind with
  | float => rw [Components.ofWords?, if_pos (by decide)]; rfl
  | int => rw [Components.ofWords?, if_neg (by decide), if_pos (by decide)]; rfl
  | uint => rw [Components.ofWords?, if_neg (by decide), if_neg (by decide), if_pos (by decide)]; rfl

/-- The member that a value becomes. -/
def Components.stored (v : UniformValue) : Components := ofKind (Slot.ofValue v).words (.of v)

theorem membersFrom?_of_slotBytes {block : List UInt8} {values : List UniformValue} {index : Nat}
    (h : ∀ j v, values[j]? = some v → slotBytes block (index + j) = (Slot.ofValue v).toBytes)
    {names : List String} (hlength : names.length = values.length) :
    membersFrom? block index (names.zip (values.map fun v => (SlotKind.of v).shaderType)) =
      some (names.zip (values.map .stored)) := by
  induction values generalizing index names with
  | nil =>
    rw [List.map_nil, List.zip_nil_right, List.map_nil, List.zip_nil_right]
    rfl
  | cons v vs ih =>
    obtain ⟨n, names, rfl⟩ := List.exists_cons_of_length_eq_add_one hlength
    have hslot : Slot.ofBytes? (slotBytes block index) = some (Slot.ofValue v, []) := by
      rw [show index = index + 0 from rfl, h 0 v rfl]
      exact List.append_nil (Slot.ofValue v).toBytes ▸ Slot.ofBytes_toBytes _ []
    have hslots (j : Nat) (w : UniformValue) (hw : vs[j]? = some w) :
        slotBytes block (index + 1 + j) = (Slot.ofValue w).toBytes := by
      rw [Nat.add_right_comm]
      exact h (j + 1) w hw
    have hrest := ih hslots (Nat.succ.inj hlength)
    rw [List.map_cons, List.zip_cons_cons, membersFrom?, hslot]
    show (Components.ofWords? (SlotKind.of v).shaderType (Slot.ofValue v).words).bind _ = _
    rw [ofWords?_shaderType]
    show (membersFrom? block (index + 1) _).bind _ = _
    rw [hrest]
    rfl

theorem membersFrom?_packBlock {names : List String} {values : List UniformValue}
    (h : names.length = values.length) :
    membersFrom? (packBlock values) 0 (names.zip (values.map fun v => (SlotKind.of v).shaderType)) =
      some (names.zip (values.map .stored)) :=
  membersFrom?_of_slotBytes (fun j v hv => by rw [Nat.zero_add]; exact slotBytes_packBlock hv) h

/-- The first of two columns finds its place in the second. -/
theorem lookup_zip {α : Type} {names : List String} {xs : List α} (hn : names.Nodup) {i : Nat} {n : String} {x : α}
    (hname : names[i]? = some n) (hx : xs[i]? = some x) : (names.zip xs).lookup n = some x := by
  induction names generalizing xs i with
  | nil => cases hname
  | cons m names ih =>
    obtain ⟨hm, hn⟩ := List.nodup_cons.1 hn
    cases xs with
    | nil => cases hx
    | cons y xs =>
      rw [List.zip_cons_cons]
      cases i with
      | zero =>
        cases hname
        cases hx
        exact List.lookup_cons_self
      | succ i =>
        have hne : (n == m) = false := beq_false_of_ne fun he => hm (he ▸ List.mem_of_getElem? hname)
        rw [List.lookup_cons, hne]
        exact ih hn hname hx

/-! ## The expression for a value -/

/-- The pieces of a member of a structure. -/
theorem pieces_member {root n : String} (hroot : IsName root) (hn : IsName n) {rest : List Char}
    (hrest : (Lexeme.name n).fits rest = true) :
    pieces ((root ++ "." ++ n).toList ++ rest) = root :: "." :: n :: pieces rest := by
  have htext : (root ++ "." ++ n).toList ++ rest = root.toList ++ '.' :: (n.toList ++ rest) := by simp
  rw [htext, pieces_name hroot rfl, pieces_mark (by decide) rfl, pieces_name hn hrest]

theorem pieces_nil : pieces [] = [] := by simp [pieces, scan, scanFrom]

theorem pieces_literal : pieces "0u)".toList = ["0u", ")"] := by
  have hpiece : piece '0' ['u', ')'] = ⟨.number, ['u'], [')']⟩ := rfl
  have hmark : pieces [')'] = ")" :: pieces [] := pieces_mark (by decide) rfl
  rw [show "0u)".toList = '0' :: ['u', ')'] by decide, pieces_cons, hpiece, hmark, pieces_nil]
  decide

/-- The pieces of letters after a point at the end. -/
theorem pieces_letters {letters : String} (h : IsName letters) :
    pieces ('.' :: letters.toList) = [".", letters] := by
  have hname : pieces (letters.toList ++ []) = letters :: pieces [] := pieces_name h rfl
  rw [List.append_nil, pieces_nil] at hname
  rw [pieces_mark (by decide) rfl, hname]

/-- The pieces of the expression for a value. -/
def accessPieces (root n : String) : UniformValue → List String
  | .float _ | .int _ | .uint _ => [root, ".", n, ".", "x"]
  | .bool _ => ["(", root, ".", n, ".", "x", "!", "=", "0u", ")"]
  | .vec2 .. => [root, ".", n, ".", "xy"]
  | .vec3 .. => [root, ".", n, ".", "xyz"]
  | .vec4 .. => [root, ".", n]

theorem pieces_access {root n : String} (hroot : IsName root) (hn : IsName n) (v : UniformValue) :
    pieces (v.access (root ++ "." ++ n)).toList = accessPieces root n v := by
  have hletters (letters : String) (h : IsName letters) :
      pieces (root ++ "." ++ n ++ ("." ++ letters)).toList = [root, ".", n, ".", letters] := by
    have htext : ("." ++ letters).toList = '.' :: letters.toList := by simp
    rw [String.toList_append, htext, pieces_member hroot hn rfl, pieces_letters h]
  cases v with
  | float | int | uint => exact hletters "x" (by decide)
  | vec2 => exact hletters "xy" (by decide)
  | vec3 => exact hletters "xyz" (by decide)
  | vec4 =>
    have hmember : pieces ((root ++ "." ++ n).toList ++ []) = root :: "." :: n :: pieces [] :=
      pieces_member hroot hn rfl
    rwa [List.append_nil, pieces_nil] at hmember
  | bool =>
    have htext : ("(" ++ (root ++ "." ++ n) ++ ".x != 0u)").toList =
        '(' :: ((root ++ "." ++ n).toList ++ '.' :: ("x".toList ++ ' ' :: '!' :: '=' :: ' ' :: "0u)".toList)) := by simp
    show pieces ("(" ++ (root ++ "." ++ n) ++ ".x != 0u)").toList = _
    rw [htext, pieces_mark (by decide) rfl, pieces_member hroot hn rfl, pieces_mark (by decide) rfl,
      pieces_name (by decide) rfl, pieces_blank (by decide), pieces_mark (by decide) rfl, pieces_mark (by decide) rfl,
      pieces_blank (by decide), pieces_literal]
    rfl

/-! ## The value of the expression -/

section Access

variable {root n : String} {members : List (String × Components)} {c : Components}

/-- A member of the structure that a name stands for. -/
theorem operand?_member (hroot : IsName root) (hmember : members.lookup n = some c)
    (inner : List String → Option (Datum × List String)) (rest : List String) :
    operand? [(root, .record members)] inner (root :: "." :: n :: rest) = suffixed? rest (.components c) := by
  have hopen : root ≠ "(" := by
    rintro rfl
    exact absurd hroot (by decide)
  rw [operand?, if_neg hopen, List.lookup_cons_self]
  show suffixed? ("." :: n :: rest) (.record members) = _
  rw [suffixed?, if_pos rfl, Datum.select?, hmember]
  rfl

/-- An operand with nothing after it is the whole value. -/
theorem evaluate?_of_operand {scope : List (String × Datum)} {text : String} {ps : List String} {d : Datum}
    (hps : pieces text.toList = ps) (h : operand? scope (value? scope (ps.count "(")) ps = some (d, [])) :
    evaluate? scope text = some d := by
  have hvalue : value? scope (ps.count "(" + 1) ps = some (d, []) := by
    rw [value?, h]
    rfl
  unfold evaluate?
  rw [hps]
  show (value? scope (ps.count "(" + 1) ps).bind _ = _
  rw [hvalue]
  rfl

/-- The comparison that a truth value is read by. -/
theorem value?_truth (hroot : IsName root) {word : UInt32} (hmember : members.lookup n = some (.uints [word, 0, 0, 0]))
    (depth : Nat) :
    value? [(root, .record members)] (depth + 1) [root, ".", n, ".", "x", "!", "=", "0u", ")"] =
      some (.components (.truths [word != 0]), [")"]) := by
  -- names do not begin with a digit, and so the literal is not taken for the root
  have hliteral : ("0u" == root) = false := by
    refine beq_false_of_ne ?_
    rintro rfl
    exact absurd hroot (by decide)
  have hzero : unsigned? "0u" = some (.components (.uints [0])) := by decide
  have hright (inner : List String → Option (Datum × List String)) :
      operand? [(root, .record members)] inner ["0u", ")"] = some (.components (.uints [0]), [")"]) := by
    rw [operand?, if_neg (by decide), List.lookup_cons, hliteral, List.lookup_nil, hzero]
    rfl
  rw [value?, operand?_member hroot hmember]
  show (operand? [(root, .record members)] _ ["0u", ")"]).bind _ = _
  rw [hright]
  rfl

theorem evaluate?_access (hroot : IsName root) (hn : IsName n) {v : UniformValue}
    (hmember : members.lookup n = some (.stored v)) :
    (evaluate? [(root, .record members)] (v.access (root ++ "." ++ n))).bind Datum.uniform? = some v := by
  have hps := pieces_access hroot hn v
  have hplain {rest : List String} {d : Datum} (hv : accessPieces root n v = root :: "." :: n :: rest)
      (hrest : suffixed? rest (.components (.stored v)) = some (d, [])) :
      evaluate? [(root, .record members)] (v.access (root ++ "." ++ n)) = some d :=
    evaluate?_of_operand (hps.trans hv) ((operand?_member hroot hmember _ rest).trans hrest)
  cases v with
  | float => rw [hplain rfl rfl]; rfl
  | int k =>
    rw [hplain rfl rfl]
    show some (UniformValue.int k.toUInt32.toInt32) = _
    rw [Int32.toInt32_toUInt32]
  | uint => rw [hplain rfl rfl]; rfl
  | vec2 => rw [hplain rfl rfl]; rfl
  | vec3 => rw [hplain rfl rfl]; rfl
  | vec4 => rw [hplain rfl rfl]; rfl
  | bool b =>
    have hopen : operand? [(root, .record members)] (value? [(root, .record members)]
        ((accessPieces root n (.bool b)).count "(")) (accessPieces root n (.bool b)) =
          some (.components (.truths [b]), []) := by
      rw [accessPieces, List.count_cons_self, operand?, if_pos rfl, value?_truth hroot hmember]
      cases b <;> rfl
    rw [evaluate?_of_operand hps hopen]
    rfl

end Access

end Wgsl

/-! ## Both readers -/

open Wgsl

/-- A packed block has sixteen bytes for each value.  By the kinds of its values it is unpacked to values that give the
same floats, vectors and truth values, position by position; unpacking fails exactly if there are not sixteen bytes for
each kind.  If the block is a structure with a member for each value, of the shader type of the value's kind, then the
expression for a value has that value. -/
theorem packBlock_read_back (label : String) (values : List UniformValue) :
    (packBlock values).length = 16 * values.length ∧
    (∃ read, unpackBlock label (values.map .of) (packBlock values) = .ok read ∧
      List.Forall₂ UniformValue.SameReading values read) ∧
    (∀ (kinds : List SlotKind) (bytes : List UInt8) (e : Error), unpackBlock label kinds bytes = .error e ↔
      bytes.length ≠ 16 * kinds.length ∧ e = .resource (.blockSize label bytes.length (16 * kinds.length))) ∧
    ∀ (root : String) (names : List String), IsName root → (∀ n ∈ names, IsName n) → names.Nodup →
      names.length = values.length →
      let slots := names.zip (values.map SlotKind.of)
      ∃ members, membersFrom? (packBlock values) 0 (slots.map fun s => (s.1, s.2.shaderType)) = some members ∧
        ∀ (i : Nat) (n : String) (v : UniformValue), names[i]? = some n → values[i]? = some v →
          (evaluate? [(root, .record members)] (v.access (root ++ "." ++ n))).bind Datum.uniform? = some v := by
  refine ⟨length_packBlock values, ⟨_, ?_, forall₂_sameReading values⟩, fun _ _ _ => unpackBlock_error_iff, ?_⟩
  · rw [unpackBlock, unpackBlock?_packBlock (by rw [List.length_map])]
  · intro root names hroot hnames hnodup hlength slots
    have hfields : slots.map (fun s => (s.1, s.2.shaderType)) =
        names.zip (values.map fun v => (SlotKind.of v).shaderType) := by
      have htypes : values.map (fun v => (SlotKind.of v).shaderType) =
          (values.map SlotKind.of).map SlotKind.shaderType := by rw [List.map_map, Function.comp_def]
      rw [htypes, List.zip_map_right]
      rfl
    refine ⟨_, hfields ▸ membersFrom?_packBlock hlength, fun i n v hn hv => ?_⟩
    refine evaluate?_access hroot (hnames n (List.mem_of_getElem? hn)) (lookup_zip hnodup hn ?_)
    rw [List.getElem?_map, hv]
    rfl

/-- The text reads a truth value, two floats and a negative number out of their block. -/
theorem packBlock_read_back_three :
    let values : List UniformValue := [.bool true, .vec2 ⟨0x7fc00001⟩ ⟨0x3f800000⟩, .int (-3)]
    let names := ["on", "offset", "count"]
    let slots := names.zip (values.map SlotKind.of)
    ∃ members, membersFrom? (packBlock values) 0 (slots.map fun s => (s.1, s.2.shaderType)) = some members ∧
      ∀ (i : Nat) (n : String) (v : UniformValue), names[i]? = some n → values[i]? = some v →
        (evaluate? [("fx", .record members)] (v.access ("fx" ++ "." ++ n))).bind Datum.uniform? = some v :=
  (packBlock_read_back "draw" [.bool true, .vec2 ⟨0x7fc00001⟩ ⟨0x3f800000⟩, .int (-3)]).2.2.2 "fx"
    ["on", "offset", "count"] (by decide) (by decide) (by decide) rfl

end ScreenFusion
