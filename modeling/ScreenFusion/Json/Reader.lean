import ScreenFusion.Json.Basic
import ScreenFusion.Text.Hexadecimal

/-!
# ScreenFusion.Json.Reader — JSON text

Reading is two machines in a row, each a fold over its input.  The scanner takes characters to tokens: marks, texts
with their escapes resolved, and bare words.  The builder takes tokens to a value with a stack of open arrays and
objects.

`read?` is the value of a text that is exactly one JSON value, blanks around it apart.  It takes numbers of any size,
texts with half of a surrogate pair and values nested to any depth; `Value.isSound` says that a value has none of these
beyond the limits.
-/

namespace ScreenFusion.Json

/-- A token of JSON text. -/
inductive Token where
  /-- One of the six marks. -/
  | mark (c : Char)
  /-- A text, unless it has half of a surrogate pair. -/
  | text (s : Option String)
  /-- A run of other characters: a literal name or a number. -/
  | word (cs : List Char)
  deriving Inhabited

/-! ## Scanning -/

/-- Where the scanner stands. -/
inductive ScanMode where
  | between
  | word (reversed : List Char)
  /-- Inside a text; the characters and escaped units so far, last first. -/
  | text (reversed : List Nat)
  | escape (reversed : List Nat)
  /-- After a hexadecimal escape has begun: the value so far and the digits still missing. -/
  | hex (reversed : List Nat) (value missing : Nat)
  deriving Inhabited

/-- The tokens so far, last first, and where the scanner stands. -/
structure Scan where
  tokens : List Token
  mode : ScanMode

/-- The blanks of JSON. -/
def isSpace (c : Char) : Bool := c == ' ' || c == '\n' || c == '\t' || c == '\r'

/-- The marks of JSON. -/
def isMark (c : Char) : Bool :=
  c == '[' || c == ']' || c == ',' || c == ':' || c.toNat == 0x7b || c.toNat == 0x7d

/-- The characters of a text whose escapes may have written surrogate pairs; a lone surrogate has none. -/
def joinSurrogates? : List Nat → Option (List Char)
  | [] => some []
  | u :: us =>
    if 0xd800 ≤ u ∧ u < 0xdc00 then
      match us with
      | v :: vs =>
        if 0xdc00 ≤ v ∧ v < 0xe000 then
          (joinSurrogates? vs).map (Char.ofNat (0x10000 + 0x400 * (u - 0xd800) + (v - 0xdc00)) :: ·)
        else none
      | [] => none
    else if 0xdc00 ≤ u ∧ u < 0xe000 then none
    else (joinSurrogates? us).map (Char.ofNat u :: ·)

/-- The unit that a one-letter escape stands for. -/
def escaped? (c : Char) : Option Nat :=
  match c with
  | '"' | '\\' | '/' => some c.toNat
  | 'b' => some 8
  | 'f' => some 12
  | 'n' => some 10
  | 'r' => some 13
  | 't' => some 9
  | _ => none

/-- One character outside texts. -/
def Scan.outside (tokens : List Token) (c : Char) : Scan :=
  if isSpace c then ⟨tokens, .between⟩
  else if isMark c then ⟨.mark c :: tokens, .between⟩
  else if c == '"' then ⟨tokens, .text []⟩
  else ⟨tokens, .word [c]⟩

/-- One character. -/
def Scan.step? (s : Scan) (c : Char) : Option Scan :=
  match s.mode with
  | .between => some (Scan.outside s.tokens c)
  | .word reversed =>
    if isSpace c || isMark c || c == '"' then
      some (Scan.outside (.word reversed.reverse :: s.tokens) c)
    else some ⟨s.tokens, .word (c :: reversed)⟩
  | .text reversed =>
    if c == '"' then
      some ⟨.text ((joinSurrogates? reversed.reverse).map String.ofList) :: s.tokens, .between⟩
    else if c == '\\' then some ⟨s.tokens, .escape reversed⟩
    else if c.toNat < 0x20 then none
    else some ⟨s.tokens, .text (c.toNat :: reversed)⟩
  | .escape reversed =>
    if c == 'u' then some ⟨s.tokens, .hex reversed 0 4⟩
    else (escaped? c).map fun u => ⟨s.tokens, .text (u :: reversed)⟩
  | .hex reversed value missing =>
    (Text.hexDigit? c).map fun d =>
      let value := 16 * value + d
      ⟨s.tokens, if missing ≤ 1 then .text (value :: reversed) else .hex reversed value (missing - 1)⟩

/-- The tokens of a text; none if a text in it is broken or left open. -/
def scan? (cs : List Char) : Option (List Token) := do
  let s ← cs.foldlM Scan.step? ⟨[], .between⟩
  match s.mode with
  | .between => some s.tokens.reverse
  | .word reversed => some (.word reversed.reverse :: s.tokens).reverse
  | _ => none

/-! ## Words -/

/-- The digits at the front, and the rest. -/
def spanDigits (cs : List Char) : List Nat × List Char :=
  ((cs.takeWhile Char.isDigit).map fun c => c.toNat - 48, cs.dropWhile Char.isDigit)

/-- The exponent part of a number: nothing, or the letter, a sign and digits. -/
def exponent? : List Char → Option (Option Int)
  | [] => some none
  | e :: cs =>
    if e == 'e' || e == 'E' then
      let (negative, cs) := match cs with
        | '-' :: r => (true, r)
        | '+' :: r => (false, r)
        | r => (false, r)
      match spanDigits cs with
      | ([], _) => none
      | (digits, []) =>
        let size : Int := Number.ofDigits digits
        some (some (if negative then -size else size))
      | _ => none
    else none

/-- The fraction part of a number and what follows it. -/
def fraction? : List Char → Option (List Nat × List Char)
  | '.' :: cs => match spanDigits cs with
    | ([], _) => none
    | r => some r
  | cs => some ([], cs)

/-- A number word: no leading zeros, digits on both sides of a point. -/
def number? (cs : List Char) : Option Number := do
  let (negative, cs) := match cs with
    | '-' :: r => (true, r)
    | r => (false, r)
  let (whole, cs) := spanDigits cs
  if whole.isEmpty || (whole.head? == some 0 && 1 < whole.length) then none
  let (fraction, cs) ← fraction? cs
  let exponent ← exponent? cs
  some ⟨negative, whole, fraction, exponent⟩

/-- The value of a word. -/
def word? (cs : List Char) : Option Value :=
  match String.ofList cs with
  | "null" => some .null
  | "true" => some (.bool true)
  | "false" => some (.bool false)
  | _ => (number? cs).map .number

/-! ## Building -/

/-- The members of an open object so far, last first; a name with half of a surrogate pair is none. -/
abbrev Members := List (Option String × Value)

/-- An open array or object, its entries so far last first. -/
inductive Frame where
  | array (reversed : List Value)
  /-- An object that waits for the value of a name. -/
  | object (reversed : Members) (name : Option String)
  deriving Inhabited

/-- What may come next. -/
inductive Expect where
  | value
  /-- A value or the end of the array just opened. -/
  | firstItem
  /-- A name or the end of the object just opened. -/
  | firstName (reversed : Members)
  | name (reversed : Members)
  | colon (reversed : Members) (name : Option String)
  /-- A separator or the end, after an entry. -/
  | separator (last : Value)
  deriving Inhabited

/-- The open arrays and objects, innermost first, and what may come next. -/
structure Build where
  stack : List Frame
  expect : Expect

/-- The object with the given members, last first. -/
def Value.ofMembers (reversed : Members) : Value :=
  match reversed.reverse.mapM fun m => m.1.map fun name => (name, m.2) with
  | some members => .object members
  | none => .unpaired

/-- A token where a value may begin. -/
def Build.begin? (stack : List Frame) : Token → Option Build
  | .text (some s) => some ⟨stack, .separator (.string s)⟩
  | .text none => some ⟨stack, .separator .unpaired⟩
  | .word cs => (word? cs).map fun v => ⟨stack, .separator v⟩
  | .mark '[' => some ⟨.array [] :: stack, .firstItem⟩
  | .mark c => if c.toNat == 0x7b then some ⟨stack, .firstName []⟩ else none

/-- One token. -/
def Build.step? (b : Build) (t : Token) : Option Build :=
  match b.expect, t with
  | .value, t => Build.begin? b.stack t
  | .firstItem, .mark ']' => some ⟨b.stack.tail, .separator (.array [])⟩
  | .firstItem, t => Build.begin? b.stack t
  | .firstName members, .text s => some ⟨b.stack, .colon members s⟩
  | .firstName _, .mark c =>
    if c.toNat == 0x7d then some ⟨b.stack, .separator (.object [])⟩ else none
  | .firstName _, _ => none
  | .name members, .text s => some ⟨b.stack, .colon members s⟩
  | .name _, _ => none
  | .colon members s, .mark ':' => some ⟨.object members s :: b.stack, .value⟩
  | .colon _ _, _ => none
  | .separator v, .mark c =>
    match b.stack with
    | .array items :: stack =>
      if c == ',' then some ⟨.array (v :: items) :: stack, .value⟩
      else if c == ']' then some ⟨stack, .separator (.array (v :: items).reverse)⟩
      else none
    | .object members s :: stack =>
      if c == ',' then some ⟨stack, .name ((s, v) :: members)⟩
      else if c.toNat == 0x7d then some ⟨stack, .separator (.ofMembers ((s, v) :: members))⟩
      else none
    | [] => none
  | .separator _, _ => none

/-- The value of a text that is one JSON value. -/
def read? (text : String) : Option Value := do
  let tokens ← scan? text.toList
  let b ← tokens.foldlM Build.step? ⟨[], .value⟩
  match b.stack, b.expect with
  | [], .separator v => some v
  | _, _ => none

/-! ## Limits -/

/-- How many arrays and objects may stand one inside the other. -/
def maxDepth : Nat := 127

mutual

/-- Whether a value is nested to at most `room` arrays and objects, has no half of a surrogate pair and only numbers in
range. -/
def Value.isSoundIn (room : Nat) : Value → Bool
  | .number n => n.numeral?.isSome
  | .unpaired => false
  | .array items => 0 < room && itemsSoundIn (room - 1) items
  | .object members => 0 < room && membersSoundIn (room - 1) members
  | _ => true

/-- Whether every item is sound. -/
def itemsSoundIn (room : Nat) : List Value → Bool
  | [] => true
  | v :: vs => v.isSoundIn room && itemsSoundIn room vs

/-- Whether every member is sound. -/
def membersSoundIn (room : Nat) : List (String × Value) → Bool
  | [] => true
  | (_, v) :: vs => v.isSoundIn room && membersSoundIn room vs

end

/-- Whether a value keeps to the limits of depth, characters and numbers. -/
def Value.isSound (v : Value) : Bool := v.isSoundIn maxDepth

end ScreenFusion.Json
