import ScreenFusion.Wgsl.Name

/-!
# ScreenFusion.Wgsl.Token — the tokens of shader text

Scanning cuts a text into names and other pieces: comments, numbers and single characters.  Nothing is dropped.  A name
right after a point or an at-sign, blanks and comments apart, is a member or an attribute and not free.

* `text_scan`: the pieces of a text make up the text.
-/

namespace ScreenFusion.Wgsl

/-- A piece of shader text. -/
inductive Token where
  /-- A name; `free` unless it is a member or an attribute. -/
  | name (text : List Char) (free : Bool)
  /-- A comment, a number or a single character. -/
  | other (text : List Char)
  deriving DecidableEq, Inhabited

namespace Token

/-- The characters of a piece. -/
def text : Token → List Char
  | name t _ => t
  | other t => t

end Token

/-! ## Pieces -/

/-- What kind of piece begins at a character. -/
inductive PieceKind where
  | comment
  | name
  | number
  | mark
  deriving DecidableEq, Inhabited

/-- A piece without its first character, and the text after it. -/
structure Piece where
  kind : PieceKind
  body : List Char
  rest : List Char

/-- The text up to the first end mark of a block comment, and the text after it. -/
def spanBlock : List Char → List Char × List Char
  | [] => ([], [])
  | '*' :: '/' :: rest => (['*', '/'], rest)
  | c :: cs =>
    let (body, rest) := spanBlock cs
    (c :: body, rest)

/-- Letters, digits and points, and a sign right after a letter `e`; and the text after them.  `signed` if a sign may
come first. -/
def spanNumber : Bool → List Char → List Char × List Char
  | _, [] => ([], [])
  | signed, c :: cs =>
    if c.isAlphanum || c == '.' || (signed && (c == '+' || c == '-')) then
      let (body, rest) := spanNumber (c == 'e' || c == 'E') cs
      (c :: body, rest)
    else ([], c :: cs)

/-- The piece that begins at a character. -/
def piece (c : Char) (cs : List Char) : Piece :=
  if c = '/' ∧ cs.head? = some '/' then
    ⟨.comment, cs.takeWhile (· ≠ '\n'), cs.dropWhile (· ≠ '\n')⟩
  else if c = '/' ∧ cs.head? = some '*' then
    let (body, rest) := spanBlock cs.tail
    ⟨.comment, '*' :: body, rest⟩
  else if isNameStart c then ⟨.name, cs.takeWhile isNameRest, cs.dropWhile isNameRest⟩
  else if c.isDigit then
    let (body, rest) := spanNumber false cs
    ⟨.number, body, rest⟩
  else ⟨.mark, [], cs⟩

theorem spanBlock_append (cs : List Char) : (spanBlock cs).1 ++ (spanBlock cs).2 = cs := by
  fun_induction spanBlock cs with
  | case1 => rfl
  | case2 => rfl
  | case3 c cs _ body rest h ih => rw [h] at ih; simpa using ih

theorem spanNumber_append (signed : Bool) (cs : List Char) :
    (spanNumber signed cs).1 ++ (spanNumber signed cs).2 = cs := by
  fun_induction spanNumber signed cs with
  | case1 => rfl
  | case2 signed c cs _ body rest h ih => rw [h] at ih; simpa using ih
  | case3 => rfl

theorem piece_append (c : Char) (cs : List Char) : (piece c cs).body ++ (piece c cs).rest = cs := by
  unfold piece
  split
  · exact List.takeWhile_append_dropWhile
  · split
    · next h =>
      obtain ⟨-, h⟩ := h
      cases cs with
      | nil => simp at h
      | cons d ds =>
        simp only [List.head?_cons, Option.some.injEq] at h
        subst h
        simpa using spanBlock_append ds
    · split
      · exact List.takeWhile_append_dropWhile
      · split
        · exact spanNumber_append false cs
        · rfl

theorem length_rest_piece_le (c : Char) (cs : List Char) : (piece c cs).rest.length ≤ cs.length := by
  have h := congrArg List.length (piece_append c cs)
  simp only [List.length_append] at h
  omega

/-! ## Scanning -/

/-- The blanks of shader text that matter to members and attributes. -/
def isAsciiSpace (c : Char) : Bool :=
  c == ' ' || c == '\t' || c == '\n' || c == '\x0c' || c == '\r'

/-- Whether a name right after a mark is a member or an attribute; a blank leaves that as it was. -/
def attaches (attached : Bool) (mark : Char) : Bool :=
  if isAsciiSpace mark then attached else mark == '.' || mark == '@'

/-- The tokens of a text; `attached` if the last character before it that counts is a point or an at-sign. -/
def scanFrom (attached : Bool) : List Char → List Token
  | [] => []
  | c :: cs =>
    let p := piece c cs
    match p.kind with
    | .comment => .other (c :: p.body) :: scanFrom attached p.rest
    | .name => .name (c :: p.body) (!attached) :: scanFrom false p.rest
    | .number => .other (c :: p.body) :: scanFrom false p.rest
    | .mark => .other (c :: p.body) :: scanFrom (attaches attached c) p.rest
termination_by cs => cs.length
decreasing_by
  all_goals
    have shorter := length_rest_piece_le c cs
    simp only [List.length_cons]
    omega

/-- The tokens of a text. -/
def scan (source : List Char) : List Token := scanFrom false source

theorem text_scanFrom (attached : Bool) (cs : List Char) : (scanFrom attached cs).flatMap Token.text = cs := by
  fun_induction scanFrom attached cs with
  | case1 => rfl
  | case2 _ c cs p _ ih => simp [Token.text, ih, p, piece_append]
  | case3 _ c cs p _ ih => simp [Token.text, ih, p, piece_append]
  | case4 _ c cs p _ ih => simp [Token.text, ih, p, piece_append]
  | case5 _ c cs p _ ih => simp [Token.text, ih, p, piece_append]

theorem text_scan (source : List Char) : (scan source).flatMap Token.text = source :=
  text_scanFrom false source

/-! ## Declared items -/

/-- The names found so far and whether the next name is one that is declared. -/
structure Declared where
  names : List String
  expected : Bool

/-- One token: a name after `fn` or `struct` is declared, and counted once. -/
def Declared.step (d : Declared) : Token → Declared
  | .other _ => d
  | .name text _ =>
    let name := String.ofList text
    if d.expected then ⟨if d.names.contains name then d.names else d.names ++ [name], false⟩
    else ⟨d.names, name == "fn" || name == "struct"⟩

/-- The names that `fn` and `struct` declare, in order of first declaration. -/
def declaredItems (source : List Char) : List String :=
  ((scan source).foldl Declared.step ⟨[], false⟩).names

end ScreenFusion.Wgsl
