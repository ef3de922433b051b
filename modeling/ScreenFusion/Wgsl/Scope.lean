import ScreenFusion.Wgsl.Token

/-!
# ScreenFusion.Wgsl.Scope — renaming the free names of a fragment

Renaming reads a fragment token by token and keeps the names that the fragment declares for itself: parameters, locals
and loop variables, block by block.  A free name is renamed where none of these is in force; declaring occurrences of
parameters, locals and members are left alone.

* `rename_none`: a renaming of nothing changes nothing.
-/

namespace ScreenFusion.Wgsl

/-- What the names at a place are. -/
inductive ScopeMode where
  | code
  /-- Between `fn` and its parameter list. -/
  | header
  /-- In a parameter list; `naming` if the next name is a parameter. -/
  | params (naming : Bool)
  /-- After `let`, `var` or `const`. -/
  | localName
  /-- In the head or body of a structure; `naming` if the next name is a member. -/
  | struct (naming : Bool)
  deriving DecidableEq, Inhabited

/-- The names in force at a place of a fragment. -/
structure Scopes where
  /-- Names of the open blocks, innermost first. -/
  blocks : List (List String)
  /-- Names that the text outside blocks declares locally. -/
  outermost : List String
  /-- Names that come into force with the next block: parameters and loop variables. -/
  nextBlock : List String
  parens : Nat
  /-- The depth of parentheses in the parameter list. -/
  paramDepth : Nat
  mode : ScopeMode
  /-- A local whose declaration has not ended, and the depth of parentheses it stands at. -/
  pending : Option (String × Nat)
  deriving DecidableEq, Inhabited

namespace Scopes

/-- The beginning of a fragment. -/
def start : Scopes := ⟨[], [], [], 0, 0, .code, none⟩

/-- Whether a name is declared at the place. -/
def declares (s : Scopes) (name : String) : Bool :=
  s.blocks.any (·.contains name) || s.outermost.contains name || s.nextBlock.contains name

/-- The address spaces that may stand between `var` and the name. -/
def addressSpaces : List String := ["function", "private", "workgroup", "uniform", "storage"]

/-- A declared name added to the innermost block. -/
def addLocal (s : Scopes) (name : String) : Scopes :=
  match s.blocks with
  | [] => { s with outermost := s.outermost ++ [name] }
  | b :: bs => { s with blocks := (b ++ [name]) :: bs }

/-- A free name: whether it may be renamed, and the scopes after it. -/
def name (s : Scopes) (text : String) : Bool × Scopes :=
  match s.mode with
  | .code =>
    if text = "fn" then (false, { s with mode := .header })
    else if text = "let" ∨ text = "var" ∨ text = "const" then (false, { s with mode := .localName })
    else if text = "struct" then (false, { s with mode := .struct false })
    else (!s.declares text, s)
  | .header => (true, s)
  | .params naming =>
    if naming ∧ s.parens = s.paramDepth then
      (false, { s with nextBlock := s.nextBlock ++ [text], mode := .params false })
    else (!s.declares text, s)
  | .localName =>
    if text ∈ addressSpaces then (false, s)
    else (false, { s with pending := some (text, s.parens), mode := .code })
  | .struct naming =>
    if naming then (false, { s with mode := .struct false }) else (!s.declares text, s)

/-- An opening parenthesis. -/
def openParen (s : Scopes) : Scopes :=
  let s := { s with parens := s.parens + 1 }
  if s.mode = .header then { s with paramDepth := s.parens, mode := .params true } else s

/-- A closing parenthesis. -/
def closeParen (s : Scopes) : Scopes :=
  let mode := match s.mode with
    | .params naming => if s.parens = s.paramDepth then .code else .params naming
    | mode => mode
  { s with mode, parens := s.parens - 1 }

/-- A comma. -/
def comma (s : Scopes) : Scopes :=
  match s.mode with
  | .params _ => if s.parens = s.paramDepth then { s with mode := .params true } else s
  | .struct _ => { s with mode := .struct true }
  | _ => s

/-- An opening brace. -/
def openBlock (s : Scopes) : Scopes :=
  match s.mode with
  | .struct _ => { s with mode := .struct true, blocks := [] :: s.blocks }
  | _ => { s with blocks := s.nextBlock :: s.blocks, nextBlock := [] }

/-- A closing brace. -/
def closeBlock (s : Scopes) : Scopes :=
  let mode := match s.mode with
    | .struct _ => .code
    | mode => mode
  { s with mode, blocks := s.blocks.tail, pending := none }

/-- A semicolon: a pending local at this depth comes into force. -/
def semicolon (s : Scopes) : Scopes :=
  match s.pending with
  | some (name, depth) =>
    if depth = s.parens then
      let s := { s with pending := none }
      if 0 < depth then { s with nextBlock := s.nextBlock ++ [name] } else s.addLocal name
    else s
  | none => s

/-- A piece that is no name. -/
def other (s : Scopes) : List Char → Scopes
  | ['('] => s.openParen
  | [')'] => s.closeParen
  | [','] => s.comma
  | ['\x7b'] => s.openBlock
  | ['\x7d'] => s.closeBlock
  | [';'] => s.semicolon
  | _ => s

end Scopes

/-- The text that a token becomes, and the scopes after it. -/
def renameToken (substitute : String → Option String) (s : Scopes) : Token → List Char × Scopes
  | .name text true =>
    let (renamable, s) := s.name (String.ofList text)
    let new := if renamable then substitute (String.ofList text) else none
    ((new.map String.toList).getD text, s)
  | .name text false => (text, s)
  | .other text => (text, s.other text)

/-- The text that tokens become. -/
def renameTokens (substitute : String → Option String) : Scopes → List Token → List Char
  | _, [] => []
  | s, t :: ts =>
    let (text, s) := renameToken substitute s t
    text ++ renameTokens substitute s ts

/-- The fragment with free names replaced where there is a substitute. -/
def rename (substitute : String → Option String) (source : List Char) : List Char :=
  renameTokens substitute .start (scan source)

theorem renameTokens_none (s : Scopes) (ts : List Token) :
    renameTokens (fun _ => none) s ts = ts.flatMap Token.text := by
  induction ts generalizing s with
  | nil => rfl
  | cons t ts ih =>
    simp only [renameTokens, List.flatMap_cons, ih]
    congr 1
    cases t with
    | other text => rfl
    | name text free => cases free <;> simp [renameToken, Token.text]

theorem rename_none (source : List Char) : rename (fun _ => none) source = source := by
  rw [rename, renameTokens_none, text_scan]

end ScreenFusion.Wgsl
