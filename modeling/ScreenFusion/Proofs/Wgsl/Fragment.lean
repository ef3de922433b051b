import ScreenFusion.Proofs.Wgsl.Lexeme

/-!
# ScreenFusion.Proofs.Wgsl.Fragment — fragments of the shader language and what their names mean

A fragment is a list of functions, structures and values.  The bodies of functions are trees of statements and blocks; an
expression, a type or the head of a statement is a phrase, of which only the names, the members and the parentheses count.

A name means a parameter or local if one of that name is in force: a local from the end of its declaration to the end of
its block, a variable of a loop to the end of the loop, a parameter in the body of its function.  A name else means
something of the module.

* `Phrase`, `Binding`, `Stmts`, `Item`: the syntax.
* `marked`: the lexemes of a piece of syntax, in which the names that mean something of the module are marked.
-/

namespace ScreenFusion.Wgsl

/-- Words that are no names that a fragment can use: keywords, and the underscore of an assignment that drops its value. -/
def isReserved (n : String) : Bool := isKeyword n || n == "_"

/-- A word of the language. -/
def keyword (n : String) : Lexeme × Option (List String) := (.name n, none)

/-- A name that is declared here, or the name of a member. -/
def declaring (n : String) : Lexeme × Option (List String) := (.name n, none)

/-- A punctuation mark. -/
def punctuation (c : Char) : Lexeme × Option (List String) := (.mark c, none)

/-- A use of a name where the local names `env` are in force. -/
def occurring (env : List String) (n : String) : Lexeme × Option (List String) :=
  (.name n, if isReserved n || env.contains n then none else some env)

/-! ## Phrases -/

/-- A part of a statement or a type, balanced in parentheses. -/
inductive Phrase where
  | nil
  | word (n : String) (rest : Phrase)
  /-- A point and the name of a member. -/
  | member (n : String) (rest : Phrase)
  | number (d : Decimal) (rest : Phrase)
  | mark (c : Char) (rest : Phrase)
  | parens (inner rest : Phrase)

namespace Phrase

/-- Words that begin a declaration. -/
def declarators : List String := ["fn", "let", "var", "const", "struct"]

/-- Whether the words are none that begin a declaration, and the marks none that structure the text; `commas` if commas
may occur. -/
def proper (commas : Bool) : Phrase → Bool
  | nil => true
  | word n rest => !declarators.contains n && rest.proper commas
  | member _ rest => rest.proper commas
  | number _ rest => rest.proper commas
  | mark c rest => !(['.', ';', '(', ')', '\x7b', '\x7d'].contains c) && (commas || c != ',') && rest.proper commas
  | parens inner rest => inner.proper commas && rest.proper commas

/-- The names in a phrase but for those of members. -/
def words : Phrase → List String
  | nil => []
  | word n rest => n :: rest.words
  | member _ rest => rest.words
  | number _ rest => rest.words
  | mark _ rest => rest.words
  | parens inner rest => inner.words ++ rest.words

def marked (env : List String) : Phrase → Marked
  | nil => []
  | word n rest => occurring env n :: rest.marked env
  | member n rest => punctuation '.' :: declaring n :: rest.marked env
  | number d rest => (.number d, none) :: rest.marked env
  | mark c rest => punctuation c :: rest.marked env
  | parens inner rest => punctuation '(' :: (inner.marked env ++ punctuation ')' :: rest.marked env)

end Phrase

/-! ## Statements -/

/-- Where a variable is. -/
inductive AddressSpace where
  | function
  | priv
  | workgroup
  | uniform
  | storage
  deriving DecidableEq

/-- The word for an address space. -/
def AddressSpace.word : AddressSpace → String
  | function => "function"
  | priv => "private"
  | workgroup => "workgroup"
  | uniform => "uniform"
  | storage => "storage"

/-- How a local or a value of the module is declared. -/
inductive BindingKind where
  | letBinding
  | constBinding
  | varBinding (space : Option AddressSpace)

def BindingKind.marked : BindingKind → Marked
  | letBinding => [keyword "let"]
  | constBinding => [keyword "const"]
  | varBinding none => [keyword "var"]
  | varBinding (some space) => [keyword "var", punctuation '<', keyword space.word, punctuation '>']

/-- A declaration of a local or of a value of the module, up to its semicolon. -/
structure Binding where
  kind : BindingKind
  name : String
  /-- The type and the value with their marks. -/
  content : Phrase

namespace Binding

def proper (d : Binding) : Bool := d.content.proper true

/-- A declaration does not see the name that it declares. -/
def marked (env : List String) (d : Binding) : Marked := d.kind.marked ++ declaring d.name :: d.content.marked env

end Binding

/-- How a `for` begins. -/
inductive LoopStart where
  | binding (d : Binding)
  | phrase (p : Phrase)

namespace LoopStart

def proper : LoopStart → Bool
  | binding d => d.proper
  | phrase p => p.proper true

/-- The variable of the loop, if it has one. -/
def names : LoopStart → List String
  | binding d => [d.name]
  | phrase _ => []

def marked (env : List String) : LoopStart → Marked
  | binding d => d.marked env
  | phrase p => p.marked env

end LoopStart

/-- Statements one after another. -/
inductive Stmts where
  | nil
  /-- A statement that ends with a semicolon. -/
  | simple (p : Phrase) (rest : Stmts)
  | binding (d : Binding) (rest : Stmts)
  /-- A block with what stands before it: nothing, or the head of an `if`, `else`, `while`, `loop`, `switch`, `case`,
  `default` or `continuing`. -/
  | block (head : Phrase) (body rest : Stmts)
  | loop (start : LoopStart) (condition update : Phrase) (body rest : Stmts)

namespace Stmts

def proper : Stmts → Bool
  | nil => true
  | simple p rest => p.proper true && rest.proper
  | binding d rest => d.proper && rest.proper
  | block head body rest => head.proper true && body.proper && rest.proper
  | loop start condition update body rest =>
    start.proper && condition.proper true && update.proper true && body.proper && rest.proper

/-- The names that the statements declare for those after them. -/
def locals : Stmts → List String
  | nil => []
  | simple _ rest => rest.locals
  | binding d rest => d.name :: rest.locals
  | block _ _ rest => rest.locals
  | loop _ _ _ _ rest => rest.locals

/-- The names that the statements and the blocks among them declare. -/
def bound : Stmts → List String
  | nil => []
  | simple _ rest => rest.bound
  | binding d rest => d.name :: rest.bound
  | block _ body rest => body.bound ++ rest.bound
  | loop start _ _ body rest => start.names ++ (body.bound ++ rest.bound)

def marked (env : List String) : Stmts → Marked
  | nil => []
  | simple p rest => p.marked env ++ punctuation ';' :: rest.marked env
  | binding d rest => d.marked env ++ punctuation ';' :: rest.marked (d.name :: env)
  | block head body rest =>
    head.marked env ++ punctuation '\x7b' :: (body.marked env ++ punctuation '\x7d' :: rest.marked env)
  | loop start condition update body rest =>
    let inner := start.names ++ env
    keyword "for" :: punctuation '(' :: (start.marked env ++ punctuation ';' :: (condition.marked inner ++
      punctuation ';' :: (update.marked inner ++ punctuation ')' :: punctuation '\x7b' :: (body.marked inner ++
        punctuation '\x7d' :: rest.marked env))))

end Stmts

/-! ## Items -/

/-- The parameters of a function or the members of a structure: names, and what follows each. -/
structure Fields where
  list : List (String × Phrase)
  /-- Whether there is a comma after the last. -/
  trailing : Bool

namespace Fields

def names (f : Fields) : List String := f.list.map Prod.fst

def words (f : Fields) : List String := f.list.flatMap fun x => x.2.words

/-- Whether there are no commas but between the fields. -/
def proper (f : Fields) : Bool := f.list.all fun x => x.2.proper false

/-- Fields after others. -/
def markedRest : List (String × Phrase) → Marked
  | [] => []
  | (n, p) :: rest => punctuation ',' :: declaring n :: (p.marked [] ++ markedRest rest)

/-- Names in the types of fields mean something of the module. -/
def marked (f : Fields) : Marked :=
  match f.list with
  | [] => []
  | (n, p) :: rest => declaring n :: (p.marked [] ++ markedRest rest) ++ if f.trailing then [punctuation ','] else []

end Fields

/-- A part of a fragment. -/
inductive Item where
  /-- A function; `result` is the arrow and the type, or nothing. -/
  | function (name : String) (params : Fields) (result : Phrase) (body : Stmts)
  | record (name : String) (members : Fields)
  | value (d : Binding)
  | semicolon

namespace Item

/-- Whether the parts are proper, and no parameter has the name of a type in its header. -/
def proper : Item → Bool
  | function _ params result body =>
    params.proper && result.proper true && body.proper &&
      (params.words ++ result.words).all fun n => !params.names.contains n
  | record _ members => members.proper
  | value d => d.proper
  | semicolon => true

/-- The value that the item declares, if it is one. -/
def values : Item → List String
  | value d => [d.name]
  | _ => []

/-- The names that the item declares with `let`, `const` or `var`. -/
def bound : Item → List String
  | function _ _ _ body => body.bound
  | value d => [d.name]
  | _ => []

def marked : Item → Marked
  | function name params result body =>
    keyword "fn" :: occurring [] name :: punctuation '(' :: (params.marked ++ punctuation ')' :: (result.marked [] ++
      punctuation '\x7b' :: (body.marked params.names ++ [punctuation '\x7d'])))
  | record name members =>
    keyword "struct" :: occurring [] name :: punctuation '\x7b' :: (members.marked ++ [punctuation '\x7d'])
  | value d => d.kind.marked ++ occurring [] d.name :: (d.content.marked [] ++ [punctuation ';'])
  | semicolon => [punctuation ';']

end Item

/-- A fragment of the shader language. -/
abbrev Fragment := List Item

namespace Fragment

def proper (f : Fragment) : Bool := f.all Item.proper

/-- The values of the module that the fragment declares. -/
def values (f : Fragment) : List String := f.flatMap Item.values

/-- The names that the fragment declares with `let`, `const` or `var`. -/
def bound (f : Fragment) : List String := f.flatMap Item.bound

def marked (f : Fragment) : Marked := f.flatMap Item.marked

end Fragment

/-! ## Marks and local names -/

/-- No name is marked where a local of that name is in force. -/
def Unshadowed (ms : Marked) : Prop := ∀ n env, (Lexeme.name n, some env) ∈ ms → n ∉ env

theorem Unshadowed.append {ms ns : Marked} (h : Unshadowed ms) (h' : Unshadowed ns) : Unshadowed (ms ++ ns) :=
  fun n env hmem => (List.mem_append.1 hmem).elim (h n env) (h' n env)

theorem Unshadowed.cons {l : Lexeme} {ms : Marked} (h : Unshadowed ms) : Unshadowed ((l, none) :: ms) :=
  fun n env hmem => h n env ((List.mem_cons.1 hmem).resolve_left (by simp))

theorem unshadowed_nil : Unshadowed [] := fun _ _ hmem => absurd hmem List.not_mem_nil

theorem unshadowed_occurring (env : List String) (n : String) {ms : Marked} (h : Unshadowed ms) :
    Unshadowed (occurring env n :: ms) := by
  intro k env' hmem
  rcases List.mem_cons.1 hmem with hmem | hmem
  · unfold occurring at hmem
    split at hmem
    · cases hmem
    · next hfree =>
      cases hmem
      simp only [Bool.or_eq_true, not_or] at hfree
      simpa using hfree.2
  · exact h k env' hmem

theorem Phrase.unshadowed (env : List String) (p : Phrase) : Unshadowed (p.marked env) := by
  induction p with
  | nil => exact unshadowed_nil
  | word n rest ih => exact unshadowed_occurring env n ih
  | member n rest ih => exact ih.cons.cons
  | number d rest ih => exact ih.cons
  | mark c rest ih => exact ih.cons
  | parens inner rest ihInner ihRest => exact (ihInner.append ihRest.cons).cons

theorem BindingKind.unshadowed (kind : BindingKind) {ms : Marked} (h : Unshadowed ms) :
    Unshadowed (kind.marked ++ ms) := by
  cases kind with
  | letBinding => exact h.cons
  | constBinding => exact h.cons
  | varBinding space =>
    cases space with
    | none => exact h.cons
    | some space => exact h.cons.cons.cons.cons

theorem Binding.unshadowed (env : List String) (d : Binding) : Unshadowed (d.marked env) :=
  d.kind.unshadowed (d.content.unshadowed env).cons

theorem Stmts.unshadowed (env : List String) (body : Stmts) : Unshadowed (body.marked env) := by
  induction body generalizing env with
  | nil => exact unshadowed_nil
  | simple p rest ih => exact (p.unshadowed env).append (ih env).cons
  | binding d rest ih => exact (d.unshadowed env).append (ih (d.name :: env)).cons
  | block head body rest ihBody ihRest =>
    exact (head.unshadowed env).append ((ihBody env).append (ihRest env).cons).cons
  | loop start condition update body rest ihBody ihRest =>
    let inner := start.names ++ env
    have hstart : Unshadowed (start.marked env) := by
      cases start with
      | binding d => exact d.unshadowed env
      | phrase p => exact p.unshadowed env
    have hbody : Unshadowed (body.marked inner ++ punctuation '\x7d' :: rest.marked env) :=
      (ihBody inner).append (ihRest env).cons
    have hupdate : Unshadowed (update.marked inner ++ punctuation ')' :: punctuation '\x7b' :: (body.marked inner ++
        punctuation '\x7d' :: rest.marked env)) :=
      (update.unshadowed inner).append hbody.cons.cons
    exact (hstart.append ((condition.unshadowed inner).append hupdate.cons).cons).cons.cons

theorem Fields.unshadowed (f : Fields) : Unshadowed f.marked := by
  have hrest (fields : List (String × Phrase)) : Unshadowed (Fields.markedRest fields) := by
    induction fields with
    | nil => exact unshadowed_nil
    | cons x rest ih => exact ((x.2.unshadowed []).append ih).cons.cons
  unfold Fields.marked
  cases f.list with
  | nil => exact unshadowed_nil
  | cons x rest =>
    have htrailing : Unshadowed (if f.trailing then [punctuation ','] else []) := by
      split
      · exact unshadowed_nil.cons
      · exact unshadowed_nil
    exact ((x.2.unshadowed []).append (hrest rest)).cons.append htrailing

theorem Item.unshadowed (item : Item) : Unshadowed item.marked := by
  cases item with
  | function name params result body =>
    have hbody : Unshadowed (body.marked params.names ++ [punctuation '\x7d']) :=
      (body.unshadowed params.names).append unshadowed_nil.cons
    have hresult : Unshadowed (result.marked [] ++ punctuation '\x7b' :: (body.marked params.names ++
        [punctuation '\x7d'])) :=
      (result.unshadowed []).append hbody.cons
    exact (unshadowed_occurring [] name (params.unshadowed.append hresult.cons).cons).cons
  | record name members =>
    exact (unshadowed_occurring [] name (members.unshadowed.append unshadowed_nil.cons).cons).cons
  | value d =>
    have hcontent : Unshadowed (d.content.marked [] ++ [punctuation ';']) :=
      (d.content.unshadowed []).append unshadowed_nil.cons
    exact d.kind.unshadowed (unshadowed_occurring [] d.name hcontent)
  | semicolon => exact unshadowed_nil.cons

/-- In a fragment, no name is marked where a local of that name is in force. -/
theorem Fragment.unshadowed (f : Fragment) : Unshadowed f.marked := by
  intro n env hmem
  obtain ⟨item, -, hitem⟩ := List.mem_flatMap.1 hmem
  exact item.unshadowed n env hitem

end ScreenFusion.Wgsl
