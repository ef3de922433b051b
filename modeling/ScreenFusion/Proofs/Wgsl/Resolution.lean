import ScreenFusion.Proofs.Wgsl.Fragment

/-!
# ScreenFusion.Proofs.Wgsl.Resolution — renaming agrees with what names mean

Renaming reads a fragment token by token and knows of its structure only a mode, a depth of parentheses, a declaration
that has not ended, and lists of names.  On every fragment this finds what the names mean: those of the module, and no
others, are renamed.

* `Sees`: the names in force for the scopes are those in force at a place of the tree.
* `reads_phrase`, `reads_binding`, `reads_stmts`, `reads_item`: one piece of syntax.
* `rename_eq_resolved`: a fragment.
-/

namespace ScreenFusion.Wgsl

variable {substitute : String → Option String} {s t : Scopes} {a b : Bool} {env : List String} {ms : Marked}

/-! ## Single lexemes -/

namespace Reads

theorem name {n : String} {mark : Option (List String)} {r : Bool} (hn : s.name n = (r, t))
    (hr : (substitute n).isSome = true → r = mark.isSome) : Reads substitute s false [(.name n, mark)] t false := by
  have hstep : (Lexeme.name n).step s false = (r, t, false) := by simp [Lexeme.step, hn]
  refine .cons ?_ ?_
  · rintro _ ⟨⟩ hsome
    rw [hstep]
    exact hr hsome
  · dsimp only
    rw [hstep]
    exact .nil

theorem punctuation {c : Char} (hc : c ≠ '.') (hs : s.other [c] = t) :
    Reads substitute s false [Wgsl.punctuation c] t false := by
  have hstep : (Lexeme.mark c).step s false = (false, t, false) := by simp [Lexeme.step, hs, hc]
  refine .cons (by rintro _ ⟨⟩) ?_
  show Reads substitute ((Lexeme.mark c).step s false).2.1 ((Lexeme.mark c).step s false).2.2 [] t false
  rw [hstep]
  exact .nil

theorem number (d : Decimal) : Reads substitute s false [(.number d, none)] s false :=
  .cons (by rintro _ ⟨⟩) .nil

theorem member (n : String) : Reads substitute s false [Wgsl.punctuation '.', declaring n] s false := by
  refine .cons (by rintro _ ⟨⟩) (.cons ?_ .nil)
  rintro _ ⟨⟩ _
  rfl

/-- A first lexeme and then the others. -/
theorem head {m : Lexeme × Option (List String)} {u : Scopes} (h : Reads substitute s false [m] t false)
    (h' : Reads substitute t false ms u false) : Reads substitute s false (m :: ms) u false := h.append h'

end Reads

/-! ## Phrases -/

/-- Scopes in which a phrase is read: in a body, or in the type of a field, where there are no commas. -/
def Scopes.Quiet (s : Scopes) (commas : Bool) : Prop :=
  s.mode = .code ∨ commas = false ∧ (s.mode = .struct false ∨ s.mode = .params false ∧ s.paramDepth ≤ s.parens)

/-- Of the names that have substitutes, those in force for the scopes are the given ones. -/
def Sees (substitute : String → Option String) (s : Scopes) (env : List String) : Prop :=
  ∀ n, (substitute n).isSome = true → (s.declares n = true ↔ n ∈ env)

/-- The substitutes are for names that a fragment can use. -/
def ForNames (substitute : String → Option String) : Prop :=
  ∀ n, (substitute n).isSome = true → isReserved n = false

theorem name_of_quiet {commas : Bool} {n : String} (hs : s.Quiet commas) (hn : n ∉ Phrase.declarators) :
    s.name n = (!s.declares n, s) := by
  simp only [Phrase.declarators, List.mem_cons, List.not_mem_nil, or_false, not_or] at hn
  obtain ⟨hfn, hlet, hvar, hconst, hstruct⟩ := hn
  unfold Scopes.name
  rcases hs with hs | ⟨-, hs | ⟨hs, -⟩⟩ <;> rw [hs]
  · simp [hfn, hlet, hvar, hconst, hstruct]
  · rfl
  · simp

/-- A use of a name is renamed where it means something of the module. -/
theorem reads_occurring {commas : Bool} {n : String} (hσ : ForNames substitute) (hs : s.Quiet commas)
    (hn : n ∉ Phrase.declarators) (hsee : (substitute n).isSome = true → (s.declares n = true ↔ n ∈ env)) :
    Reads substitute s false [occurring env n] s false := by
  refine Reads.name (name_of_quiet hs hn) ?_
  intro hsome
  have hfree := hσ n hsome
  have hsee := hsee hsome
  by_cases hmem : n ∈ env
  · simp [hfree, hmem, hsee.2 hmem]
  · have hnot : s.declares n = false := by
      rw [← Bool.not_eq_true]
      exact fun hd => hmem (hsee.1 hd)
    simp [hfree, hmem, hnot]

theorem reads_phrase (hσ : ForNames substitute) {p : Phrase} {commas : Bool} (hp : p.proper commas = true)
    (hs : s.Quiet commas) (hsee : ∀ n ∈ p.words, (substitute n).isSome = true → (s.declares n = true ↔ n ∈ env)) :
    Reads substitute s false (p.marked env) s false := by
  induction p generalizing s with
  | nil => exact .nil
  | word n rest ih =>
    simp only [Phrase.proper, Bool.and_eq_true, Bool.not_eq_true'] at hp
    have hn : n ∉ Phrase.declarators := by simpa using hp.1
    refine .head (reads_occurring hσ hs hn (hsee n List.mem_cons_self)) ?_
    exact ih hp.2 hs fun m hm => hsee m (List.mem_cons_of_mem _ hm)
  | member n rest ih => exact (Reads.member n).append (ih hp hs hsee)
  | number d rest ih => exact .head (.number d) (ih hp hs hsee)
  | mark c rest ih =>
    simp only [Phrase.proper, Bool.and_eq_true, Bool.not_eq_true'] at hp
    obtain ⟨⟨hc, hcomma⟩, hrest⟩ := hp
    have hc : c ∉ ['.', ';', '(', ')', '\x7b', '\x7d'] := by simpa using hc
    simp only [List.mem_cons, List.not_mem_nil, or_false, not_or] at hc
    obtain ⟨hpoint, hsemicolon, hopen, hclose, hbrace, hbrace'⟩ := hc
    refine .head (.punctuation hpoint ?_) (ih hrest hs hsee)
    by_cases hc : c = ','
    · subst hc
      have hcode : s.mode = .code := hs.resolve_right fun h => by simp [h.1] at hcomma
      show s.comma = s
      unfold Scopes.comma
      rw [hcode]
    · exact other_eq_self (.inr (by simp [hc, hsemicolon, hopen, hclose, hbrace, hbrace']))
  | parens inner rest ihInner ihRest =>
    rw [Phrase.proper, Bool.and_eq_true] at hp
    -- Inside of these parentheses those of a list of parameters cannot end.
    let inside : Scopes := { s with parens := s.parens + 1 }
    have hopen : s.openParen = inside := by
      unfold Scopes.openParen
      rcases hs with hs | ⟨-, hs | ⟨hs, -⟩⟩ <;> simp [hs, inside]
    have hclose : inside.closeParen = s := by
      unfold Scopes.closeParen
      obtain ⟨blocks, outermost, nextBlock, parens, paramDepth, mode, pending⟩ := s
      rcases hs with hs | ⟨-, hs | ⟨hs, hdepth⟩⟩ <;> dsimp only at hs <;> subst hs
      · rfl
      · rfl
      · have hne : parens + 1 ≠ paramDepth := by
          dsimp only at hdepth
          omega
        simp [inside, hne]
    have hquiet : inside.Quiet commas := by
      rcases hs with hs | ⟨hcommas, hs | ⟨hs, hdepth⟩⟩
      · exact .inl hs
      · exact .inr ⟨hcommas, .inl hs⟩
      · exact .inr ⟨hcommas, .inr ⟨hs, Nat.le_succ_of_le hdepth⟩⟩
    have hinner := ihInner hp.1 hquiet fun n hn => hsee n (List.mem_append_left _ hn)
    have hrest := ihRest hp.2 hs fun n hn => hsee n (List.mem_append_right _ hn)
    exact .head (.punctuation (by decide) hopen) (hinner.append (.head (.punctuation (by decide) hclose) hrest))

/-! ## Statements -/

theorem declares_iff (s : Scopes) (n : String) :
    s.declares n = true ↔ (∃ b ∈ s.blocks, n ∈ b) ∨ n ∈ s.outermost ∨ n ∈ s.nextBlock := by
  simp [Scopes.declares, or_assoc]

/-- Declared names come into force. -/
theorem Sees.append (h : Sees substitute s env) (names : List String)
    (ht : ∀ n, t.declares n = true ↔ n ∈ names ∨ s.declares n = true) : Sees substitute t (names ++ env) := by
  intro n hn
  rw [ht, List.mem_append, h n hn]

/-- Scopes where a statement or an item may begin. -/
def Scopes.between (blocks : List (List String)) (outermost : List String) (paramDepth : Nat) : Scopes :=
  ⟨blocks, outermost, [], 0, paramDepth, .code, none⟩

theorem reads_kind (kind : BindingKind) (hs : s.mode = .code) :
    Reads substitute s false kind.marked { s with mode := .localName } false := by
  have hkeyword (n : String) (hn : n = "let" ∨ n = "var" ∨ n = "const") :
      Reads substitute s false [keyword n] { s with mode := .localName } false := by
    have hfn : n ≠ "fn" := by rcases hn with rfl | rfl | rfl <;> decide
    exact .name (by simp [Scopes.name, hs, hn, hfn]) fun _ => rfl
  cases kind with
  | letBinding => exact hkeyword "let" (by simp)
  | constBinding => exact hkeyword "const" (by simp)
  | varBinding space =>
    have hvar := hkeyword "var" (by simp)
    cases space with
    | none => exact hvar
    | some space =>
      have hword : space.word ∈ Scopes.addressSpaces := by cases space <;> decide
      have hspace : ({ s with mode := .localName } : Scopes).name space.word =
          (false, { s with mode := .localName }) := by
        simp [Scopes.name, hword]
      refine .head hvar (.head (.punctuation (by decide) (other_eq_self (.inr (by decide)))) ?_)
      refine .head (.name hspace fun _ => rfl) ?_
      exact .punctuation (by decide) (other_eq_self (.inr (by decide)))

/-- A declaration up to its semicolon: its name waits to come into force. -/
theorem reads_binding (hσ : ForNames substitute) {d : Binding} (hd : d.proper = true)
    (hspace : d.name ∉ Scopes.addressSpaces) (hs : s.mode = .code)
    (hsee : Sees substitute s env) (mark : Option (List String))
    (hmark : (substitute d.name).isSome = true → mark.isSome = false) :
    Reads substitute s false (d.kind.marked ++ (.name d.name, mark) :: d.content.marked env)
      { s with pending := some (d.name, s.parens) } false := by
  let waiting : Scopes := { s with pending := some (d.name, s.parens) }
  have hname : ({ s with mode := .localName } : Scopes).name d.name = (false, waiting) := by
    obtain ⟨_, _, _, _, _, mode, _⟩ := s
    dsimp only at hs
    subst hs
    simp [Scopes.name, hspace, waiting]
  have hcontent : Reads substitute waiting false (d.content.marked env) waiting false :=
    reads_phrase hσ hd (.inl hs) fun n _ hn => hsee n hn
  exact (reads_kind d.kind hs).append (.head (.name hname fun hn => (hmark hn).symm) hcontent)

/-- The begin of a loop in its parentheses: its variable comes into force with the semicolon. -/
theorem reads_start (hσ : ForNames substitute) {start : LoopStart} (hp : start.proper = true)
    (hspace : ∀ n ∈ start.names, n ∉ Scopes.addressSpaces) (hs : s.mode = .code) (hpending : s.pending = none)
    (hparens : 0 < s.parens) (hsee : Sees substitute s env) :
    ∃ u, Reads substitute s false (start.marked env) u false ∧
      u.other [';'] = { s with nextBlock := s.nextBlock ++ start.names } := by
  obtain ⟨blocks, outermost, nextBlock, parens, paramDepth, mode, pending⟩ := s
  dsimp only at hs hpending hparens
  subst hs hpending
  cases start with
  | binding d =>
    have hbinding := reads_binding hσ hp (hspace d.name (List.mem_singleton.2 rfl)) rfl hsee none fun _ => rfl
    refine ⟨_, hbinding, ?_⟩
    simp [Scopes.other, Scopes.semicolon, hparens, LoopStart.names]
  | phrase p =>
    have hphrase := reads_phrase hσ hp (.inl rfl) fun n _ hn => hsee n hn
    refine ⟨_, hphrase, ?_⟩
    simp [Scopes.other, Scopes.semicolon, LoopStart.names]

/-- Statements in the innermost block: their locals are in force after them. -/
theorem reads_stmts (hσ : ForNames substitute) {body : Stmts} (hp : body.proper = true)
    (hspace : ∀ n ∈ body.bound, n ∉ Scopes.addressSpaces) {block : List String}
    {blocks : List (List String)} {outermost : List String} {paramDepth : Nat}
    (hsee : Sees substitute (.between (block :: blocks) outermost paramDepth) env) :
    Reads substitute (.between (block :: blocks) outermost paramDepth) false (body.marked env)
      (.between ((block ++ body.locals) :: blocks) outermost paramDepth) false := by
  -- `hsee` is what each statement keeps: the locals declared so far are in force in the innermost block.
  induction body generalizing block blocks env with
  | nil =>
    rw [Stmts.locals, List.append_nil]
    exact .nil
  | simple p rest ih =>
    rw [Stmts.proper, Bool.and_eq_true] at hp
    have hphrase := reads_phrase hσ hp.1 (.inl rfl) fun n _ hn => hsee n hn
    exact hphrase.append (.head (.punctuation (by decide) rfl) (ih hp.2 hspace hsee))
  | binding d rest ih =>
    rw [Stmts.proper, Bool.and_eq_true] at hp
    have hbinding := reads_binding hσ hp.1 (hspace d.name List.mem_cons_self) rfl hsee none fun _ => rfl
    have hafter : Sees substitute (.between ((block ++ [d.name]) :: blocks) outermost paramDepth) (d.name :: env) := by
      refine hsee.append [d.name] fun n => ?_
      simp [declares_iff, Scopes.between, or_assoc, or_left_comm]
    have hrest := ih hp.2 (fun n hn => hspace n (List.mem_cons_of_mem _ hn)) hafter
    rw [List.append_assoc] at hrest
    exact hbinding.append (.head (.punctuation (by decide) rfl) hrest)
  | block head body rest ihBody ihRest =>
    rw [Stmts.proper, Bool.and_eq_true, Bool.and_eq_true] at hp
    obtain ⟨⟨hhead, hbody⟩, hrest⟩ := hp
    have hinside : Sees substitute (.between ([] :: block :: blocks) outermost paramDepth) env := by
      refine hsee.append [] fun n => ?_
      simp [declares_iff, Scopes.between]
    have hphrase := reads_phrase hσ hhead (.inl rfl) fun n _ hn => hsee n hn
    have hblock := ihBody hbody (fun n hn => hspace n (List.mem_append_left _ hn)) hinside
    have hafter := ihRest hrest (fun n hn => hspace n (List.mem_append_right _ hn)) hsee
    exact hphrase.append (.head (.punctuation (by decide) rfl)
      (hblock.append (.head (.punctuation (by decide) rfl) hafter)))
  | loop start condition update body rest ihBody ihRest =>
    simp only [Stmts.proper, Bool.and_eq_true] at hp
    obtain ⟨⟨⟨⟨hstart, hcondition⟩, hupdate⟩, hbody⟩, hrest⟩ := hp
    have hspaceStart : ∀ n ∈ start.names, n ∉ Scopes.addressSpaces := fun n hn => hspace n (List.mem_append_left _ hn)
    have hspaceBody : ∀ n ∈ body.bound, n ∉ Scopes.addressSpaces :=
      fun n hn => hspace n (List.mem_append_right _ (List.mem_append_left _ hn))
    have hspaceRest : ∀ n ∈ rest.bound, n ∉ Scopes.addressSpaces :=
      fun n hn => hspace n (List.mem_append_right _ (List.mem_append_right _ hn))
    let outside : Scopes := .between (block :: blocks) outermost paramDepth
    -- The variable of the loop is in force in the parentheses first, and then in the block.
    let inParens : Scopes := { outside with parens := 1, nextBlock := start.names }
    have hinParens : Sees substitute inParens (start.names ++ env) := by
      refine hsee.append start.names fun n => ?_
      simp [declares_iff, Scopes.between, inParens, outside, or_assoc, or_left_comm, or_comm]
    have hinside : Sees substitute (.between (start.names :: block :: blocks) outermost paramDepth)
        (start.names ++ env) := by
      refine hsee.append start.names fun n => ?_
      simp [declares_iff, Scopes.between, or_assoc]
    have hfor : Reads substitute outside false [keyword "for"] outside false :=
      .name (name_of_quiet (show outside.Quiet true from .inl rfl) (by decide)) fun hn => absurd (hσ _ hn) (by decide)
    obtain ⟨u, hbegin, hu⟩ := reads_start (s := { outside with parens := 1 }) hσ hstart hspaceStart rfl rfl
      Nat.zero_lt_one hsee
    have hcond := reads_phrase (s := inParens) hσ hcondition (.inl rfl) fun n _ hn => hinParens n hn
    have hupd := reads_phrase (s := inParens) hσ hupdate (.inl rfl) fun n _ hn => hinParens n hn
    have hclose : Reads substitute (.between ((start.names ++ body.locals) :: block :: blocks) outermost paramDepth)
        false [punctuation '\x7d'] outside false := .punctuation (by decide) rfl
    have hblock := (ihBody hbody hspaceBody hinside).append (hclose.head (ihRest hrest hspaceRest hsee))
    have hparens : Reads substitute inParens false (punctuation ')' :: punctuation '\x7b' :: _)
        (.between ((block ++ rest.locals) :: blocks) outermost paramDepth) false :=
      .head (.punctuation (by decide) rfl) (.head (.punctuation (by decide) rfl) hblock)
    have hsemicolon : Reads substitute inParens false [punctuation ';'] inParens false := .punctuation (by decide) rfl
    have hheader := hcond.append (hsemicolon.head (hupd.append hparens))
    have hopen : Reads substitute outside false [punctuation '('] { outside with parens := 1 } false :=
      .punctuation (by decide) rfl
    have hentry : Reads substitute u false [punctuation ';'] inParens false := .punctuation (by decide) hu
    exact hfor.head (hopen.head (hbegin.append (hentry.head hheader)))

/-! ## Items -/

/-- Scopes in a list of fields, by the names of the fields so far and by whether the next name is a field. -/
structure FieldScopes (scopes : List String → Bool → Scopes) : Prop where
  name : ∀ taken n, (scopes taken true).name n = (false, scopes (taken ++ [n]) false)
  comma : ∀ taken naming, (scopes taken naming).other [','] = scopes taken true
  quiet : ∀ taken, (scopes taken false).Quiet false

variable {scopes : List String → Bool → Scopes}

/-- A field and its type, which sees nothing but the module. -/
theorem FieldScopes.reads_field (h : FieldScopes scopes) (hσ : ForNames substitute) (taken : List String) (n : String)
    {p : Phrase} (hp : p.proper false = true)
    (hfree : ∀ w ∈ p.words, (substitute w).isSome = true → (scopes (taken ++ [n]) false).declares w = false) :
    Reads substitute (scopes taken true) false (declaring n :: p.marked []) (scopes (taken ++ [n]) false) false := by
  refine .head (.name (h.name taken n) fun _ => rfl) (reads_phrase hσ hp (h.quiet _) ?_)
  intro w hw hsome
  simp [hfree w hw hsome]

theorem FieldScopes.reads_rest (h : FieldScopes scopes) (hσ : ForNames substitute) (taken : List String)
    {fields : List (String × Phrase)} {all : List String} (hp : fields.all (fun x => x.2.proper false) = true)
    (hall : taken ++ fields.map Prod.fst ⊆ all)
    (hfree : ∀ w ∈ fields.flatMap (fun x => x.2.words), (substitute w).isSome = true →
      ∀ names, names ⊆ all → (scopes names false).declares w = false) :
    Reads substitute (scopes taken false) false (Fields.markedRest fields) (scopes (taken ++ fields.map Prod.fst) false)
      false := by
  induction fields generalizing taken with
  | nil =>
    rw [List.map_nil, List.append_nil]
    exact .nil
  | cons x rest ih =>
    obtain ⟨n, p⟩ := x
    rw [List.all_cons, Bool.and_eq_true] at hp
    rw [List.map_cons, List.append_cons] at hall
    have hsub : taken ++ [n] ⊆ all := fun m hm => hall (List.mem_append_left _ hm)
    have hfield := h.reads_field hσ taken n hp.1 fun w hw hsome =>
      hfree w (List.mem_append_left _ hw) hsome _ hsub
    have hrest := ih (taken ++ [n]) hp.2 hall fun w hw => hfree w (List.mem_append_right _ hw)
    have hcomma : Reads substitute (scopes taken false) false [punctuation ','] (scopes taken true) false :=
      .punctuation (by decide) (h.comma taken false)
    rw [List.map_cons, List.append_cons]
    exact hcomma.head (hfield.append hrest)

theorem FieldScopes.reads_fields (h : FieldScopes scopes) (hσ : ForNames substitute) {f : Fields}
    (hp : f.proper = true)
    (hfree : ∀ w ∈ f.words, (substitute w).isSome = true →
      ∀ names, names ⊆ f.names → (scopes names false).declares w = false) :
    ∃ naming, Reads substitute (scopes [] true) false f.marked (scopes f.names naming) false := by
  obtain ⟨list, trailing⟩ := f
  cases list with
  | nil => exact ⟨true, .nil⟩
  | cons x rest =>
    obtain ⟨n, p⟩ := x
    simp only [Fields.proper, List.all_cons, Bool.and_eq_true] at hp
    have hsub : [n] ⊆ n :: rest.map Prod.fst := fun m hm => List.mem_cons.2 (.inl (List.mem_singleton.1 hm))
    have hfield := h.reads_field hσ [] n hp.1 fun w hw hsome =>
      hfree w (List.mem_append_left _ hw) hsome _ hsub
    have hrest := h.reads_rest hσ [n] hp.2 (fun m hm => hm) fun w hw => hfree w (List.mem_append_right _ hw)
    have hall := hfield.append hrest
    cases trailing with
    | false => exact ⟨false, hall.append .nil⟩
    | true => exact ⟨true, hall.append (.punctuation (by decide) (h.comma _ false))⟩

theorem reads_function (hσ : ForNames substitute) {outermost : List String} {paramDepth : Nat}
    (hsee : Sees substitute (.between [] outermost paramDepth) []) {name : String} {params : Fields} {result : Phrase}
    {body : Stmts} (hp : (Item.function name params result body).proper = true)
    (hspace : ∀ n ∈ body.bound, n ∉ Scopes.addressSpaces) :
    Reads substitute (.between [] outermost paramDepth) false (Item.function name params result body).marked
      (.between [] outermost 1) false := by
  simp only [Item.proper, Bool.and_eq_true] at hp
  obtain ⟨⟨⟨hparams, hresult⟩, hbody⟩, hheader⟩ := hp
  have hheader : ∀ w ∈ params.words ++ result.words, w ∉ params.names := by
    intro w hw
    have hclean := List.all_eq_true.1 hheader w hw
    simpa using hclean
  let inParams (taken : List String) (naming : Bool) : Scopes := ⟨[], outermost, taken, 1, 1, .params naming, none⟩
  have hscopes : FieldScopes inParams := by
    refine ⟨fun taken n => ?_, fun taken naming => ?_, fun taken => .inr ⟨rfl, .inr ⟨rfl, Nat.le_refl 1⟩⟩⟩
    · simp [Scopes.name, inParams]
    · simp [Scopes.other, Scopes.comma, inParams]
  have houtermost : ∀ n, (substitute n).isSome = true → n ∉ outermost := by
    intro n hn hmem
    have hdeclares := (declares_iff (.between [] outermost paramDepth) n).2 (.inr (.inl hmem))
    exact absurd ((hsee n hn).1 hdeclares) List.not_mem_nil
  have hfree : ∀ w ∈ params.words, (substitute w).isSome = true → ∀ names, names ⊆ params.names →
      (inParams names false).declares w = false := by
    intro w hw hsome names hnames
    have hnot : w ∉ names := fun h => hheader w (List.mem_append_left _ hw) (hnames h)
    simp [Scopes.declares, inParams, houtermost w hsome, hnot]
  obtain ⟨naming, hfields⟩ := hscopes.reads_fields hσ hparams hfree
  let afterParams : Scopes := ⟨[], outermost, params.names, 0, 1, .code, none⟩
  have hres : Reads substitute afterParams false (result.marked []) afterParams false := by
    refine reads_phrase hσ hresult (.inl rfl) fun w hw hsome => ?_
    have hnot := hheader w (List.mem_append_right _ hw)
    simp [declares_iff, afterParams, houtermost w hsome, hnot]
  have hinside : Sees substitute (.between [params.names] outermost 1) params.names := by
    intro n hn
    simp [declares_iff, Scopes.between, houtermost n hn]
  have hclose : (inParams params.names naming).other [')'] = afterParams := by
    simp [Scopes.other, Scopes.closeParen, inParams, afterParams]
  have hbrace : Reads substitute (.between [params.names ++ body.locals] outermost 1) false [punctuation '\x7d']
      (.between [] outermost 1) false := .punctuation (by decide) rfl
  have hblock : Reads substitute afterParams false
      (punctuation '\x7b' :: (body.marked params.names ++ [punctuation '\x7d'])) (.between [] outermost 1) false :=
    .head (.punctuation (by decide) rfl) ((reads_stmts hσ hbody hspace hinside).append hbrace)
  have hlist := hfields.append (.head (.punctuation (by decide) hclose) (hres.append hblock))
  let header : Scopes := ⟨[], outermost, [], 0, paramDepth, .header, none⟩
  have hfn : Reads substitute (.between [] outermost paramDepth) false [keyword "fn"] header false :=
    .name rfl fun hn => absurd (hσ _ hn) (by decide)
  have hname : Reads substitute header false [occurring [] name] header false :=
    .name rfl fun hn => by simp [hσ name hn]
  have hopen : Reads substitute header false [punctuation '('] (inParams [] true) false := .punctuation (by decide) rfl
  exact hfn.head (hname.head (hopen.head hlist))

theorem reads_record (hσ : ForNames substitute) {outermost : List String} {paramDepth : Nat}
    (hsee : Sees substitute (.between [] outermost paramDepth) []) {name : String} {members : Fields}
    (hp : (Item.record name members).proper = true) :
    Reads substitute (.between [] outermost paramDepth) false (Item.record name members).marked
      (.between [] outermost paramDepth) false := by
  let inRecord (_ : List String) (naming : Bool) : Scopes := ⟨[[]], outermost, [], 0, paramDepth, .struct naming, none⟩
  have hscopes : FieldScopes inRecord := by
    refine ⟨fun _ _ => rfl, fun taken naming => ?_, fun taken => .inr ⟨rfl, .inl rfl⟩⟩
    simp [Scopes.other, Scopes.comma, inRecord]
  have hfree : ∀ w ∈ members.words, (substitute w).isSome = true → ∀ names, names ⊆ members.names →
      (inRecord names false).declares w = false := by
    intro w _ hsome names _
    rw [← Bool.not_eq_true, declares_iff]
    have hnot := mt (hsee w hsome).1 List.not_mem_nil
    rw [declares_iff] at hnot
    simpa [inRecord, Scopes.between] using hnot
  obtain ⟨naming, hfields⟩ := hscopes.reads_fields hσ hp hfree
  let header : Scopes := ⟨[], outermost, [], 0, paramDepth, .struct false, none⟩
  have hstruct : Reads substitute (.between [] outermost paramDepth) false [keyword "struct"] header false :=
    .name rfl fun hn => absurd (hσ _ hn) (by decide)
  have hname : Reads substitute header false [occurring [] name] header false := by
    refine .name (r := !header.declares name) rfl fun hn => ?_
    have hnot : header.declares name = false := by
      rw [← Bool.not_eq_true]
      exact mt (hsee name hn).1 List.not_mem_nil
    simp [hσ name hn, hnot]
  have hopen : Reads substitute header false [punctuation '\x7b'] (inRecord [] true) false :=
    .punctuation (by decide) rfl
  have hclose : Reads substitute (inRecord members.names naming) false [punctuation '\x7d']
      (.between [] outermost paramDepth) false := .punctuation (by decide) rfl
  exact hstruct.head (hname.head (hopen.head (hfields.append hclose)))

/-- The values of the module that are declared so far have no substitutes. -/
def ModuleScopes (substitute : String → Option String) (s : Scopes) : Prop :=
  ∃ outermost paramDepth, s = .between [] outermost paramDepth ∧ ∀ n ∈ outermost, (substitute n).isSome = false

theorem reads_item (hσ : ForNames substitute) {item : Item} (hp : item.proper = true)
    (hspace : ∀ n ∈ item.bound, n ∉ Scopes.addressSpaces)
    (hvalues : ∀ n ∈ item.values, (substitute n).isSome = false) (hs : ModuleScopes substitute s) :
    ∃ t, Reads substitute s false item.marked t false ∧ ModuleScopes substitute t := by
  obtain ⟨outermost, paramDepth, rfl, houtermost⟩ := hs
  have hsee : Sees substitute (.between [] outermost paramDepth) [] := by
    intro n hn
    have hnot : n ∉ outermost := fun hmem => by simp [houtermost n hmem] at hn
    simp [declares_iff, Scopes.between, hnot]
  cases item with
  | function name params result body => exact ⟨_, reads_function hσ hsee hp hspace, outermost, 1, rfl, houtermost⟩
  | record name members => exact ⟨_, reads_record hσ hsee hp, outermost, paramDepth, rfl, houtermost⟩
  | semicolon => exact ⟨_, .punctuation (by decide) rfl, outermost, paramDepth, rfl, houtermost⟩
  | value d =>
    have hname := hvalues d.name (List.mem_singleton.2 rfl)
    have hbinding := reads_binding hσ hp (hspace d.name (List.mem_singleton.2 rfl)) rfl hsee
      (occurring [] d.name).2 fun hn => by simp [hname] at hn
    have hsemicolon : Reads substitute { Scopes.between [] outermost paramDepth with pending := some (d.name, 0) } false
        [punctuation ';'] (.between [] (outermost ++ [d.name]) paramDepth) false := .punctuation (by decide) rfl
    have hall := hbinding.append hsemicolon
    rw [List.append_assoc, List.cons_append] at hall
    refine ⟨_, hall, outermost ++ [d.name], paramDepth, rfl, fun n hn => ?_⟩
    rcases List.mem_append.1 hn with hn | hn
    · exact houtermost n hn
    · rw [List.mem_singleton.1 hn]
      exact hname

theorem reads_fragment (hσ : ForNames substitute) {f : Fragment} (hp : f.proper = true)
    (hspace : ∀ n ∈ f.bound, n ∉ Scopes.addressSpaces)
    (hvalues : ∀ n ∈ f.values, (substitute n).isSome = false) (hs : ModuleScopes substitute s) :
    ∃ t, Reads substitute s false f.marked t false := by
  induction f generalizing s with
  | nil => exact ⟨s, .nil⟩
  | cons item rest ih =>
    rw [Fragment.proper, List.all_cons, Bool.and_eq_true] at hp
    obtain ⟨t, hitem, ht⟩ := reads_item hσ hp.1 (fun n hn => hspace n (List.mem_append_left _ hn))
      (fun n hn => hvalues n (List.mem_append_left _ hn)) hs
    obtain ⟨u, hrest⟩ := ih hp.2 (fun n hn => hspace n (List.mem_append_right _ hn))
      (fun n hn => hvalues n (List.mem_append_right _ hn)) ht
    exact ⟨u, hitem.append hrest⟩

/-! ## Fragments -/

/-- Lexemes with gaps that are those of a fragment, and of which each ends where the next begins. -/
structure Spells (f : Fragment) (source : Marked) : Prop where
  lexemes : source.filter (fun m => !m.1.isGap) = f.marked
  spelled : Spelled (source.map Prod.fst) = true

/-- The text of a fragment is read in agreement with what its names mean. -/
theorem Spells.reads {f : Fragment} {source : Marked} (hs : Spells f source) (hp : f.proper = true)
    (hspace : ∀ n ∈ f.bound, n ∉ Scopes.addressSpaces)
    (hσ : ∀ n, (substitute n).isSome = true → isReserved n = false ∧ n ∉ f.values) :
    ∃ t, Reads substitute .start false source t false := by
  have hvalues : ∀ n ∈ f.values, (substitute n).isSome = false := by
    intro n hn
    rw [← Bool.not_eq_true]
    exact fun hsome => (hσ n hsome).2 hn
  have hstart : ModuleScopes substitute .start := ⟨[], 0, rfl, fun _ hn => absurd hn List.not_mem_nil⟩
  obtain ⟨t, hreads⟩ := reads_fragment (fun n hn => (hσ n hn).1) hp hspace hvalues hstart
  rw [← hs.lexemes] at hreads
  exact ⟨t, hreads.of_filter⟩

/-- In a fragment, renaming replaces the names that mean something of the module where they have substitutes, and nothing
else.  The substitutes are for names that are not reserved and not those of values of the fragment, and no local or value
has the name of an address space. -/
theorem rename_eq_resolved (substitute : String → Option String) (f : Fragment) (source : Marked)
    (hs : Spells f source) (hp : f.proper = true) (hspace : ∀ n ∈ f.bound, n ∉ Scopes.addressSpaces)
    (hσ : ∀ n, (substitute n).isSome = true → isReserved n = false ∧ n ∉ f.values) :
    rename substitute (spell (source.map Prod.fst)) = resolved substitute source := by
  obtain ⟨t, hreads⟩ := hs.reads hp hspace hσ
  exact hreads.renameFrom_eq hs.spelled

/-! ## Fragments with one name in many places -/

/-- The lexemes with a blank after each but the first half of an arrow. -/
def spaced (ms : Marked) : Marked :=
  ms.flatMap fun m => if m.1 = .mark '-' then [m] else [m, (.gap (.blank ' '), none)]

/-- A colon and a type. -/
def typed (n : String) : Phrase := .mark ':' (.word n .nil)

/-- An equals sign and a value. -/
def valued (p : Phrase) : Phrase := .mark '=' p

/-- A whole number. -/
def numeral (digits : String) : Decimal := ⟨digits.toList, none, none, none⟩

/-- A fragment in which `k` is a member, a local, a variable of a loop, and a name of the module. -/
def manyUses : Fragment :=
  [.record "S" ⟨[("k", typed "f32")], true⟩,
    .function "f" ⟨[("v", typed "S"), ("n", typed "f32")], false⟩ (.mark '-' (.mark '>' (.word "f32" .nil)))
      (.binding ⟨.varBinding (some .function), "a", valued (.word "k" .nil)⟩
        (.loop (.binding ⟨.varBinding none, "k", valued (.word "k" .nil)⟩) (.word "k" (.mark '<' (.word "n" .nil)))
          (.word "k" (.mark '=' (.word "k" (.mark '+' (.number (numeral "1") .nil)))))
          (.simple (.word "a" (valued (.word "v" (.member "k" (.mark '*' (.word "k" .nil)))))) .nil)
        (.block (.word "if" (.parens (.word "k" .nil) .nil))
          (.binding ⟨.letBinding, "k", valued (.word "k" .nil)⟩ (.simple (.word "return" (.word "k" .nil)) .nil))
        (.simple (.word "return" (.word "a" (.mark '+' (.word "k" .nil)))) .nil))))]

/-- A substitute for one name. -/
def instead (old new : String) (n : String) : Option String := if n = old then some new else none

theorem eq_of_instead {old new n : String} (h : (instead old new n).isSome = true) : n = old := by
  by_cases hn : n = old
  · exact hn
  · simp [instead, hn] at h

theorem rename_eq_resolved_manyUses : Spells manyUses (spaced manyUses.marked) ∧ manyUses.proper = true ∧
    (∀ n ∈ manyUses.bound, n ∉ Scopes.addressSpaces) ∧
    (∀ n, (instead "k" "K" n).isSome = true → isReserved n = false ∧ n ∉ manyUses.values) ∧
    String.ofList (rename (instead "k" "K") (spell ((spaced manyUses.marked).map Prod.fst))) =
      "struct S \x7b k : f32 , \x7d fn f ( v : S , n : f32 ) -> f32 \x7b var < function > a = K ; " ++
      "for ( var k = K ; k < n ; k = k + 1 ) \x7b a = v . k * k ; \x7d " ++
      "if ( K ) \x7b let k = K ; return k ; \x7d return a + K ; \x7d " := by
  have hs : Spells manyUses (spaced manyUses.marked) := ⟨by decide +kernel, by decide +kernel⟩
  have hp : manyUses.proper = true := by decide +kernel
  have hspace : ∀ n ∈ manyUses.bound, n ∉ Scopes.addressSpaces := by decide +kernel
  have hσ : ∀ n, (instead "k" "K" n).isSome = true → isReserved n = false ∧ n ∉ manyUses.values := by
    intro n hn
    rw [eq_of_instead hn]
    decide
  refine ⟨hs, hp, hspace, hσ, ?_⟩
  rw [rename_eq_resolved (instead "k" "K") manyUses _ hs hp hspace hσ]
  decide +kernel

/-! ## Names that the scanner does not see -/

/-- A local with the name of an address space. -/
def spaceLocal : Fragment :=
  [.function "f" ⟨[], false⟩ .nil (.binding ⟨.letBinding, "private", valued (.word "amount" .nil)⟩
    (.simple (.word "return" (.word "private" .nil)) .nil))]

/-- An assignment that drops its value. -/
def dropped : Fragment :=
  [.function "f" ⟨[], false⟩ .nil (.simple (.word "_" (valued (.number (numeral "1") .nil))) .nil)]

/-- Three texts in which renaming misses what names mean: a local with the name of an address space, after which the next
name is taken for the local; a local whose first letter is not ASCII, of which the rest is taken for the local; and an
underscore, which is no name. -/
theorem rename_ne_resolved :
    (Spells spaceLocal (spaced spaceLocal.marked) ∧ spaceLocal.proper = true ∧
      (∀ n, (instead "amount" "A" n).isSome = true → isKeyword n = false ∧ n ∉ spaceLocal.values) ∧
      rename (instead "amount" "A") (spell ((spaced spaceLocal.marked).map Prod.fst)) ≠
        resolved (instead "amount" "A") (spaced spaceLocal.marked)) ∧
    rename (instead "a" "K") "fn f() -> f32 \x7b let éa = 1.0; return a + éa; \x7d".toList =
      "fn f() -> f32 \x7b let éa = 1.0; return a + éa; \x7d".toList ∧
    (Spells dropped (spaced dropped.marked) ∧ dropped.proper = true ∧
      (∀ n, (instead "_" "K" n).isSome = true → isKeyword n = false ∧ n ∉ dropped.values) ∧
      rename (instead "_" "K") (spell ((spaced dropped.marked).map Prod.fst)) ≠
        resolved (instead "_" "K") (spaced dropped.marked)) := by
  have hamount : ∀ n, (instead "amount" "A" n).isSome = true → isKeyword n = false ∧ n ∉ spaceLocal.values := by
    intro n hn
    rw [eq_of_instead hn]
    decide
  have hunderscore : ∀ n, (instead "_" "K" n).isSome = true → isKeyword n = false ∧ n ∉ dropped.values := by
    intro n hn
    rw [eq_of_instead hn]
    decide
  refine ⟨⟨⟨?_, ?_⟩, ?_, hamount, ?_⟩, ?_, ⟨⟨?_, ?_⟩, ?_, hunderscore, ?_⟩⟩
  all_goals decide +kernel

end ScreenFusion.Wgsl
