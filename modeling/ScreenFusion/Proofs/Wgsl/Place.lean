import ScreenFusion.Wgsl.Scope

/-!
# ScreenFusion.Proofs.Wgsl.Place — where names mean something of the module

A name in a text means something of the module unless it is a member, declares a parameter or local, or has the name of a
parameter, local or variable of a loop in force.  Renaming may replace it unless the text declares a value of that name
outside of functions.

* `Place`, `places`: the names that mean something of the module, each with the local names in force.
* `renameTokens_eq`: renaming replaces names at such places, and nothing else.
* `Scopes.not_mem_locals`: no local in force has the name that stands at a place.
* `valuesFrom`: what is declared outside of functions with `const`, `var`, `override` or `alias`.
-/

namespace ScreenFusion.Wgsl

/-- A place where a name means something of the module. -/
structure Place where
  name : String
  /-- The parameters, locals and variables of loops in force. -/
  locals : List String
  /-- Whether renaming may replace the name. -/
  renamable : Bool
  deriving DecidableEq

/-- What takes the place of the name. -/
def Place.replacement (substitute : String → Option String) (p : Place) : Option String :=
  if p.renamable then substitute p.name else none

namespace Scopes

/-- The parameters, locals and variables of loops in force: none outside of blocks, and none where a function is named. -/
def locals (s : Scopes) : List String :=
  if s.mode = .header ∨ s.blocks = [] then [] else s.blocks.flatten ++ s.nextBlock

/-- Whether a name, unless a local, means something of the module: it is no word that begins a declaration, and declares
no parameter, local or member. -/
def admits (s : Scopes) (text : String) : Bool :=
  match s.mode with
  | .code => !(["fn", "let", "var", "const", "struct"].contains text)
  | .header => true
  | .params naming => !(naming && s.parens == s.paramDepth)
  | .localName => false
  | .struct naming => !naming

/-- The place of a free name, if it means something of the module. -/
def place? (s : Scopes) (text : String) : Option Place :=
  if s.admits text && !s.locals.contains text then some ⟨text, s.locals, (s.name text).1⟩ else none

/-- The place of a token. -/
def placeOf (s : Scopes) : Token → Option Place
  | .name text true => s.place? (String.ofList text)
  | _ => none

/-- The scopes after a token. -/
def after (s : Scopes) : Token → Scopes
  | .name text true => (s.name (String.ofList text)).2
  | .name _ false => s
  | .other text => s.other text

theorem declares_of_mem_locals {s : Scopes} {n : String} (h : n ∈ s.locals) :
    s.mode ≠ .header ∧ s.declares n = true := by
  unfold locals at h
  split at h
  · cases h
  · next hs =>
    rw [not_or] at hs
    refine ⟨hs.1, ?_⟩
    rcases List.mem_append.1 h with h | h
    · obtain ⟨block, hblock, hn⟩ := List.mem_flatten.1 h
      have hany : s.blocks.any (·.contains n) = true := List.any_eq_true.2 ⟨block, hblock, List.contains_iff_mem.2 hn⟩
      rw [declares, hany, Bool.true_or, Bool.true_or]
    · simp [declares, h]

theorem name_fst (s : Scopes) (text : String) :
    (s.name text).1 = (s.admits text && (s.mode == .header || !s.declares text)) := by
  unfold name admits
  cases s.mode with
  | header => rfl
  | localName => by_cases h : text ∈ addressSpaces <;> simp [h]
  | struct naming => cases naming <;> simp
  | params naming =>
    by_cases h : naming = true ∧ s.parens = s.paramDepth
    · simp [h]
    · have hnot : (naming && s.parens == s.paramDepth) = false := by simpa using h
      simp [h, hnot]
  | code =>
    by_cases hfn : text = "fn"
    · simp [hfn]
    · by_cases hlocal : text = "let" ∨ text = "var" ∨ text = "const"
      · rcases hlocal with h | h | h <;> simp [h]
      · by_cases hstruct : text = "struct" <;> simp_all

/-- What renaming may replace means something of the module. -/
theorem place?_of_renamable {s : Scopes} {text : String} (h : (s.name text).1 = true) :
    s.place? text = some ⟨text, s.locals, true⟩ := by
  have hlocal : text ∉ s.locals := by
    intro hmem
    obtain ⟨hmode, hdeclares⟩ := declares_of_mem_locals hmem
    simp [name_fst, hmode, hdeclares] at h
  have hadmits : s.admits text = true := by
    rw [name_fst, Bool.and_eq_true] at h
    exact h.1
  simp [place?, hadmits, hlocal, h]

/-- No local in force has the name that stands at a place. -/
theorem not_mem_locals {s : Scopes} {text : String} {p : Place} (h : s.place? text = some p) : p.name ∉ p.locals := by
  unfold place? at h
  split at h
  · next hp =>
    cases h
    rw [Bool.and_eq_true] at hp
    simpa using hp.2
  · cases h

end Scopes

/-! ## Texts -/

/-- Tokens with their places. -/
def placedFrom : Scopes → List Token → List (Token × Option Place)
  | _, [] => []
  | s, t :: ts => (t, s.placeOf t) :: placedFrom (s.after t) ts

/-- The tokens of a text with their places. -/
def placed (code : List Char) : List (Token × Option Place) := placedFrom .start (scan code)

/-- The places of a text where names mean something of the module. -/
def places (code : List Char) : List Place := (placed code).filterMap Prod.snd

/-- What a token becomes. -/
def becomes (substitute : String → Option String) (m : Token × Option Place) : List Char :=
  ((m.2.bind (Place.replacement substitute)).map String.toList).getD m.1.text

theorem renameToken_eq (substitute : String → Option String) (s : Scopes) (t : Token) :
    renameToken substitute s t = (becomes substitute (t, s.placeOf t), s.after t) := by
  cases t with
  | other text => rfl
  | name text free =>
    cases free with
    | false => rfl
    | true =>
      simp only [renameToken, becomes, Scopes.placeOf, Scopes.after, Token.text]
      cases hname : (s.name (String.ofList text)).1 with
      | true => simp [Scopes.place?_of_renamable hname, Place.replacement]
      | false =>
        cases hplace : s.place? (String.ofList text) with
        | none => rfl
        | some p =>
          have hp : p.renamable = false := by
            unfold Scopes.place? at hplace
            split at hplace
            · cases hplace
              exact hname
            · cases hplace
          simp [Place.replacement, hp]

theorem renameTokens_eq (substitute : String → Option String) (s : Scopes) (ts : List Token) :
    renameTokens substitute s ts = (placedFrom s ts).flatMap (becomes substitute) := by
  induction ts generalizing s with
  | nil => rfl
  | cons t ts ih =>
    rw [renameTokens, renameToken_eq, placedFrom, List.flatMap_cons]
    dsimp only
    rw [ih]

/-- Renaming replaces names where they mean something of the module, and nothing else. -/
theorem rename_eq (substitute : String → Option String) (code : List Char) :
    rename substitute code = (placed code).flatMap (becomes substitute) :=
  renameTokens_eq substitute .start (scan code)

theorem mem_placedFrom {s : Scopes} {ts : List Token} {t : Token} {p : Option Place} (h : (t, p) ∈ placedFrom s ts) :
    ∃ u : Scopes, u.placeOf t = p := by
  induction ts generalizing s with
  | nil => cases h
  | cons t' ts ih =>
    rcases List.mem_cons.1 h with h | h
    · rw [Prod.mk.injEq] at h
      exact ⟨s, by rw [h.1, h.2]⟩
    · exact ih h

theorem name_not_mem_locals {code : List Char} {p : Place} (h : p ∈ places code) : p.name ∉ p.locals := by
  obtain ⟨⟨t, mark⟩, hm, hp⟩ := List.mem_filterMap.1 h
  dsimp only at hp
  rw [hp] at hm
  obtain ⟨u, hu⟩ := mem_placedFrom hm
  cases t with
  | other text => cases hu
  | name text free =>
    cases free with
    | false => cases hu
    | true => exact Scopes.not_mem_locals hu

/-! ## Names in force -/

/-- Whether a token is a name. -/
def Token.isName (n : String) : Token → Bool
  | .name text _ => String.ofList text == n
  | .other _ => false

/-- The scopes hold a name: it is in force, or comes into force with the next block or at the end of a declaration. -/
def Scopes.Holds (s : Scopes) (n : String) : Prop :=
  (∃ b ∈ s.blocks, n ∈ b) ∨ n ∈ s.outermost ∨ n ∈ s.nextBlock ∨ ∃ d, s.pending = some (n, d)

namespace Scopes

variable {s : Scopes} {n : String}

theorem locals_of_placeOf {t : Token} {p : Place} (h : s.placeOf t = some p) : p.locals = s.locals := by
  unfold placeOf at h
  split at h
  · unfold place? at h
    split at h
    · cases h
      rfl
    · cases h
  · cases h

theorem holds_of_mem_locals (h : n ∈ s.locals) : s.Holds n := by
  unfold locals at h
  split at h
  · cases h
  · rcases List.mem_append.1 h with h | h
    · exact .inl (List.mem_flatten.1 h)
    · exact .inr (.inr (.inl h))

theorem holds_name {text : String} (h : (s.name text).2.Holds n) : s.Holds n ∨ text = n := by
  unfold name at h
  cases hm : s.mode with
  | header =>
    rw [hm] at h
    exact .inl h
  | code =>
    simp only [hm] at h
    split at h
    · exact .inl h
    · split at h
      · exact .inl h
      · split at h
        · exact .inl h
        · exact .inl h
  | params naming =>
    simp only [hm] at h
    split at h
    · rcases h with h | h | h | h
      · exact .inl (.inl h)
      · exact .inl (.inr (.inl h))
      · rcases List.mem_append.1 h with h | h
        · exact .inl (.inr (.inr (.inl h)))
        · exact .inr (List.mem_singleton.1 h).symm
      · exact .inl (.inr (.inr (.inr h)))
    · exact .inl h
  | localName =>
    simp only [hm] at h
    split at h
    · exact .inl h
    · rcases h with h | h | h | ⟨d, h⟩
      · exact .inl (.inl h)
      · exact .inl (.inr (.inl h))
      · exact .inl (.inr (.inr (.inl h)))
      · cases h
        exact .inr rfl
  | struct naming =>
    simp only [hm] at h
    split at h
    · exact .inl h
    · exact .inl h

theorem holds_openBlock (h : s.openBlock.Holds n) : s.Holds n := by
  unfold openBlock at h
  split at h
  · rcases h with ⟨b, hb, hn⟩ | h
    · rcases List.mem_cons.1 hb with rfl | hb
      · cases hn
      · exact .inl ⟨b, hb, hn⟩
    · exact .inr h
  · rcases h with ⟨b, hb, hn⟩ | h | h | h
    · rcases List.mem_cons.1 hb with rfl | hb
      · exact .inr (.inr (.inl hn))
      · exact .inl ⟨b, hb, hn⟩
    · exact .inr (.inl h)
    · cases h
    · exact .inr (.inr (.inr h))

theorem holds_closeBlock (h : s.closeBlock.Holds n) : s.Holds n := by
  rcases h with ⟨b, hb, hn⟩ | h | h | ⟨d, h⟩
  · exact .inl ⟨b, List.mem_of_mem_tail hb, hn⟩
  · exact .inr (.inl h)
  · exact .inr (.inr (.inl h))
  · cases h

theorem holds_addLocal {name : String} (h : (s.addLocal name).Holds n) : s.Holds n ∨ n = name := by
  unfold addLocal at h
  split at h
  · next hblocks =>
    rcases h with h | h | h
    · exact .inl (.inl h)
    · rcases List.mem_append.1 h with h | h
      · exact .inl (.inr (.inl h))
      · exact .inr (List.mem_singleton.1 h)
    · exact .inl (.inr (.inr h))
  · next block blocks hblocks =>
    rcases h with ⟨b, hb, hn⟩ | h
    · rcases List.mem_cons.1 hb with rfl | hb
      · rcases List.mem_append.1 hn with hn | hn
        · exact .inl (.inl ⟨block, by rw [hblocks]; exact List.mem_cons_self, hn⟩)
        · exact .inr (List.mem_singleton.1 hn)
      · exact .inl (.inl ⟨b, by rw [hblocks]; exact List.mem_cons_of_mem _ hb, hn⟩)
    · exact .inl (.inr h)

theorem holds_semicolon (h : s.semicolon.Holds n) : s.Holds n := by
  unfold semicolon at h
  split at h
  · next name depth hpending =>
    have hname : s.Holds name := .inr (.inr (.inr ⟨depth, hpending⟩))
    have hended (h : ({ s with pending := none } : Scopes).Holds n) : s.Holds n := by
      rcases h with h | h | h | ⟨d, h⟩
      · exact .inl h
      · exact .inr (.inl h)
      · exact .inr (.inr (.inl h))
      · cases h
    split at h
    · dsimp only at h
      split at h
      · rcases h with h | h | h | ⟨d, h⟩
        · exact .inl h
        · exact .inr (.inl h)
        · rcases List.mem_append.1 h with h | h
          · exact .inr (.inr (.inl h))
          · rw [List.mem_singleton.1 h]
            exact hname
        · cases h
      · rcases holds_addLocal h with h | rfl
        · exact hended h
        · exact hname
    · exact h
  · exact h

/-- A token brings no name but its own. -/
theorem holds_after {t : Token} (h : (s.after t).Holds n) : s.Holds n ∨ t.isName n = true := by
  cases t with
  | name text free =>
    cases free with
    | false => exact .inl h
    | true => exact (holds_name h).imp id fun h => beq_iff_eq.2 h
  | other text =>
    have h : (s.other text).Holds n := h
    refine .inl ?_
    unfold other at h
    split at h
    · unfold openParen at h
      dsimp only at h
      split at h <;> exact h
    · exact h
    · unfold comma at h
      split at h
      · split at h <;> exact h
      · exact h
      · exact h
    · exact holds_openBlock h
    · exact holds_closeBlock h
    · exact holds_semicolon h
    · exact h

end Scopes

theorem isName_of_mem_placedFrom {s : Scopes} {ts : List Token} {t : Token} {p : Place} {n : String}
    (h : (t, some p) ∈ placedFrom s ts) (hn : n ∈ p.locals) : s.Holds n ∨ ts.any (Token.isName n) = true := by
  -- What the scopes hold after a token they held before it, or it is the token.
  induction ts generalizing s with
  | nil => cases h
  | cons t' ts ih =>
    rw [List.any_cons]
    rcases List.mem_cons.1 h with h | h
    · left
      rw [Prod.mk.injEq] at h
      obtain ⟨rfl, hplace⟩ := h
      rw [Scopes.locals_of_placeOf hplace.symm] at hn
      exact Scopes.holds_of_mem_locals hn
    · rcases ih h with hholds | hany
      · rcases Scopes.holds_after hholds with hholds | hname
        · exact .inl hholds
        · exact .inr (by rw [hname, Bool.true_or])
      · exact .inr (by rw [hany, Bool.or_true])

/-- A local in force is a name of the text. -/
theorem isName_of_mem_locals {code : List Char} {p : Place} {n : String} (h : p ∈ places code) (hn : n ∈ p.locals) :
    (scan code).any (Token.isName n) = true := by
  obtain ⟨⟨t, mark⟩, hm, hp⟩ := List.mem_filterMap.1 h
  dsimp only at hp
  rw [hp] at hm
  refine (isName_of_mem_placedFrom hm hn).resolve_left ?_
  rintro (⟨b, hb, -⟩ | h | h | ⟨d, h⟩)
  · cases hb
  · cases h
  · cases h
  · cases h

/-! ## Values of the module -/

/-- The words that declare a value or a type at module scope. -/
def valueWords : List String := ["const", "var", "override", "alias"]

/-- Where a text is with respect to values that it declares outside of blocks. -/
structure ValueScan where
  depth : Nat
  /-- Whether the next name is declared. -/
  expected : Bool
  /-- Whether the text is between angle brackets before that name. -/
  angles : Bool

namespace ValueScan

def start : ValueScan := ⟨0, false, false⟩

/-- Whether a token is the name of a value. -/
def declares (v : ValueScan) : Token → Bool
  | .name _ free => free && v.expected && !v.angles
  | .other _ => false

def step (v : ValueScan) : Token → ValueScan
  | .name text free =>
    if free && v.expected && !v.angles then { v with expected := false }
    else if free && v.depth == 0 && valueWords.contains (String.ofList text) then { v with expected := true }
    else v
  | .other ['\x7b'] => { v with depth := v.depth + 1 }
  | .other ['\x7d'] => { v with depth := v.depth - 1 }
  | .other ['<'] => { v with angles := v.expected }
  | .other ['>'] => { v with angles := false }
  | .other _ => v

end ValueScan

/-- What the names become that a text declares outside of blocks with `const`, `var`, `override` or `alias`. -/
def valuesFrom (substitute : String → Option String) : ValueScan → List (Token × Option Place) → List String
  | _, [] => []
  | v, m :: ms =>
    (if v.declares m.1 then [String.ofList (becomes substitute m)] else []) ++ valuesFrom substitute (v.step m.1) ms

end ScreenFusion.Wgsl
