import ScreenFusion.Proofs.Wgsl.Resolution

/-!
# ScreenFusion.Proofs.Wgsl.FieldType — commas in the types of parameters and members

The type of a parameter or member may have commas, between angle brackets or in parentheses; a tree says which commas are
between fields.  Renaming takes the first name after any comma for the next field, but for commas in parentheses in a list
of parameters.

* `Phrase.strays`: the names of a type that are taken for fields.
* `reads_type_iff`, `reads_fields_iff`, `reads_item_iff`: what is read in agreement with what names mean, and what is not.
* `renamings_iff_reads`: all renamings of some names are right iff the text is read so.
* `renamings_iff`: the names of a fragment of which all renamings are right.
-/

namespace ScreenFusion.Wgsl

variable {substitute : String → Option String} {s t u : Scopes} {a b c : Bool} {ms ns : Marked}

/-! ## Readings -/

namespace Reads

theorem nil_iff : Reads substitute s a [] t b ↔ t = s ∧ b = a := by
  constructor
  · intro h
    cases h
    exact ⟨rfl, rfl⟩
  · rintro ⟨rfl, rfl⟩
    exact .nil

theorem cons_iff {m : Lexeme × Option (List String)} : Reads substitute s a (m :: ms) t b ↔
    Agrees substitute (m.1.step s a).1 m ∧ Reads substitute (m.1.step s a).2.1 (m.1.step s a).2.2 ms t b := by
  constructor
  · intro h
    cases h with
    | cons ha h => exact ⟨ha, h⟩
  · exact fun h => .cons h.1 h.2

theorem append_iff : Reads substitute s a (ms ++ ns) u c ↔
    ∃ t b, Reads substitute s a ms t b ∧ Reads substitute t b ns u c := by
  constructor
  · intro h
    induction ms generalizing s a with
    | nil => exact ⟨s, a, .nil, h⟩
    | cons m ms ih =>
      obtain ⟨ha, h⟩ := cons_iff.1 h
      obtain ⟨t, b, hms, hns⟩ := ih h
      exact ⟨t, b, .cons ha hms, hns⟩
  · rintro ⟨t, b, hms, hns⟩
    exact hms.append hns

theorem unique (h : Reads substitute s a ms t b) (h' : Reads substitute s a ms u c) : u = t ∧ c = b := by
  induction h with
  | nil => exact nil_iff.1 h'
  | cons _ _ ih => exact ih (cons_iff.1 h').2

/-- What comes after lexemes that are read. -/
theorem append_iff_of (h : Reads substitute s a ms t b) :
    Reads substitute s a (ms ++ ns) u c ↔ Reads substitute t b ns u c := by
  rw [append_iff]
  constructor
  · rintro ⟨t', b', hms, hns⟩
    obtain ⟨rfl, rfl⟩ := h.unique hms
    exact hns
  · exact fun hns => ⟨t, b, h, hns⟩

/-- What comes after a lexeme that is read. -/
theorem head_iff_of {m : Lexeme × Option (List String)} (h : Reads substitute s false [m] t false) :
    Reads substitute s false (m :: ms) u c ↔ Reads substitute t false ms u c := h.append_iff_of

theorem iff_of (h : Reads substitute s a ms t b) : Reads substitute s a ms u c ↔ u = t ∧ c = b := by
  constructor
  · exact h.unique
  · rintro ⟨rfl, rfl⟩
    exact h

/-- What comes after lexemes that are read on a condition, and that leave the same scopes whenever they are. -/
theorem append_iff_of_outcome {v : Scopes} {d : Bool} {condition : Prop}
    (h : ∀ t b, Reads substitute s a ms t b ↔ (t = v ∧ b = d) ∧ condition) :
    Reads substitute s a (ms ++ ns) u c ↔ condition ∧ Reads substitute v d ns u c := by
  rw [append_iff]
  constructor
  · rintro ⟨t, b, hms, hns⟩
    obtain ⟨⟨rfl, rfl⟩, hcondition⟩ := (h t b).1 hms
    exact ⟨hcondition, hns⟩
  · rintro ⟨hcondition, hns⟩
    exact ⟨v, d, (h v d).2 ⟨⟨rfl, rfl⟩, hcondition⟩, hns⟩

theorem filter_iff :
    Reads substitute s a (ms.filter fun m => !m.1.isGap) t b ↔ Reads substitute s a ms t b := by
  refine ⟨of_filter, fun h => ?_⟩
  induction h with
  | nil => exact .nil
  | @cons s t a b m ms ha _ ih =>
    obtain ⟨l, mark⟩ := m
    cases l with
    | gap g => exact ih
    | name n => exact .cons ha ih
    | number d => exact .cons ha ih
    | mark c => exact .cons ha ih

/-- A reading says nothing about names without substitutes. -/
theorem mono {less : String → Option String} (h : Reads substitute s a ms t b)
    (hless : ∀ n, (less n).isSome = true → (substitute n).isSome = true) : Reads less s a ms t b := by
  induction h with
  | nil => exact .nil
  | cons ha _ ih => exact .cons (fun n hn hsome => ha n hn (hless n hsome)) ih

end Reads

/-! ### All renamings of some names -/

/-- Each of some names as a substitute for itself. -/
def among (names : List String) (n : String) : Option String := if n ∈ names then some n else none

theorem among_isSome {names : List String} {n : String} : (among names n).isSome = true ↔ n ∈ names := by
  by_cases hn : n ∈ names <;> simp [among, hn]

/-- A text that does not begin as a name does. -/
theorem exists_other_start (n : String) : ∃ r : String, ∀ xs ys : List Char, n.toList ≠ [] →
    r.toList ++ xs ≠ n.toList ++ ys := by
  cases hn : n.toList with
  | nil => exact ⟨n, fun _ _ h => absurd rfl h⟩
  | cons c cs =>
    by_cases hc : c = 'x'
    · refine ⟨"y", fun xs ys _ h => ?_⟩
      have hhead : 'y' = c := (List.cons.inj h).1
      rw [hc] at hhead
      exact absurd hhead (by decide)
    · exact ⟨"x", fun xs ys _ h => hc (List.cons.inj h).1.symm⟩

/-- If all renamings of some names are right, the text is read in agreement with what they mean. -/
theorem reads_of_renamings {names : List String} (hs : Spelled (ms.map Prod.fst) = true)
    (h : ∀ substitute, (∀ n, (substitute n).isSome = true → n ∈ names) →
      renameFrom substitute s a (spell (ms.map Prod.fst)) = resolved substitute ms) :
    ∃ t b, Reads (among names) s a ms t b := by
  induction ms generalizing s a with
  | nil => exact ⟨s, a, .nil⟩
  | cons m ms ih =>
    rw [List.map_cons, Spelled, Bool.and_eq_true, Bool.and_eq_true] at hs
    obtain ⟨⟨hv, hf⟩, hrest⟩ := hs
    have hstep (substitute) (hnames : ∀ n, (substitute n).isSome = true → n ∈ names) :
        (if (m.1.step s a).1 then m.1.replaced substitute else m.1.text) ++
            renameFrom substitute (m.1.step s a).2.1 (m.1.step s a).2.2 (spell (ms.map Prod.fst)) =
          (if m.2.isSome then m.1.replaced substitute else m.1.text) ++ resolved substitute ms := by
      rw [← renameFrom_lexeme hv hf]
      exact h substitute hnames
    have hagrees : Agrees (among names) (m.1.step s a).1 m := by
      obtain ⟨l, mark⟩ := m
      rintro n rfl hsome
      have hne : n.toList ≠ [] := by
        intro hnil
        simp [Lexeme.valid, hnil] at hv
      obtain ⟨r, hr⟩ := exists_other_start n
      have heq := hstep (instead n r) fun k hk => by rw [eq_of_instead hk]; exact among_isSome.1 hsome
      have hreplaced : (Lexeme.name n).replaced (instead n r) = r.toList := by simp [Lexeme.replaced, instead]
      rw [hreplaced] at heq
      cases hd : ((Lexeme.name n).step s a).1 <;> cases hm : mark.isSome
      · rfl
      · simp only [hd, hm, Bool.false_eq_true, if_false, if_true] at heq
        exact absurd heq.symm (hr _ _ hne)
      · simp only [hd, hm, Bool.false_eq_true, if_false, if_true] at heq
        exact absurd heq (hr _ _ hne)
      · rfl
    obtain ⟨t, b, hreads⟩ := ih hrest fun substitute hnames => by
      have hsame : Agrees substitute (m.1.step s a).1 m := fun n hn hsome =>
        hagrees n hn (among_isSome.2 (hnames n hsome))
      have heq := hstep substitute hnames
      rw [hsame.text_eq] at heq
      exact List.append_cancel_left heq
    exact ⟨t, b, .cons hagrees hreads⟩

theorem renamings_iff_reads {names : List String} {source : Marked} (hs : Spelled (source.map Prod.fst) = true) :
    (∀ substitute, (∀ n, (substitute n).isSome = true → n ∈ names) →
        rename substitute (spell (source.map Prod.fst)) = resolved substitute source) ↔
      ∃ t b, Reads (among names) .start false source t b := by
  refine ⟨reads_of_renamings hs, ?_⟩
  rintro ⟨t, b, hreads⟩ substitute hnames
  exact (hreads.mono fun n hn => among_isSome.2 (hnames n hn)).renameFrom_eq hs

/-! ## Types -/

namespace Phrase

/-- Whether the next name after a phrase is taken for a field: `next` before it, in so many parentheses. -/
def leaves (takes : Nat → Bool) : Nat → Bool → Phrase → Bool
  | _, next, nil => next
  | depth, next, word _ rest => rest.leaves takes depth (next && !takes depth)
  | depth, next, member _ rest => rest.leaves takes depth next
  | depth, next, number _ rest => rest.leaves takes depth next
  | depth, next, mark c rest => rest.leaves takes depth (next || c == ',' && takes depth)
  | depth, next, parens inner rest => rest.leaves takes depth (inner.leaves takes (depth + 1) next)

/-- The names of a phrase that are taken for fields: the first one after a comma, if it and the comma are in so many
parentheses that `takes` says so. -/
def strays (takes : Nat → Bool) : Nat → Bool → Phrase → List String
  | _, _, nil => []
  | depth, next, word n rest =>
    if next && takes depth then n :: rest.strays takes depth false else rest.strays takes depth next
  | depth, next, member _ rest => rest.strays takes depth next
  | depth, next, number _ rest => rest.strays takes depth next
  | depth, next, mark c rest => rest.strays takes depth (next || c == ',' && takes depth)
  | depth, next, parens inner rest =>
    inner.strays takes (depth + 1) next ++ rest.strays takes depth (inner.leaves takes (depth + 1) next)

end Phrase

/-- Scopes in the types of fields, by the names that have been taken for fields, by whether the next name is to be taken,
and by the number of parentheses; `binds` if what has been taken is in force. -/
structure TypeScopes (substitute : String → Option String) (takes : Nat → Bool) (binds : Bool)
    (scopes : List String → Bool → Nat → Scopes) : Prop where
  take : ∀ taken depth n, takes depth = true →
    (scopes taken true depth).name n = (false, scopes (taken ++ [n]) false depth)
  use : ∀ taken next depth n, n ∉ Phrase.declarators → (next && takes depth) = false →
    (scopes taken next depth).name n = (!(scopes taken next depth).declares n, scopes taken next depth)
  comma : ∀ taken next depth, (scopes taken next depth).other [','] = scopes taken (next || takes depth) depth
  openParen : ∀ taken next depth, (scopes taken next depth).other ['('] = scopes taken next (depth + 1)
  closeParen : ∀ taken next depth, (scopes taken next (depth + 1)).other [')'] = scopes taken next depth
  declares : ∀ taken next depth n, (substitute n).isSome = true →
    ((scopes taken next depth).declares n = true ↔ binds = true ∧ n ∈ taken)

variable {takes : Nat → Bool} {binds : Bool} {scopes : List String → Bool → Nat → Scopes}

/-- A use of a name that can be used, where no locals are in force. -/
theorem agrees_occurring (hσ : ForNames substitute) {renamable : Bool} {n : String} :
    Agrees substitute renamable (occurring [] n) ↔ ((substitute n).isSome = true → renamable = true) := by
  constructor
  · intro h hsome
    rw [h n rfl hsome]
    simp [occurring, hσ n hsome]
  · rintro h _ ⟨⟩ hsome
    rw [h hsome]
    simp [occurring, hσ n hsome]

namespace TypeScopes

/-- A name in a type that is taken for a field is not renamed, though it means something of the module. -/
theorem reads_taken_iff (h : TypeScopes substitute takes binds scopes) (hσ : ForNames substitute) {depth : Nat}
    (hdepth : takes depth = true) (taken : List String) (w : String) :
    Reads substitute (scopes taken true depth) false (occurring [] w :: ms) t b ↔
      (substitute w).isSome = false ∧ Reads substitute (scopes (taken ++ [w]) false depth) false ms t b := by
  have hstep : (occurring [] w).1.step (scopes taken true depth) false =
      (false, scopes (taken ++ [w]) false depth, false) := by
    simp [occurring, Lexeme.step, h.take taken depth w hdepth]
  rw [Reads.cons_iff, hstep, agrees_occurring hσ]
  simp

/-- A name in a type that is not taken for a field is renamed, if it is not in force as one. -/
theorem reads_used_iff (h : TypeScopes substitute takes binds scopes) (hσ : ForNames substitute) {next : Bool}
    {depth : Nat} (hnext : (next && takes depth) = false) (taken : List String) {w : String}
    (hw : w ∉ Phrase.declarators) :
    Reads substitute (scopes taken next depth) false (occurring [] w :: ms) t b ↔
      ((substitute w).isSome = true → binds = true → w ∉ taken) ∧
        Reads substitute (scopes taken next depth) false ms t b := by
  have hstep : (occurring [] w).1.step (scopes taken next depth) false =
      (!(scopes taken next depth).declares w, scopes taken next depth, false) := by
    simp [occurring, Lexeme.step, h.use taken next depth w hw hnext]
  rw [Reads.cons_iff, hstep, agrees_occurring hσ]
  refine and_congr_left fun _ => imp_congr_right fun hsome => ?_
  rw [Bool.not_eq_true', ← Bool.not_eq_true, h.declares taken next depth w hsome, not_and]

/-- A mark in a type changes the scopes if it is a comma that counts. -/
theorem other_mark (h : TypeScopes substitute takes binds scopes) (taken : List String) (next : Bool) (depth : Nat)
    {c : Char} (hc : c ∉ ['.', ';', '(', ')', '\x7b', '\x7d']) :
    (scopes taken next depth).other [c] = scopes taken (next || c == ',' && takes depth) depth := by
  simp only [List.mem_cons, List.not_mem_nil, or_false, not_or] at hc
  obtain ⟨-, hsemicolon, hopen, hclose, hbrace, hbrace'⟩ := hc
  by_cases hcomma : c = ','
  · rw [hcomma, h.comma]
    simp
  · rw [other_eq_self (.inr (by simp [hcomma, hsemicolon, hopen, hclose, hbrace, hbrace'])),
      beq_eq_false_iff_ne.2 hcomma, Bool.false_and, Bool.or_false]

end TypeScopes

/-- No name with a substitute is among `strays`, nor, if what has been taken for fields is in force, is one among both
`words` and what has been taken before them. -/
def Spared (substitute : String → Option String) (binds : Bool) (taken strays words : List String) : Prop :=
  ∀ n, (substitute n).isSome = true → n ∉ strays ∧ (binds = true → n ∈ words → n ∉ taken)

section

variable {taken strays strays' words words' : List String} {w : String}

/-- What has been taken in a first part has no substitutes, so that it does not matter for the words of a second one. -/
theorem spared_append : Spared substitute binds taken (strays ++ strays') (words ++ words') ↔
    Spared substitute binds taken strays words ∧ Spared substitute binds (taken ++ strays) strays' words' := by
  simp only [Spared, List.mem_append, not_or]
  constructor
  · intro h
    refine ⟨fun n hn => ⟨(h n hn).1.1, fun hb hmem => (h n hn).2 hb (.inl hmem)⟩, fun n hn => ?_⟩
    exact ⟨(h n hn).1.2, fun hb hmem => ⟨(h n hn).2 hb (.inr hmem), (h n hn).1.1⟩⟩
  · rintro ⟨hfirst, hsecond⟩ n hn
    refine ⟨⟨(hfirst n hn).1, (hsecond n hn).1⟩, fun hb hmem => ?_⟩
    rcases hmem with hmem | hmem
    · exact (hfirst n hn).2 hb hmem
    · exact ((hsecond n hn).2 hb hmem).1

theorem spared_nil : Spared substitute binds taken [] [] := fun _ _ =>
  ⟨List.not_mem_nil, fun _ hmem => absurd hmem List.not_mem_nil⟩

theorem spared_taken : Spared substitute binds taken (w :: strays) (w :: words) ↔
    (substitute w).isSome = false ∧ Spared substitute binds (taken ++ [w]) strays words := by
  rw [← List.singleton_append, ← List.singleton_append (l := words), spared_append]
  refine and_congr_left fun _ => ⟨fun h => ?_, fun h n hn => ?_⟩
  · rw [← Bool.not_eq_true]
    exact fun hsome => (h w hsome).1 List.mem_cons_self
  · have hne : n ∉ [w] := by
      rw [List.mem_singleton]
      rintro rfl
      rw [h] at hn
      cases hn
    exact ⟨hne, fun _ hmem => absurd hmem hne⟩

theorem spared_used : Spared substitute binds taken strays (w :: words) ↔
    ((substitute w).isSome = true → binds = true → w ∉ taken) ∧ Spared substitute binds taken strays words := by
  rw [← List.nil_append strays, ← List.singleton_append, spared_append, List.append_nil, List.nil_append]
  refine and_congr_left fun _ => ⟨fun h hsome hb => (h w hsome).2 hb List.mem_cons_self, fun h n hn => ?_⟩
  refine ⟨List.not_mem_nil, fun hb hmem => ?_⟩
  obtain rfl := List.mem_singleton.1 hmem
  exact h hn hb

end

/-- A type is read in agreement with what its names mean iff no name with a substitute is taken for a field, nor is one
that is in force as a field. -/
theorem reads_type_iff (h : TypeScopes substitute takes binds scopes) (hσ : ForNames substitute) {p : Phrase}
    (hp : p.proper true = true) (taken : List String) (next : Bool) (depth : Nat) :
    Reads substitute (scopes taken next depth) false (p.marked []) t b ↔
      (t = scopes (taken ++ p.strays takes depth next) (p.leaves takes depth next) depth ∧ b = false) ∧
        Spared substitute binds taken (p.strays takes depth next) p.words := by
  induction p generalizing taken next depth t b with
  | nil => simp [Phrase.marked, Phrase.strays, Phrase.leaves, Phrase.words, Reads.nil_iff, spared_nil]
  | word w rest ih =>
    simp only [Phrase.proper, Bool.and_eq_true, Bool.not_eq_true'] at hp
    have hw : w ∉ Phrase.declarators := by simpa using hp.1
    by_cases htaken : (next && takes depth) = true
    · obtain ⟨rfl, hdepth⟩ := Bool.and_eq_true_iff.1 htaken
      rw [Phrase.marked, h.reads_taken_iff hσ hdepth, ih hp.2, List.append_assoc, List.singleton_append]
      simp only [Phrase.strays, Phrase.leaves, Phrase.words, hdepth, Bool.true_and, Bool.not_true, if_true]
      rw [spared_taken, and_left_comm]
    · rw [Bool.not_eq_true] at htaken
      have hleaves : (next && !takes depth) = next := by cases next <;> simp_all
      rw [Phrase.marked, h.reads_used_iff hσ htaken taken hw, ih hp.2]
      simp only [Phrase.strays, Phrase.leaves, Phrase.words, htaken, hleaves, Bool.false_eq_true, if_false]
      rw [spared_used, and_left_comm]
  | member n rest ih =>
    rw [show (Phrase.member n rest).marked [] = [punctuation '.', declaring n] ++ rest.marked [] from rfl,
      (Reads.member n).append_iff_of]
    exact ih hp taken next depth
  | number d rest ih =>
    rw [Phrase.marked, Reads.head_iff_of (.number d)]
    exact ih hp taken next depth
  | mark c rest ih =>
    simp only [Phrase.proper, Bool.and_eq_true, Bool.not_eq_true'] at hp
    obtain ⟨⟨hc, -⟩, hrest⟩ := hp
    have hc : c ∉ ['.', ';', '(', ')', '\x7b', '\x7d'] := by simpa using hc
    have hpoint : c ≠ '.' := List.ne_of_not_mem_cons hc
    rw [Phrase.marked, Reads.head_iff_of (.punctuation hpoint (h.other_mark taken next depth hc))]
    exact ih hrest taken _ depth
  | parens inner rest ihInner ihRest =>
    rw [Phrase.proper, Bool.and_eq_true] at hp
    have hopen : Reads substitute (scopes taken next depth) false [punctuation '('] (scopes taken next (depth + 1))
        false := .punctuation (by decide) (h.openParen taken next depth)
    have hclose (taken next) : Reads substitute (scopes taken next (depth + 1)) false [punctuation ')']
        (scopes taken next depth) false := .punctuation (by decide) (h.closeParen taken next depth)
    rw [Phrase.marked, Reads.head_iff_of hopen, Reads.append_iff_of_outcome fun _ _ => ihInner hp.1 taken next _,
      Reads.head_iff_of (hclose _ _), ihRest hp.2, List.append_assoc]
    simp only [Phrase.strays, Phrase.leaves, Phrase.words]
    rw [spared_append, and_left_comm]

/-! ## Fields -/

namespace Fields

/-- The names in the types of fields that are taken for fields. -/
def strays (takes : Nat → Bool) (f : Fields) : List String := f.list.flatMap fun x => x.2.strays takes 0 false

/-- What is taken for fields, in order: the fields, and the names in their types that are taken for such. -/
def taken (takes : Nat → Bool) (fields : List (String × Phrase)) : List String :=
  fields.flatMap fun x => x.1 :: x.2.strays takes 0 false

/-- Whether the next name after fields is taken for a field. -/
def leaves (takes : Nat → Bool) : Bool → List (String × Phrase) → Bool
  | next, [] => next
  | _, (_, p) :: rest => leaves takes (p.leaves takes 0 false) rest

/-- The names in the types of fields that are those of the field or of one before it. -/
def clashesFrom (before : List String) : List (String × Phrase) → List String
  | [] => []
  | (n, p) :: rest => p.words.filter (before ++ [n]).contains ++ clashesFrom (before ++ [n]) rest

def clashes (f : Fields) : List String := clashesFrom [] f.list

end Fields

/-- A field with its type and the fields after it; `before` is what has been taken for fields, of which `names` are. -/
theorem reads_fieldsFrom_iff (h : TypeScopes substitute takes binds scopes) (hσ : ForNames substitute)
    (htakes : takes 0 = true) {before names : List String}
    (hnames : ∀ k, (substitute k).isSome = true → (k ∈ before ↔ k ∈ names)) {n : String} {p : Phrase}
    {rest : List (String × Phrase)} (hp : ((n, p) :: rest).all (fun x => x.2.proper true) = true) :
    Reads substitute (scopes before true 0) false (declaring n :: (p.marked [] ++ Fields.markedRest rest)) t b ↔
      (t = scopes (before ++ Fields.taken takes ((n, p) :: rest)) (Fields.leaves takes true ((n, p) :: rest)) 0 ∧
        b = false) ∧
      ∀ k, (substitute k).isSome = true →
        k ∉ ((n, p) :: rest).flatMap (fun x => x.2.strays takes 0 false) ∧
          (binds = true → k ∉ Fields.clashesFrom names ((n, p) :: rest)) := by
  have hname (before : List String) (n : String) : Reads substitute (scopes before true 0) false [declaring n]
      (scopes (before ++ [n]) false 0) false := .name (h.take before 0 n htakes) fun _ => rfl
  induction rest generalizing before names n p with
  | nil =>
    rw [List.all_cons, Bool.and_eq_true] at hp
    rw [Reads.head_iff_of (hname before n), Fields.markedRest, List.append_nil, reads_type_iff h hσ hp.1]
    simp only [Fields.taken, Fields.leaves, List.flatMap_cons, List.flatMap_nil, List.append_nil, List.append_assoc,
      List.singleton_append]
    refine and_congr_right fun _ => forall_congr' fun k => imp_congr_right fun hk => and_congr_right fun _ => ?_
    simp [Fields.clashesFrom, hnames k hk]
  | cons x rest ih =>
    obtain ⟨n', p'⟩ := x
    rw [List.all_cons, Bool.and_eq_true] at hp
    -- What is taken for a field in the type has no substitute.
    have hnext (hspared : Spared substitute binds (before ++ [n]) (p.strays takes 0 false) p.words) (k)
        (hk : (substitute k).isSome = true) : k ∈ before ++ [n] ++ p.strays takes 0 false ↔ k ∈ names ++ [n] := by
      simp [hnames k hk, (hspared k hk).1]
    have hcomma : Reads substitute (scopes (before ++ [n] ++ p.strays takes 0 false) (p.leaves takes 0 false) 0) false
        [punctuation ','] (scopes (before ++ [n] ++ p.strays takes 0 false) true 0) false :=
      .punctuation (by decide) (by rw [h.comma, htakes, Bool.or_true])
    have htaken : before ++ [n] ++ p.strays takes 0 false ++ Fields.taken takes ((n', p') :: rest) =
        before ++ Fields.taken takes ((n, p) :: (n', p') :: rest) := by
      simp [Fields.taken]
    have hstrays : ((n, p) :: (n', p') :: rest).flatMap (fun x => x.2.strays takes 0 false) =
        p.strays takes 0 false ++ ((n', p') :: rest).flatMap fun x => x.2.strays takes 0 false := List.flatMap_cons
    have hclashes : Fields.clashesFrom names ((n, p) :: (n', p') :: rest) =
        p.words.filter (names ++ [n]).contains ++ Fields.clashesFrom (names ++ [n]) ((n', p') :: rest) := rfl
    rw [Reads.head_iff_of (hname before n), Reads.append_iff_of_outcome fun _ _ => reads_type_iff h hσ hp.1 _ _ _,
      Fields.markedRest, Reads.head_iff_of hcomma]
    refine (and_congr_right fun hspared => ih (hnext hspared) hp.2).trans ?_
    rw [htaken, and_left_comm]
    refine and_congr_right fun _ => forall_and.symm.trans (forall_congr' fun k => ?_)
    rw [← imp_and]
    refine imp_congr_right fun hk => ?_
    rw [hstrays, hclashes]
    simp only [List.mem_append, List.mem_filter, List.contains_iff_mem, hnames k hk, not_or, not_and]
    constructor
    · rintro ⟨⟨hstray, hclash⟩, hstrays, hclashes⟩
      exact ⟨⟨hstray, hstrays⟩, fun hb => ⟨hclash hb, hclashes hb⟩⟩
    · rintro ⟨⟨hstray, hstrays⟩, hclash⟩
      exact ⟨⟨hstray, fun hb => (hclash hb).1⟩, hstrays, fun hb => (hclash hb).2⟩

/-- Fields are read in agreement with what their names mean iff no name with a substitute is taken for a field, nor is one
that is in force as a field. -/
theorem reads_fields_iff (h : TypeScopes substitute takes binds scopes) (hσ : ForNames substitute)
    (htakes : takes 0 = true) {f : Fields} (hp : f.list.all (fun x => x.2.proper true) = true) :
    Reads substitute (scopes [] true 0) false f.marked t b ↔
      (t = scopes (Fields.taken takes f.list) (f.trailing || Fields.leaves takes true f.list) 0 ∧ b = false) ∧
        ∀ k, (substitute k).isSome = true → k ∉ f.strays takes ∧ (binds = true → k ∉ f.clashes) := by
  obtain ⟨list, trailing⟩ := f
  cases list with
  | nil =>
    simp [Fields.marked, Fields.taken, Fields.leaves, Fields.strays, Fields.clashes, Fields.clashesFrom, Reads.nil_iff]
  | cons x rest =>
    obtain ⟨n, p⟩ := x
    have hfields (t : Scopes) (b : Bool) := reads_fieldsFrom_iff (t := t) (b := b) h hσ htakes
      (fun k _ => Iff.rfl : ∀ k, (substitute k).isSome = true → (k ∈ [] ↔ k ∈ [])) hp
    cases trailing with
    | false =>
      rw [show (⟨(n, p) :: rest, false⟩ : Fields).marked =
        declaring n :: (p.marked [] ++ Fields.markedRest rest) ++ [] from rfl, List.append_nil, hfields]
      rfl
    | true =>
      have hcomma (taken next) : Reads substitute (scopes taken next 0) false [punctuation ','] (scopes taken true 0)
          false := .punctuation (by decide) (by rw [h.comma, htakes, Bool.or_true])
      rw [show (⟨(n, p) :: rest, true⟩ : Fields).marked =
        declaring n :: (p.marked [] ++ Fields.markedRest rest) ++ [punctuation ','] from rfl,
        Reads.append_iff_of_outcome hfields, (hcomma _ _).iff_of, and_comm]
      rfl

/-! ## Items -/

/-- Names are taken for parameters outside of parentheses. -/
def takesParam (depth : Nat) : Bool := depth == 0

/-- Names are taken for members anywhere. -/
def takesMember (_ : Nat) : Bool := true

namespace Item

/-- Whether the parts are proper; types may have commas. -/
def wellFormed : Item → Bool
  | function _ params result body => params.list.all (fun x => x.2.proper true) && result.proper true && body.proper
  | record _ members => members.list.all fun x => x.2.proper true
  | value d => d.proper
  | semicolon => true

/-- The names in types that are taken for parameters or members. -/
def strays : Item → List String
  | function _ params _ _ => params.strays takesParam
  | record _ members => members.strays takesMember
  | _ => []

/-- The names in types that are those of parameters before them. -/
def clashes : Item → List String
  | function _ params result _ => params.clashes ++ result.words.filter params.names.contains
  | _ => []

end Item

/-- Scopes in a list of parameters. -/
def inParams (outermost taken : List String) (next : Bool) (depth : Nat) : Scopes :=
  ⟨[], outermost, taken, depth + 1, 1, .params next, none⟩

/-- Scopes between a list of parameters and the body. -/
def afterParams (outermost taken : List String) (_ : Bool) (depth : Nat) : Scopes :=
  ⟨[], outermost, taken, depth, 1, .code, none⟩

/-- Scopes in a structure. -/
def inRecord (outermost : List String) (paramDepth : Nat) (_ : List String) (next : Bool) (depth : Nat) : Scopes :=
  ⟨[[]], outermost, [], depth, paramDepth, .struct next, none⟩

section

variable {outermost : List String} (houtermost : ∀ n, (substitute n).isSome = true → n ∉ outermost)

include houtermost

theorem typeScopes_params : TypeScopes substitute takesParam true (inParams outermost) where
  take taken depth n hdepth := by simp [Scopes.name, inParams, show depth = 0 from beq_iff_eq.1 hdepth]
  use taken next depth n _ hnext := by
    have hnot : ¬(next = true ∧ depth + 1 = 1) := by
      rintro ⟨rfl, hdepth⟩
      obtain rfl : depth = 0 := Nat.succ.inj hdepth
      cases hnext
    exact if_neg hnot
  comma taken next depth := by
    by_cases hdepth : depth = 0 <;> simp [Scopes.other, Scopes.comma, inParams, takesParam, hdepth]
  openParen taken next depth := rfl
  closeParen taken next depth := by simp [Scopes.other, Scopes.closeParen, inParams]
  declares taken next depth n hn := by simp [declares_iff, inParams, houtermost n hn]

theorem typeScopes_result : TypeScopes substitute (fun _ => false) true (afterParams outermost) where
  take taken depth n hdepth := absurd hdepth Bool.false_ne_true
  use taken next depth n hn _ := name_of_quiet (show (afterParams outermost taken next depth).Quiet true from .inl rfl) hn
  comma taken next depth := rfl
  openParen taken next depth := rfl
  closeParen taken next depth := rfl
  declares taken next depth n hn := by simp [declares_iff, afterParams, houtermost n hn]

theorem typeScopes_record (paramDepth : Nat) :
    TypeScopes substitute takesMember false (inRecord outermost paramDepth) where
  take taken depth n _ := rfl
  use taken next depth n _ hnext := by
    obtain rfl : next = false := by simpa [takesMember] using hnext
    rfl
  comma taken next depth := by simp [Scopes.other, Scopes.comma, inRecord, takesMember]
  openParen taken next depth := rfl
  closeParen taken next depth := rfl
  declares taken next depth n hn := by simp [declares_iff, inRecord, houtermost n hn]

end

/-- What is taken for a field is one or is taken for one in a type. -/
theorem Fields.mem_taken {f : Fields} {n : String} : n ∈ Fields.taken takes f.list ↔ n ∈ f.names ∨ n ∈ f.strays takes := by
  obtain ⟨list, trailing⟩ := f
  simp only [Fields.taken, Fields.names, Fields.strays]
  induction list with
  | nil => simp
  | cons x rest ih =>
    simp only [List.flatMap_cons, List.map_cons, List.mem_append, List.mem_cons, ih]
    constructor
    · rintro ((h | h) | h | h) <;> simp [h]
    · rintro ((h | h) | h | h) <;> simp [h]

/-- Nothing is taken for a field where nothing is to be. -/
theorem Phrase.strays_of_never (p : Phrase) (depth : Nat) : p.strays (fun _ => false) depth false = [] ∧
    p.leaves (fun _ => false) depth false = false := by
  induction p generalizing depth with
  | nil => exact ⟨rfl, rfl⟩
  | word n rest ih | member n rest ih | number d rest ih => exact ih depth
  | mark c rest ih => simpa [strays, leaves] using ih depth
  | parens inner rest ihInner ihRest => simp [strays, leaves, ihInner, ihRest]

/-- After the parameters, the type of the result sees them. -/
theorem reads_result_iff (hσ : ForNames substitute) {outermost : List String}
    (houtermost : ∀ n, (substitute n).isSome = true → n ∉ outermost) {result : Phrase}
    (hp : result.proper true = true) (taken : List String) :
    Reads substitute (afterParams outermost taken false 0) false (result.marked []) t b ↔
      (t = afterParams outermost taken false 0 ∧ b = false) ∧
        ∀ n, (substitute n).isSome = true → n ∈ result.words → n ∉ taken := by
  obtain ⟨hstrays, hleaves⟩ := result.strays_of_never 0
  rw [reads_type_iff (typeScopes_result houtermost) hσ hp, hstrays, hleaves, List.append_nil]
  simp [Spared]

/-- The body of a function sees the parameters, and what has been taken for such. -/
theorem reads_block (hσ : ForNames substitute) {outermost : List String}
    (houtermost : ∀ n, (substitute n).isSome = true → n ∉ outermost) {params : Fields} {body : Stmts}
    (hp : body.proper = true) (hspace : ∀ n ∈ body.bound, n ∉ Scopes.addressSpaces)
    (hstrays : ∀ n, (substitute n).isSome = true → n ∉ params.strays takes) :
    Reads substitute (afterParams outermost (Fields.taken takes params.list) false 0) false
      (punctuation '\x7b' :: (body.marked params.names ++ [punctuation '\x7d'])) (.between [] outermost 1) false := by
  have hsee : Sees substitute (.between [Fields.taken takes params.list] outermost 1) params.names := by
    intro n hn
    have htaken : n ∈ Fields.taken takes params.list ↔ n ∈ params.names := by
      rw [Fields.mem_taken, or_iff_left (hstrays n hn)]
    simp [declares_iff, Scopes.between, houtermost n hn, htaken]
  have hclose : Reads substitute (.between [Fields.taken takes params.list ++ body.locals] outermost 1) false
      [punctuation '\x7d'] (.between [] outermost 1) false := .punctuation (by decide) rfl
  exact .head (.punctuation (by decide) rfl) ((reads_stmts hσ hp hspace hsee).append hclose)

/-- A function is read in agreement with what its names mean iff no name with a substitute is taken for a parameter, nor
is one in a type that is that of a parameter before it. -/
theorem reads_function_iff (hσ : ForNames substitute) {outermost : List String}
    (houtermost : ∀ n, (substitute n).isSome = true → n ∉ outermost) {paramDepth : Nat} {name : String}
    {params : Fields} {result : Phrase} {body : Stmts}
    (hp : (Item.function name params result body).wellFormed = true)
    (hspace : ∀ n ∈ body.bound, n ∉ Scopes.addressSpaces) :
    Reads substitute (.between [] outermost paramDepth) false (Item.function name params result body).marked t b ↔
      (t = .between [] outermost 1 ∧ b = false) ∧ ∀ n, (substitute n).isSome = true →
        n ∉ (Item.function name params result body).strays ∧
          n ∉ (Item.function name params result body).clashes := by
  simp only [Item.wellFormed, Bool.and_eq_true] at hp
  obtain ⟨⟨hparams, hresult⟩, hbody⟩ := hp
  let header : Scopes := ⟨[], outermost, [], 0, paramDepth, .header, none⟩
  have hfn : Reads substitute (.between [] outermost paramDepth) false [keyword "fn"] header false :=
    .name rfl fun hn => absurd (hσ _ hn) (by decide)
  have hname : Reads substitute header false [occurring [] name] header false :=
    .name rfl fun hn => by simp [hσ name hn]
  have hopen : Reads substitute header false [punctuation '('] (inParams outermost [] true 0) false :=
    .punctuation (by decide) rfl
  have hclose (taken next) : Reads substitute (inParams outermost taken next 0) false [punctuation ')']
      (afterParams outermost taken false 0) false :=
    .punctuation (by decide) (by simp [Scopes.other, Scopes.closeParen, inParams, afterParams])
  rw [Item.marked, Reads.head_iff_of hfn, Reads.head_iff_of hname, Reads.head_iff_of hopen,
    Reads.append_iff_of_outcome fun _ _ => reads_fields_iff (typeScopes_params houtermost) hσ rfl hparams,
    Reads.head_iff_of (hclose _ _),
    Reads.append_iff_of_outcome fun _ _ => reads_result_iff hσ houtermost hresult _]
  refine (and_congr_right fun hfree => and_congr_right fun _ =>
    (reads_block hσ houtermost hbody hspace fun n hn => (hfree n hn).1).iff_of).trans ?_
  rw [← and_assoc, and_comm]
  refine and_congr_right fun _ => forall_and.symm.trans (forall_congr' fun n => ?_)
  rw [← imp_and]
  refine imp_congr_right fun hn => ?_
  simp only [Item.strays, Item.clashes, List.mem_append, List.mem_filter, List.contains_iff_mem, not_or, not_and,
    Fields.mem_taken, forall_const]
  constructor
  · rintro ⟨⟨hstray, hclash⟩, hresult⟩
    exact ⟨hstray, hclash, fun hmem => (hresult hmem).1⟩
  · rintro ⟨hstray, hclash, hresult⟩
    exact ⟨⟨hstray, hclash⟩, fun hmem => ⟨hresult hmem, hstray⟩⟩

/-- A structure is read in agreement with what its names mean iff no name with a substitute is taken for a member. -/
theorem reads_record_iff (hσ : ForNames substitute) {outermost : List String}
    (houtermost : ∀ n, (substitute n).isSome = true → n ∉ outermost) {paramDepth : Nat} {name : String}
    {members : Fields} (hp : (Item.record name members).wellFormed = true) :
    Reads substitute (.between [] outermost paramDepth) false (Item.record name members).marked t b ↔
      (t = .between [] outermost paramDepth ∧ b = false) ∧ ∀ n, (substitute n).isSome = true →
        n ∉ (Item.record name members).strays ∧ n ∉ (Item.record name members).clashes := by
  let header : Scopes := ⟨[], outermost, [], 0, paramDepth, .struct false, none⟩
  have hstruct : Reads substitute (.between [] outermost paramDepth) false [keyword "struct"] header false :=
    .name rfl fun hn => absurd (hσ _ hn) (by decide)
  have hname : Reads substitute header false [occurring [] name] header false := by
    refine .name (r := !header.declares name) rfl fun hn => ?_
    simp [Scopes.declares, header, houtermost name hn, hσ name hn]
  have hopen : Reads substitute header false [punctuation '\x7b'] (inRecord outermost paramDepth [] true 0) false :=
    .punctuation (by decide) rfl
  have hclose (taken next) : Reads substitute (inRecord outermost paramDepth taken next 0) false [punctuation '\x7d']
      (.between [] outermost paramDepth) false := .punctuation (by decide) rfl
  rw [Item.marked, Reads.head_iff_of hstruct, Reads.head_iff_of hname, Reads.head_iff_of hopen,
    Reads.append_iff_of_outcome fun _ _ => reads_fields_iff (typeScopes_record houtermost paramDepth) hσ rfl hp,
    (hclose _ _).iff_of, and_comm]
  refine and_congr_right fun _ => forall_congr' fun n => imp_congr_right fun _ => ?_
  simp [Item.strays, Item.clashes]

/-- A value of the module is read in agreement with what its names mean iff it has no substitute. -/
theorem reads_value_iff (hσ : ForNames substitute) {outermost : List String}
    (houtermost : ∀ n, (substitute n).isSome = true → n ∉ outermost) {paramDepth : Nat} {d : Binding}
    (hp : d.proper = true) (hspace : d.name ∉ Scopes.addressSpaces) :
    Reads substitute (.between [] outermost paramDepth) false (Item.value d).marked t b ↔
      (t = .between [] (outermost ++ [d.name]) paramDepth ∧ b = false) ∧ (substitute d.name).isSome = false := by
  let named : Scopes := { Scopes.between [] outermost paramDepth with mode := .localName }
  let waiting : Scopes := { Scopes.between [] outermost paramDepth with pending := some (d.name, 0) }
  have hstep : (Lexeme.name d.name).step named false = (false, waiting, false) := by
    simp [Lexeme.step, Scopes.name, named, waiting, Scopes.between, hspace]
  have hcontent : Reads substitute waiting false (d.content.marked []) waiting false := by
    refine reads_phrase hσ hp (.inl rfl) fun n _ hn => ?_
    simp [declares_iff, waiting, Scopes.between, houtermost n hn]
  have hsemicolon : Reads substitute waiting false [punctuation ';'] (.between [] (outermost ++ [d.name]) paramDepth)
      false := .punctuation (by decide) rfl
  rw [Item.marked, (reads_kind d.kind rfl).append_iff_of, Reads.cons_iff,
    show (occurring [] d.name).1.step named false = _ from hstep, agrees_occurring hσ, (hcontent.append hsemicolon).iff_of,
    and_comm]
  simp

/-- What is read of an item in agreement with what its names mean, and what it leaves. -/
theorem reads_item_iff (hσ : ForNames substitute) {item : Item} (hp : item.wellFormed = true)
    (hspace : ∀ n ∈ item.bound, n ∉ Scopes.addressSpaces) (hs : ModuleScopes substitute s) :
    ∃ u, ((∀ n, (substitute n).isSome = true → n ∉ item.values) → ModuleScopes substitute u) ∧
      ∀ t b, Reads substitute s false item.marked t b ↔ (t = u ∧ b = false) ∧
        ∀ n, (substitute n).isSome = true → n ∉ item.values ∧ n ∉ item.strays ∧ n ∉ item.clashes := by
  obtain ⟨outermost, paramDepth, rfl, hfree⟩ := hs
  have houtermost (n) (hn : (substitute n).isSome = true) : n ∉ outermost := fun hmem => by simp [hfree n hmem] at hn
  cases item with
  | function name params result body =>
    refine ⟨.between [] outermost 1, fun _ => ⟨outermost, 1, rfl, hfree⟩, fun t b => ?_⟩
    rw [reads_function_iff hσ houtermost hp hspace]
    simp [Item.values]
  | record name members =>
    refine ⟨.between [] outermost paramDepth, fun _ => ⟨outermost, paramDepth, rfl, hfree⟩, fun t b => ?_⟩
    rw [reads_record_iff hσ houtermost hp]
    simp [Item.values]
  | semicolon =>
    refine ⟨.between [] outermost paramDepth, fun _ => ⟨outermost, paramDepth, rfl, hfree⟩, fun t b => ?_⟩
    have hsemicolon : Reads substitute (.between [] outermost paramDepth) false [punctuation ';']
        (.between [] outermost paramDepth) false := .punctuation (by decide) rfl
    rw [Item.marked, hsemicolon.iff_of]
    simp [Item.values, Item.strays, Item.clashes]
  | value d =>
    refine ⟨.between [] (outermost ++ [d.name]) paramDepth, fun hvalues => ⟨_, paramDepth, rfl, fun n hn => ?_⟩,
      fun t b => ?_⟩
    · rcases List.mem_append.1 hn with hn | hn
      · exact hfree n hn
      · rw [← Bool.not_eq_true]
        exact fun hsome => hvalues n hsome hn
    · rw [reads_value_iff hσ houtermost hp (hspace d.name (List.mem_singleton.2 rfl))]
      refine and_congr_right fun _ => ⟨fun hd n hn => ⟨fun hmem => ?_, List.not_mem_nil, List.not_mem_nil⟩, fun hall => ?_⟩
      · rw [List.mem_singleton.1 hmem, hd] at hn
        cases hn
      · rw [← Bool.not_eq_true]
        exact fun hsome => (hall d.name hsome).1 (List.mem_singleton.2 rfl)

namespace Fragment

/-- Whether the items are proper; types may have commas. -/
def wellFormed (f : Fragment) : Bool := f.all Item.wellFormed

/-- The names in types that are taken for parameters or members. -/
def strays (f : Fragment) : List String := f.flatMap Item.strays

/-- The names in types that are those of parameters before them. -/
def clashes (f : Fragment) : List String := f.flatMap Item.clashes

end Fragment

theorem reads_fragment_iff (hσ : ForNames substitute) {f : Fragment} (hp : f.wellFormed = true)
    (hspace : ∀ n ∈ f.bound, n ∉ Scopes.addressSpaces) (hs : ModuleScopes substitute s) :
    (∃ t b, Reads substitute s false f.marked t b) ↔
      ∀ n, (substitute n).isSome = true → n ∉ f.values ∧ n ∉ f.strays ∧ n ∉ f.clashes := by
  induction f generalizing s with
  | nil => exact iff_of_true ⟨s, false, .nil⟩ fun n _ => ⟨List.not_mem_nil, List.not_mem_nil, List.not_mem_nil⟩
  | cons item rest ih =>
    rw [Fragment.wellFormed, List.all_cons, Bool.and_eq_true] at hp
    obtain ⟨u, hu, hitem⟩ := reads_item_iff hσ hp.1 (fun n hn => hspace n (List.mem_append_left _ hn)) hs
    have hrest (hvalues) := ih hp.2 (fun n hn => hspace n (List.mem_append_right _ hn)) (hu hvalues)
    have hparts (n) : (n ∉ Fragment.values (item :: rest) ∧ n ∉ Fragment.strays (item :: rest) ∧
        n ∉ Fragment.clashes (item :: rest)) ↔ (n ∉ item.values ∧ n ∉ item.strays ∧ n ∉ item.clashes) ∧
          n ∉ Fragment.values rest ∧ n ∉ Fragment.strays rest ∧ n ∉ Fragment.clashes rest := by
      simp only [Fragment.values, Fragment.strays, Fragment.clashes, List.flatMap_cons, List.mem_append, not_or]
      constructor
      · rintro ⟨⟨hvalue, hvalues⟩, ⟨hstray, hstrays⟩, hclash, hclashes⟩
        exact ⟨⟨hvalue, hstray, hclash⟩, hvalues, hstrays, hclashes⟩
      · rintro ⟨⟨hvalue, hstray, hclash⟩, hvalues, hstrays, hclashes⟩
        exact ⟨⟨hvalue, hvalues⟩, ⟨hstray, hstrays⟩, hclash, hclashes⟩
    have hsplit (t b) : Reads substitute s false (item.marked ++ Fragment.marked rest) t b ↔ _ :=
      Reads.append_iff_of_outcome hitem
    rw [show Fragment.marked (item :: rest) = item.marked ++ Fragment.marked rest from rfl]
    simp only [hsplit, exists_and_left]
    refine (and_congr_right fun hall => hrest fun n hn => (hall n hn).1).trans ?_
    refine forall_and.symm.trans (forall_congr' fun n => ?_)
    rw [← imp_and]
    exact imp_congr_right fun _ => (hparts n).symm

/-! ## Fragments -/

/-- The names of a fragment of which all renamings are right: of usable names, those that are not of its values, are
taken for no parameter or member after a comma in a type, and are in no type the name of a parameter before it. -/
theorem renamings_iff (f : Fragment) (source : Marked) (hs : Spells f source) (hp : f.wellFormed = true)
    (hspace : ∀ n ∈ f.bound, n ∉ Scopes.addressSpaces) (names : List String)
    (hnames : ∀ n ∈ names, isReserved n = false) :
    (∀ substitute, (∀ n, (substitute n).isSome = true → n ∈ names) →
        rename substitute (spell (source.map Prod.fst)) = resolved substitute source) ↔
      ∀ n ∈ names, n ∉ f.values ∧ n ∉ f.strays ∧ n ∉ f.clashes := by
  have hσ : ForNames (among names) := fun n hn => hnames n (among_isSome.1 hn)
  have hstart : ModuleScopes (among names) .start := ⟨[], 0, rfl, fun _ hn => absurd hn List.not_mem_nil⟩
  rw [renamings_iff_reads hs.spelled]
  have hgaps (t b) : Reads (among names) .start false source t b ↔ Reads (among names) .start false f.marked t b := by
    rw [← hs.lexemes]
    exact Reads.filter_iff.symm
  simp only [hgaps, reads_fragment_iff hσ hp hspace hstart, among_isSome]

/-- A colon and the type of an array. -/
def arrayOf (element count : String) : Phrase :=
  .mark ':' (.word "array" (.mark '<' (.word element (.mark ',' (.word count (.mark '>' .nil))))))

/-- A structure and a function in which the counts of arrays are names of the module. -/
def counted : Fragment :=
  [.record "S" ⟨[("k", arrayOf "f32" "N"), ("m", typed "f32")], true⟩,
    .function "f" ⟨[("v", arrayOf "S" "M"), ("n", typed "f32")], false⟩ (.mark '-' (.mark '>' (.word "f32" .nil)))
      (.simple (.word "return" (.word "v" (.mark '[' (.number (numeral "0") (.mark ']' (.mark '*' (.word "M"
        (.mark '*' (.word "K" .nil))))))))) .nil)]

/-- All renamings of the structure and of a name in the body are right, and not all of the counts are. -/
theorem renamings_iff_counted : Spells counted (spaced counted.marked) ∧ counted.wellFormed = true ∧
    (∀ n ∈ counted.bound, n ∉ Scopes.addressSpaces) ∧ (∀ n ∈ ["S", "K"], isReserved n = false) ∧
    (∀ substitute, (∀ n, (substitute n).isSome = true → n ∈ ["S", "K"]) →
      rename substitute (spell ((spaced counted.marked).map Prod.fst)) = resolved substitute (spaced counted.marked)) ∧
    ¬ ∀ substitute, (∀ n, (substitute n).isSome = true → n ∈ ["N"]) →
      rename substitute (spell ((spaced counted.marked).map Prod.fst)) = resolved substitute (spaced counted.marked) := by
  have hs : Spells counted (spaced counted.marked) := ⟨by decide +kernel, by decide +kernel⟩
  have hp : counted.wellFormed = true := by decide +kernel
  have hspace : ∀ n ∈ counted.bound, n ∉ Scopes.addressSpaces := by decide +kernel
  have hnames : ∀ n ∈ ["S", "K"], isReserved n = false := by decide +kernel
  refine ⟨hs, hp, hspace, hnames, ?_, fun h => ?_⟩
  · exact (renamings_iff counted _ hs hp hspace ["S", "K"] hnames).2 (by decide +kernel)
  · have hcount := (renamings_iff counted _ hs hp hspace ["N"] (by decide +kernel)).1 h "N" List.mem_cons_self
    exact hcount.2.1 (by decide +kernel)

/-- A function with an array for a parameter, and a structure with one for a member. -/
def arrays : Fragment :=
  [.function "f" ⟨[("a", arrayOf "f32" "N")], false⟩ (.mark '-' (.mark '>' (.word "f32" .nil)))
    (.simple (.word "return" (.word "a" (.mark '[' (.number (numeral "0") (.mark ']' (.mark '*' (.word "N" .nil))))))) .nil),
    .record "S" ⟨[("b", arrayOf "f32" "N")], false⟩]

/-- The count of an array is taken for a parameter, so that the body sees no name of the module in it, and for a member:
none of its uses are replaced. -/
theorem count_kept : Spells arrays (spaced arrays.marked) ∧ arrays.wellFormed = true ∧
    isReserved "N" = false ∧ "N" ∉ arrays.values ∧
    String.ofList (rename (instead "N" "K") (spell ((spaced arrays.marked).map Prod.fst))) =
      "fn f ( a : array < f32 , N > ) -> f32 \x7b return a [ 0 ] * N ; \x7d struct S \x7b b : array < f32 , N > \x7d " ∧
    String.ofList (resolved (instead "N" "K") (spaced arrays.marked)) =
      "fn f ( a : array < f32 , K > ) -> f32 \x7b return a [ 0 ] * K ; \x7d struct S \x7b b : array < f32 , K > \x7d " := by
  refine ⟨⟨by decide +kernel, by decide +kernel⟩, ?_⟩
  decide +kernel

end ScreenFusion.Wgsl
