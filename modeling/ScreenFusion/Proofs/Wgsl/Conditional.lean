import ScreenFusion.Wgsl.Conditional

/-!
# ScreenFusion.Proofs.Wgsl.Conditional — conditional lines as a tree

The lines of a text whose conditionals are well nested are a tree: lines, and conditionals that hold other lines in one
branch or two.  Evaluation keeps a stack of open conditionals and finds what the tree says, or the first line after which
no tree is possible any more, or how many conditionals are open at the end.

* `words_eq_iff`: words are the runs of characters between blanks.
* `Directive.ofLine?_eq_none_iff`, `Directive.ofLine?_eq_some_iff`, `Directive.ofLine?_eq_unknown_iff`: what a line is.
* `Passage`: lines with their conditionals; `Passage.enclosed`: the branches around each line.
* `wellNested_iff`, `viable_iff`: the lines that are those of a tree, or begin those of a tree, and the stack.
* `selectText_eq_iff`: what evaluation gives, for every text.
-/

namespace ScreenFusion.Wgsl

open Text (isBlank startsBlank words trimStart)

/-! ## Words -/

/-- Blanks, or nothing. -/
def Blanks (cs : List Char) : Prop := ∀ c ∈ cs, isBlank c = true

/-- Characters that are not blank, at least one. -/
def IsWord (w : List Char) : Prop := w ≠ [] ∧ ∀ c ∈ w, isBlank c = false

/-- Words in a text, with blanks between them and perhaps around them. -/
inductive Spaced : List (List Char) → List Char → Prop where
  | nil {b : List Char} : Blanks b → Spaced [] b
  | cons {b w cs : List Char} {ws : List (List Char)} :
      Blanks b → IsWord w → startsBlank cs = true → Spaced ws cs → Spaced (w :: ws) (b ++ (w ++ cs))

theorem Blanks.cons {c : Char} {b : List Char} (hc : isBlank c = true) (hb : Blanks b) : Blanks (c :: b) :=
  List.forall_mem_cons.2 ⟨hc, hb⟩

theorem Spaced.blank {ws : List (List Char)} {c : Char} {cs : List Char} (hc : isBlank c = true) (h : Spaced ws cs) :
    Spaced ws (c :: cs) := by
  cases h with
  | nil hb => exact .nil (hb.cons hc)
  | cons hb hw hcs hws => exact .cons (hb.cons hc) hw hcs hws

theorem spaced_words (cs : List Char) : Spaced (words cs) cs := by
  induction cs with
  | nil => exact .nil nofun
  | cons c cs ih =>
    rw [words]
    by_cases hc : isBlank c = true
    · rw [if_pos hc]
      exact ih.blank hc
    · have hcf : isBlank c = false := by simpa using hc
      rw [if_neg hc]
      by_cases hcs : startsBlank cs = true
      · rw [if_pos hcs]
        exact .cons (b := []) nofun ⟨by simp, by simpa using hcf⟩ hcs ih
      · -- The character is the first of the word that follows.
        rw [if_neg hcs]
        generalize words cs = ws at ih
        cases ih with
        | nil hb =>
          cases cs with
          | nil => exact absurd rfl hcs
          | cons d ds => exact absurd (hb d List.mem_cons_self) hcs
        | @cons b w rest ws hb hw hrest hws =>
          cases b with
          | nil => exact .cons (b := []) nofun ⟨by simp, List.forall_mem_cons.2 ⟨hcf, hw.2⟩⟩ hrest hws
          | cons d ds => exact absurd (hb d List.mem_cons_self) hcs

theorem words_blanks {b : List Char} (hb : Blanks b) (cs : List Char) : words (b ++ cs) = words cs := by
  induction b with
  | nil => rfl
  | cons c b ih =>
    obtain ⟨hc, hb⟩ := List.forall_mem_cons.1 hb
    rw [List.cons_append, words, if_pos hc, ih hb]

theorem words_word {w cs : List Char} (hw : IsWord w) (hcs : startsBlank cs = true) :
    words (w ++ cs) = w :: words cs := by
  obtain ⟨hne, hw⟩ := hw
  induction w with
  | nil => exact absurd rfl hne
  | cons c w ih =>
    obtain ⟨hc, hw⟩ := List.forall_mem_cons.1 hw
    rw [List.cons_append, words, if_neg (by simp [hc])]
    cases w with
    | nil => rw [List.nil_append, if_pos hcs]
    | cons d w =>
      have hd : ¬ startsBlank (d :: w ++ cs) = true := by
        show ¬ isBlank d = true
        simp [hw d List.mem_cons_self]
      rw [if_neg hd, ih (by simp) hw]

/-- Words are the runs of characters between blanks. -/
theorem words_eq_iff {cs : List Char} {ws : List (List Char)} : words cs = ws ↔ Spaced ws cs := by
  refine ⟨fun h => h ▸ spaced_words cs, fun h => ?_⟩
  induction h with
  | nil hb => simpa using words_blanks hb []
  | cons hb hw hcs _ ih => rw [words_blanks hb, words_word hw hcs, ih]

/-! ## Directives -/

/-- A directive: blanks, a number sign, and what follows it. -/
def HasSign (l rest : List Char) : Prop := ∃ b, Blanks b ∧ l = b ++ '#' :: rest

theorem hasSign_iff {l rest : List Char} : HasSign l rest ↔ trimStart l = '#' :: rest := by
  constructor
  · rintro ⟨b, hb, rfl⟩
    rw [trimStart, List.dropWhile_append_of_pos hb]
    rfl
  · intro h
    refine ⟨l.takeWhile isBlank, List.all_eq_true.1 List.all_takeWhile, ?_⟩
    rw [← h, Text.trimStart_append]

namespace Directive

/-- The words of a directive after its number sign: a name may be followed by others. -/
def SaidBy : Directive → List (List Char) → Prop
  | ifdef name, ws => ∃ more, ws = "ifdef".toList :: name.toList :: more
  | ifndef name, ws => ∃ more, ws = "ifndef".toList :: name.toList :: more
  | otherwise, ws => ws = ["else".toList]
  | endif, ws => ws = ["endif".toList]
  | unknown _, _ => False

/-- A line that is a directive of one of the four forms. -/
def Written (d : Directive) (l : List Char) : Prop := ∃ rest ws, HasSign l rest ∧ Spaced ws rest ∧ d.SaidBy ws

/-- A directive of another form, from its number sign. -/
def Unsupported (l text : List Char) : Prop :=
  ∃ rest, HasSign l rest ∧ text = '#' :: rest ∧ ∀ d ws, Spaced ws rest → ¬ SaidBy d ws

theorem SaidBy.unique {d e : Directive} {ws : List (List Char)} (hd : d.SaidBy ws) (he : e.SaidBy ws) : d = e := by
  cases d with
  | unknown text => exact hd.elim
  | ifdef name | ifndef name =>
    obtain ⟨more, rfl⟩ := hd
    cases e <;> simp_all [SaidBy, String.toList_inj]
  | otherwise | endif =>
    obtain rfl := hd
    cases e <;> simp_all [SaidBy]

theorem ofLine?_eq_none_iff {l : List Char} : ofLine? l = none ↔ ∀ rest, ¬ HasSign l rest := by
  simp only [hasSign_iff]
  unfold ofLine?
  split
  · next rest h => simp [h]
  · next h => exact ⟨fun _ rest => h rest, fun _ => rfl⟩

/-- What a line with a number sign is: what its words say, or a directive of another form. -/
theorem ofLine?_of_sign {l rest : List Char} (h : HasSign l rest) :
    (∃ d, ofLine? l = some d ∧ d.SaidBy (words rest)) ∨
      ofLine? l = some (unknown (String.ofList ('#' :: rest))) ∧ ∀ d, ¬ SaidBy d (words rest) := by
  have hwords {ws : List String} (hws : (words rest).map String.ofList = ws) : words rest = ws.map String.toList := by
    rw [← hws, List.map_map]
    simp
  unfold ofLine?
  rw [hasSign_iff.1 h]
  simp only
  split
  · next name more hws => exact .inl ⟨ifdef name, rfl, more.map String.toList, hwords hws⟩
  · next name more hws => exact .inl ⟨ifndef name, rfl, more.map String.toList, hwords hws⟩
  · next hws => exact .inl ⟨.otherwise, rfl, hwords hws⟩
  · next hws => exact .inl ⟨.endif, rfl, hwords hws⟩
  · next hifdef hifndef helse hendif =>
    refine .inr ⟨rfl, fun d hd => ?_⟩
    cases d with
    | ifdef name =>
      obtain ⟨more, hws⟩ := hd
      exact hifdef name (more.map String.ofList) (by simp [hws])
    | ifndef name =>
      obtain ⟨more, hws⟩ := hd
      exact hifndef name (more.map String.ofList) (by simp [hws])
    | otherwise => exact helse (by rw [show words rest = _ from hd]; rfl)
    | endif => exact hendif (by rw [show words rest = _ from hd]; rfl)
    | unknown text => exact hd

theorem ofLine?_eq_some_iff {l : List Char} {d : Directive} (hd : ∀ text, d ≠ unknown text) :
    ofLine? l = some d ↔ d.Written l := by
  constructor
  · intro hl
    by_cases hsign : ∃ rest, HasSign l rest
    · obtain ⟨rest, hrest⟩ := hsign
      rcases ofLine?_of_sign hrest with ⟨e, he, hsaid⟩ | ⟨he, -⟩
      · obtain rfl : e = d := Option.some.inj (he ▸ hl)
        exact ⟨rest, words rest, hrest, spaced_words rest, hsaid⟩
      · exact absurd (Option.some.inj (he ▸ hl)).symm (hd _)
    · rw [ofLine?_eq_none_iff.2 (not_exists.1 hsign)] at hl
      cases hl
  · rintro ⟨rest, ws, hrest, hws, hsaid⟩
    obtain rfl := words_eq_iff.2 hws
    rcases ofLine?_of_sign hrest with ⟨e, he, hsaid'⟩ | ⟨-, hnone⟩
    · rw [he, hsaid'.unique hsaid]
    · exact absurd hsaid (hnone d)

theorem ofLine?_eq_unknown_iff {l : List Char} {text : String} :
    ofLine? l = some (unknown text) ↔ Unsupported l text.toList := by
  constructor
  · intro hl
    by_cases hsign : ∃ rest, HasSign l rest
    · obtain ⟨rest, hrest⟩ := hsign
      rcases ofLine?_of_sign hrest with ⟨e, he, hsaid⟩ | ⟨he, hnone⟩
      · obtain rfl : e = unknown text := Option.some.inj (he ▸ hl)
        exact hsaid.elim
      · obtain rfl : String.ofList ('#' :: rest) = text := by simpa [he] using hl
        refine ⟨rest, hrest, by rw [String.toList_ofList], fun d ws hws => ?_⟩
        exact words_eq_iff.2 hws ▸ hnone d
    · rw [ofLine?_eq_none_iff.2 (not_exists.1 hsign)] at hl
      cases hl
  · rintro ⟨rest, hrest, htext, hnone⟩
    rcases ofLine?_of_sign hrest with ⟨e, -, hsaid⟩ | ⟨he, -⟩
    · exact absurd hsaid (hnone e _ (spaced_words rest))
    · rw [he, ← htext, String.ofList_toList]

end Directive

/-! ## Passages -/

/-- What a branch asks of a name: that it is defined, or that it is not. -/
structure Guard where
  name : String
  wanted : Bool
  deriving DecidableEq

namespace Guard

def holds (defined : List String) (g : Guard) : Bool := defined.contains g.name == g.wanted

/-- The other branch of the same conditional. -/
def negated (g : Guard) : Guard := { g with wanted := !g.wanted }

def directive (g : Guard) : Directive := if g.wanted then .ifdef g.name else .ifndef g.name

end Guard

/-- Lines with their conditionals. -/
inductive Passage where
  | nil
  | line (text : List Char) (rest : Passage)
  /-- A conditional of one branch, with the lines that open and close it. -/
  | conditional (guard : Guard) (opening : List Char) (body : Passage) (closing : List Char) (rest : Passage)
  /-- A conditional of two branches. -/
  | choice (guard : Guard) (opening : List Char) (body : Passage) (middle : List Char) (alternative : Passage)
      (closing : List Char) (rest : Passage)

namespace Passage

/-- Whether each line is what it stands for. -/
def Proper : Passage → Prop
  | nil => True
  | line text rest => (∀ after, ¬ HasSign text after) ∧ rest.Proper
  | conditional guard opening body closing rest =>
    guard.directive.Written opening ∧ body.Proper ∧ Directive.endif.Written closing ∧ rest.Proper
  | choice guard opening body middle alternative closing rest =>
    guard.directive.Written opening ∧ body.Proper ∧ Directive.otherwise.Written middle ∧ alternative.Proper ∧
      Directive.endif.Written closing ∧ rest.Proper

def lines : Passage → List (List Char)
  | nil => []
  | line text rest => text :: rest.lines
  | conditional _ opening body closing rest => opening :: (body.lines ++ closing :: rest.lines)
  | choice _ opening body middle alternative closing rest =>
    opening :: (body.lines ++ middle :: (alternative.lines ++ closing :: rest.lines))

/-- The lines with the branches that each is in, innermost first; a directive has none. -/
def enclosed (around : List Guard) : Passage → List (List Char × Option (List Guard))
  | nil => []
  | line text rest => (text, some around) :: rest.enclosed around
  | conditional guard opening body closing rest =>
    (opening, none) :: (body.enclosed (guard :: around) ++ (closing, none) :: rest.enclosed around)
  | choice guard opening body middle alternative closing rest =>
    (opening, none) :: (body.enclosed (guard :: around) ++ (middle, none) ::
      (alternative.enclosed (guard.negated :: around) ++ (closing, none) :: rest.enclosed around))

/-- Each line of a passage stands once among them, in order. -/
theorem map_fst_enclosed (around : List Guard) (p : Passage) : (p.enclosed around).map Prod.fst = p.lines := by
  induction p generalizing around with
  | nil => rfl
  | line text rest ih => simp [enclosed, lines, ih]
  | conditional guard opening body closing rest ihBody ihRest => simp [enclosed, lines, ihBody, ihRest]
  | choice guard opening body middle alternative closing rest ihBody ihAlternative ihRest =>
    simp [enclosed, lines, ihBody, ihAlternative, ihRest]

end Passage

/-- What is left of a line: itself, if it is no directive and all branches around it are selected, or nothing. -/
def shown (defined : List String) (m : List Char × Option (List Guard)) : List Char :=
  match m.2 with
  | some around => if around.all (Guard.holds defined) then m.1 else []
  | none => []

/-- Lines whose conditionals are well nested. -/
def WellNested (ls : List (List Char)) : Prop := ∃ p : Passage, p.Proper ∧ p.lines = ls

/-- Lines that begin lines whose conditionals are well nested. -/
def Viable (ls : List (List Char)) : Prop := ∃ more, WellNested (ls ++ more)

/-! ## Evaluating a passage -/

variable {defined : List String}

theorem ofLine?_guard {g : Guard} {l : List Char} (h : g.directive.Written l) :
    Directive.ofLine? l = some g.directive :=
  (Directive.ofLine?_eq_some_iff fun text => by unfold Guard.directive; split <;> nofun).2 h

theorem ofLine?_otherwise {l : List Char} (h : Directive.otherwise.Written l) : Directive.ofLine? l = some .otherwise :=
  (Directive.ofLine?_eq_some_iff (by rintro _ ⟨⟩)).2 h

theorem ofLine?_endif {l : List Char} (h : Directive.endif.Written l) : Directive.ofLine? l = some .endif :=
  (Directive.ofLine?_eq_some_iff (by rintro _ ⟨⟩)).2 h

theorem apply_guard (defined : List String) (g : Guard) (line : Nat) (stack : List Branch) :
    g.directive.apply defined line stack = .ok (⟨g.holds defined, isActive stack, false⟩ :: stack) := by
  obtain ⟨name, wanted⟩ := g
  cases wanted <;> simp [Guard.directive, Guard.holds, Directive.apply]

theorem holds_negated (g : Guard) : g.negated.holds defined = !g.holds defined := by
  obtain ⟨name, wanted⟩ := g
  cases wanted <;> simp [Guard.negated, Guard.holds]

theorem isActive_cons (b : Branch) (stack : List Branch) : isActive (b :: stack) = (b.selected && b.enclosing) := rfl

theorem selectLines_line {l : List Char} (h : Directive.ofLine? l = none) (line : Nat) (stack : List Branch)
    (ls : List (List Char)) :
    selectLines defined line stack (l :: ls) =
      (selectLines defined (line + 1) stack ls).map ([if isActive stack then l else []] ++ ·) := by
  rw [selectLines, h]
  rfl

theorem selectLines_directive {l : List Char} {d : Directive} {line : Nat} {stack after : List Branch}
    (h : Directive.ofLine? l = some d) (ha : d.apply defined line stack = .ok after) (ls : List (List Char)) :
    selectLines defined line stack (l :: ls) = (selectLines defined (line + 1) after ls).map ([[]] ++ ·) := by
  rw [selectLines, h]
  simp only [ha]
  rfl

theorem map_map_append {α β : Type} (xs ys : List α) (r : Except β (List α)) :
    (r.map (ys ++ ·)).map (xs ++ ·) = r.map ((xs ++ ys) ++ ·) := by
  cases r <;> simp [Except.map]

/-- The lines of a tree leave the open conditionals as they were. -/
theorem selectLines_passage {p : Passage} (hp : p.Proper) {around : List Guard} {stack : List Branch}
    (hs : isActive stack = around.all (Guard.holds defined)) (line : Nat) (ls : List (List Char)) :
    selectLines defined line stack (p.lines ++ ls) =
      (selectLines defined (line + p.lines.length) stack ls).map ((p.enclosed around).map (shown defined) ++ ·) := by
  induction p generalizing around stack line ls with
  | nil =>
    show selectLines defined line stack ls = (selectLines defined line stack ls).map ([] ++ ·)
    cases selectLines defined line stack ls <;> rfl
  | line text rest ih =>
    obtain ⟨htext, hrest⟩ := hp
    rw [Passage.lines, List.cons_append, selectLines_line (Directive.ofLine?_eq_none_iff.2 htext), ih hrest hs,
      map_map_append, List.length_cons, Nat.add_right_comm, Nat.add_assoc line, hs]
    rfl
  | conditional guard opening body closing rest ihBody ihRest =>
    obtain ⟨hopening, hbody, hclosing, hrest⟩ := hp
    let inside : List Branch := ⟨guard.holds defined, isActive stack, false⟩ :: stack
    have hinside : isActive inside = (guard :: around).all (Guard.holds defined) := by
      rw [isActive_cons, List.all_cons, hs]
    have hopen := selectLines_directive (ofLine?_guard hopening) (apply_guard defined guard line stack)
    have hclose (n : Nat) (ls : List (List Char)) : selectLines defined n inside (closing :: ls) =
        (selectLines defined (n + 1) stack ls).map ([[]] ++ ·) := selectLines_directive (ofLine?_endif hclosing) rfl ls
    have hlength : line + 1 + body.lines.length + 1 + rest.lines.length =
        line + (opening :: (body.lines ++ closing :: rest.lines)).length := by
      simp only [List.length_cons, List.length_append]
      omega
    rw [Passage.lines, List.cons_append, List.append_assoc, List.cons_append, hopen, ihBody hbody hinside, hclose,
      ihRest hrest hs, hlength]
    simp only [map_map_append, Passage.enclosed]
    simp [shown]
  | choice guard opening body middle alternative closing rest ihBody ihAlternative ihRest =>
    obtain ⟨hopening, hbody, hmiddle, halternative, hclosing, hrest⟩ := hp
    let inside : List Branch := ⟨guard.holds defined, isActive stack, false⟩ :: stack
    let other : List Branch := ⟨!guard.holds defined, isActive stack, true⟩ :: stack
    have hinside : isActive inside = (guard :: around).all (Guard.holds defined) := by
      rw [isActive_cons, List.all_cons, hs]
    have hother : isActive other = (guard.negated :: around).all (Guard.holds defined) := by
      rw [isActive_cons, List.all_cons, holds_negated, hs]
    have hopen := selectLines_directive (ofLine?_guard hopening) (apply_guard defined guard line stack)
    have helse (n : Nat) (ls : List (List Char)) : selectLines defined n inside (middle :: ls) =
        (selectLines defined (n + 1) other ls).map ([[]] ++ ·) := selectLines_directive (ofLine?_otherwise hmiddle) rfl ls
    have hclose (n : Nat) (ls : List (List Char)) : selectLines defined n other (closing :: ls) =
        (selectLines defined (n + 1) stack ls).map ([[]] ++ ·) := selectLines_directive (ofLine?_endif hclosing) rfl ls
    have hlength : line + 1 + body.lines.length + 1 + alternative.lines.length + 1 + rest.lines.length =
        line + (opening :: (body.lines ++ middle :: (alternative.lines ++ closing :: rest.lines))).length := by
      simp only [List.length_cons, List.length_append]
      omega
    rw [Passage.lines, List.cons_append, List.append_assoc, List.cons_append, List.append_assoc, List.cons_append, hopen,
      ihBody hbody hinside, helse, ihAlternative halternative hother, hclose, ihRest hrest hs, hlength]
    simp only [map_map_append, Passage.enclosed]
    simp [shown]

/-- A text whose conditionals are well nested is evaluated. -/
theorem selectLines_of_passage {p : Passage} (hp : p.Proper) :
    selectLines defined 1 [] p.lines = .ok ((p.enclosed []).map (shown defined)) := by
  have h := selectLines_passage hp (show isActive [] = [].all (Guard.holds defined) from rfl) 1 []
  rw [List.append_nil] at h
  rw [h]
  simp [selectLines, Except.map]

/-! ## Open conditionals -/

/-- The open conditionals after lines numbered from `line`. -/
def branchesAfter (defined : List String) :
    Nat → List Branch → List (List Char) → Except ConditionalFault (List Branch)
  | _, stack, [] => .ok stack
  | line, stack, l :: ls =>
    match Directive.ofLine? l with
    | none => branchesAfter defined (line + 1) stack ls
    | some d => do
      let stack ← d.apply defined line stack
      branchesAfter defined (line + 1) stack ls

theorem branchesAfter_line {l : List Char} (h : Directive.ofLine? l = none) (line : Nat) (stack : List Branch)
    (ls : List (List Char)) : branchesAfter defined line stack (l :: ls) = branchesAfter defined (line + 1) stack ls := by
  rw [branchesAfter, h]

theorem branchesAfter_directive {l : List Char} {d : Directive} (h : Directive.ofLine? l = some d) (line : Nat)
    (stack : List Branch) (ls : List (List Char)) :
    branchesAfter defined line stack (l :: ls) =
      d.apply defined line stack >>= fun after => branchesAfter defined (line + 1) after ls := by
  rw [branchesAfter, h]

theorem branchesAfter_append (line : Nat) (stack : List Branch) (pre post : List (List Char)) :
    branchesAfter defined line stack (pre ++ post) =
      branchesAfter defined line stack pre >>= fun after => branchesAfter defined (line + pre.length) after post := by
  induction pre generalizing line stack with
  | nil => rfl
  | cons l pre ih =>
    have hlength : line + (l :: pre).length = line + 1 + pre.length := by
      rw [List.length_cons]
      omega
    rw [List.cons_append, hlength]
    cases hl : Directive.ofLine? l with
    | none => rw [branchesAfter_line hl, branchesAfter_line hl, ih]
    | some d =>
      rw [branchesAfter_directive hl, branchesAfter_directive hl]
      cases d.apply defined line stack with
      | error f => rfl
      | ok after => exact ih (line + 1) after

/-- What is open at the end of a text is an error. -/
def ended : List Branch → Except ConditionalFault Unit
  | [] => .ok ()
  | _ :: rest => .error (.unterminated (rest.length + 1))

/-- Evaluation fails because of a directive or of what is left open, and for no other reason. -/
theorem selectLines_fault (defined : List String) (line : Nat) (stack : List Branch) (ls : List (List Char)) :
    (selectLines defined line stack ls).map (fun _ => ()) = branchesAfter defined line stack ls >>= ended := by
  induction ls generalizing line stack with
  | nil => cases stack <;> rfl
  | cons l ls ih =>
    cases hl : Directive.ofLine? l with
    | none =>
      rw [selectLines_line hl, branchesAfter_line hl, ← ih]
      cases selectLines defined (line + 1) stack ls <;> rfl
    | some d =>
      rw [branchesAfter_directive hl]
      cases ha : d.apply defined line stack with
      | error f =>
        rw [selectLines, hl]
        simp only [ha]
        rfl
      | ok after =>
        rw [selectLines_directive hl ha]
        refine Eq.trans ?_ (ih (line + 1) after)
        cases selectLines defined (line + 1) after ls <;> rfl

theorem selectLines_eq_error_iff {line : Nat} {stack : List Branch} {ls : List (List Char)} {f : ConditionalFault} :
    selectLines defined line stack ls = .error f ↔ (branchesAfter defined line stack ls >>= ended) = .error f := by
  rw [← selectLines_fault defined]
  cases selectLines defined line stack ls <;> simp [Except.map]

theorem branchesAfter_of_ok {line : Nat} {stack : List Branch} {ls out : List (List Char)}
    (h : selectLines defined line stack ls = .ok out) : branchesAfter defined line stack ls = .ok [] := by
  have hfault := selectLines_fault defined line stack ls
  rw [h] at hfault
  cases hb : branchesAfter defined line stack ls with
  | error f => rw [hb] at hfault; cases hfault
  | ok after =>
    cases after with
    | nil => rfl
    | cons b rest => rw [hb] at hfault; cases hfault

/-! ## Trees and open conditionals -/

/-- Lines that close the open conditionals, innermost first, and after them are those of a tree. -/
def Closes : List Branch → List (List Char) → Prop
  | [], ls => WellNested ls
  | b :: stack, ls => ∃ (body : Passage) (closing : List Char) (rest : List (List Char)),
    body.Proper ∧ Directive.endif.Written closing ∧ Closes stack rest ∧
      (ls = body.lines ++ closing :: rest ∨ b.elseSeen = false ∧ ∃ (first : Passage) (middle : List Char),
        first.Proper ∧ Directive.otherwise.Written middle ∧
          ls = first.lines ++ middle :: (body.lines ++ closing :: rest))

/-- What can be put before every tree can be put before lines that close conditionals. -/
theorem Closes.prepend (before : List (List Char)) (grow : Passage → Passage)
    (hgrow : ∀ p : Passage, p.Proper → (grow p).Proper ∧ (grow p).lines = before ++ p.lines) {stack : List Branch}
    {ls : List (List Char)} (h : Closes stack ls) : Closes stack (before ++ ls) := by
  cases stack with
  | nil =>
    obtain ⟨p, hp, rfl⟩ := h
    exact ⟨grow p, hgrow p hp⟩
  | cons b stack =>
    obtain ⟨body, closing, rest, hbody, hclosing, hrest, rfl | ⟨hseen, first, middle, hfirst, hmiddle, rfl⟩⟩ := h
    · obtain ⟨hproper, hlines⟩ := hgrow body hbody
      exact ⟨grow body, closing, rest, hproper, hclosing, hrest, .inl (by rw [hlines, List.append_assoc])⟩
    · obtain ⟨hproper, hlines⟩ := hgrow first hfirst
      refine ⟨body, closing, rest, hbody, hclosing, hrest, .inr ⟨hseen, grow first, middle, hproper, hmiddle, ?_⟩⟩
      rw [hlines, List.append_assoc]

/-- A line that opens a conditional, and lines that close it and the others. -/
theorem Closes.opening {g : Guard} {l : List Char} (hl : g.directive.Written l) {b : Branch} {stack : List Branch}
    {ls : List (List Char)} (h : Closes (b :: stack) ls) : Closes stack (l :: ls) := by
  obtain ⟨body, closing, rest, hbody, hclosing, hrest, rfl | ⟨-, first, middle, hfirst, hmiddle, rfl⟩⟩ := h
  · have h := hrest.prepend (l :: (body.lines ++ [closing])) (.conditional g l body closing)
      fun p hp => ⟨⟨hl, hbody, hclosing, hp⟩, by simp [Passage.lines]⟩
    simpa using h
  · have h := hrest.prepend (l :: (first.lines ++ middle :: (body.lines ++ [closing])))
      (.choice g l first middle body closing)
      fun p hp => ⟨⟨hl, hfirst, hmiddle, hbody, hclosing, hp⟩, by simp [Passage.lines]⟩
    simpa using h

/-- The line between the branches of a conditional, and lines that close it without another one. -/
theorem Closes.middle {l : List Char} (hl : Directive.otherwise.Written l) {b c : Branch} (hb : b.elseSeen = false)
    (hc : c.elseSeen = true) {stack : List Branch} {ls : List (List Char)} (h : Closes (c :: stack) ls) :
    Closes (b :: stack) (l :: ls) := by
  obtain ⟨body, closing, rest, hbody, hclosing, hrest, rfl | ⟨hseen, -⟩⟩ := h
  · exact ⟨body, closing, rest, hbody, hclosing, hrest, .inr ⟨hb, .nil, l, trivial, hl, rfl⟩⟩
  · rw [hc] at hseen
    cases hseen

/-- Lines after which nothing is open close the conditionals that were open before them. -/
theorem closes_of_branchesAfter {line : Nat} {stack : List Branch} {ls : List (List Char)}
    (h : branchesAfter defined line stack ls = .ok []) : Closes stack ls := by
  induction ls generalizing line stack with
  | nil =>
    cases h
    exact ⟨.nil, trivial, rfl⟩
  | cons l ls ih =>
    cases hl : Directive.ofLine? l with
    | none =>
      rw [branchesAfter_line hl] at h
      have hplain := Directive.ofLine?_eq_none_iff.1 hl
      exact (ih h).prepend [l] (.line l) fun p hp => ⟨⟨hplain, hp⟩, rfl⟩
    | some d =>
      rw [branchesAfter_directive hl] at h
      cases d with
      | unknown text => cases h
      | ifdef name =>
        exact (ih h).opening (g := ⟨name, true⟩) ((Directive.ofLine?_eq_some_iff (by rintro _ ⟨⟩)).1 hl)
      | ifndef name =>
        exact (ih h).opening (g := ⟨name, false⟩) ((Directive.ofLine?_eq_some_iff (by rintro _ ⟨⟩)).1 hl)
      | otherwise =>
        have hwritten := (Directive.ofLine?_eq_some_iff (by rintro _ ⟨⟩)).1 hl
        cases stack with
        | nil => cases h
        | cons b stack =>
          cases hseen : b.elseSeen with
          | true =>
            simp only [Directive.apply, hseen] at h
            cases h
          | false =>
            simp only [Directive.apply, hseen] at h
            exact (ih h).middle hwritten hseen rfl
      | endif =>
        have hwritten := (Directive.ofLine?_eq_some_iff (by rintro _ ⟨⟩)).1 hl
        cases stack with
        | nil => cases h
        | cons b stack => exact ⟨.nil, l, ls, trivial, hwritten, ih h, .inl rfl⟩

/-- The conditionals of a text are well nested where evaluation leaves nothing open. -/
theorem wellNested_iff (defined : List String) {ls : List (List Char)} :
    WellNested ls ↔ branchesAfter defined 1 [] ls = .ok [] := by
  constructor
  · rintro ⟨p, hp, rfl⟩
    exact branchesAfter_of_ok (selectLines_of_passage hp)
  · exact closes_of_branchesAfter

/-- A line that closes a conditional. -/
def endifLine : List Char := "#endif".toList

theorem written_endifLine : Directive.endif.Written endifLine :=
  (Directive.ofLine?_eq_some_iff (by rintro _ ⟨⟩)).1 (by decide)

theorem branchesAfter_endifs (line : Nat) (stack : List Branch) (count : Nat) :
    branchesAfter defined line stack (List.replicate count endifLine) = .ok [] ↔ count = stack.length := by
  induction count generalizing line stack with
  | zero => cases stack <;> simp [branchesAfter]
  | succ count ih =>
    rw [List.replicate_succ, branchesAfter_directive (ofLine?_endif written_endifLine)]
    cases stack with
    | nil => simp [Directive.apply, bind, Except.bind]
    | cons b stack => exact (ih (line + 1) stack).trans (by simp)

/-- Lines begin those of a tree where evaluation finds no error in them. -/
theorem viable_iff (defined : List String) {ls : List (List Char)} :
    Viable ls ↔ ∃ stack, branchesAfter defined 1 [] ls = .ok stack := by
  constructor
  · rintro ⟨more, hmore⟩
    have h := (wellNested_iff defined).1 hmore
    rw [branchesAfter_append] at h
    cases hb : branchesAfter defined 1 [] ls with
    | error f => rw [hb] at h; cases h
    | ok stack => exact ⟨stack, rfl⟩
  · rintro ⟨stack, hstack⟩
    refine ⟨List.replicate stack.length endifLine, (wellNested_iff defined).2 ?_⟩
    rw [branchesAfter_append, hstack]
    exact (branchesAfter_endifs _ stack _).2 rfl

/-- How many conditionals are open after lines: so many lines more make a tree of them. -/
theorem wellNested_endifs_iff {ls : List (List Char)} {stack : List Branch}
    (h : branchesAfter defined 1 [] ls = .ok stack) {count : Nat} :
    WellNested (ls ++ List.replicate count endifLine) ↔ count = stack.length := by
  rw [wellNested_iff defined, branchesAfter_append, h]
  exact branchesAfter_endifs _ stack count

/-! ## Texts -/

/-- What the evaluation of lines gives: what is left of the lines of a tree; or an error about the first line after which
no tree is possible; or about the conditionals that are open at the end. -/
inductive Evaluates (defined : List String) (ls : List (List Char)) : Except String (List (List Char)) → Prop where
  | tree {p : Passage} : p.Proper → p.lines = ls → Evaluates defined ls (.ok ((p.enclosed []).map (shown defined)))
  | strayElse {pre post : List (List Char)} {l : List Char} :
      ls = pre ++ l :: post → Viable pre → ¬ Viable (pre ++ [l]) → Directive.otherwise.Written l →
        Evaluates defined ls (.error s!"line {pre.length + 1}: unexpected #else")
  | strayEndif {pre post : List (List Char)} {l : List Char} :
      ls = pre ++ l :: post → Viable pre → ¬ Viable (pre ++ [l]) → Directive.endif.Written l →
        Evaluates defined ls (.error s!"line {pre.length + 1}: unexpected #endif")
  | unsupported {pre post : List (List Char)} {l text : List Char} :
      ls = pre ++ l :: post → Viable pre → Directive.Unsupported l text →
        Evaluates defined ls (.error s!"line {pre.length + 1}: unsupported directive `{String.ofList text}`")
  | leftOpen {count : Nat} :
      0 < count → WellNested (ls ++ List.replicate count endifLine) →
        Evaluates defined ls (.error s!"{count} unterminated #ifdef block(s)")

/-- The first line with an error. -/
theorem branchesAfter_error {line : Nat} {stack : List Branch} {ls : List (List Char)} {f : ConditionalFault}
    (h : branchesAfter defined line stack ls = .error f) :
    ∃ (pre post : List (List Char)) (l : List Char) (after : List Branch) (d : Directive), ls = pre ++ l :: post ∧
      branchesAfter defined line stack pre = .ok after ∧ Directive.ofLine? l = some d ∧
        d.apply defined (line + pre.length) after = .error f := by
  induction ls generalizing line stack with
  | nil => cases h
  | cons l ls ih =>
    cases hl : Directive.ofLine? l with
    | none =>
      rw [branchesAfter_line hl] at h
      obtain ⟨pre, post, k, after, d, rfl, hpre, hk, hd⟩ := ih h
      refine ⟨l :: pre, post, k, after, d, rfl, by rw [branchesAfter_line hl, hpre], hk, ?_⟩
      rwa [List.length_cons, Nat.add_comm pre.length, ← Nat.add_assoc]
    | some d =>
      rw [branchesAfter_directive hl] at h
      cases ha : d.apply defined line stack with
      | error e =>
        rw [ha] at h
        cases h
        exact ⟨[], ls, l, stack, d, rfl, rfl, hl, ha⟩
      | ok after =>
        rw [ha] at h
        obtain ⟨pre, post, k, after', e, rfl, hpre, hk, he⟩ := ih h
        refine ⟨l :: pre, post, k, after', e, rfl, by rw [branchesAfter_directive hl, ha]; exact hpre, hk, ?_⟩
        rwa [List.length_cons, Nat.add_comm pre.length, ← Nat.add_assoc]

theorem apply_error {d : Directive} {line : Nat} {stack : List Branch} {f : ConditionalFault}
    (h : d.apply defined line stack = .error f) :
    (d = .otherwise ∧ f = .unexpectedElse line) ∨ (d = .endif ∧ f = .unexpectedEndif line) ∨
      ∃ text, d = .unknown text ∧ f = .unsupported line text := by
  cases d with
  | ifdef name | ifndef name => cases h
  | unknown text =>
    cases h
    exact .inr (.inr ⟨text, rfl, rfl⟩)
  | endif =>
    cases stack with
    | nil =>
      cases h
      exact .inr (.inl ⟨rfl, rfl⟩)
    | cons b stack => cases h
  | otherwise =>
    refine .inl ⟨rfl, ?_⟩
    cases stack with
    | nil =>
      cases h
      rfl
    | cons b stack =>
      rw [Directive.apply] at h
      split at h
      · cases h
        rfl
      · cases h

/-- Lines that begin those of a tree, and a line after which they do not. -/
theorem apply_error_of_not_viable (defined : List String) {pre : List (List Char)} {l : List Char} {d : Directive}
    (hl : Directive.ofLine? l = some d) (hpre : Viable pre) (hnot : ¬ Viable (pre ++ [l])) :
    ∃ after f, branchesAfter defined 1 [] pre = .ok after ∧ d.apply defined (1 + pre.length) after = .error f := by
  obtain ⟨after, hafter⟩ := (viable_iff defined).1 hpre
  cases ha : d.apply defined (1 + pre.length) after with
  | error f => exact ⟨after, f, hafter, ha⟩
  | ok next =>
    refine absurd ((viable_iff defined).2 ⟨next, ?_⟩) hnot
    rw [branchesAfter_append, hafter]
    show branchesAfter defined (1 + pre.length) after [l] = .ok next
    rw [branchesAfter_directive hl, ha]
    rfl

theorem selectLines_fault_at {pre post : List (List Char)} {l : List Char} {after : List Branch} {d : Directive}
    {f : ConditionalFault} (hpre : branchesAfter defined 1 [] pre = .ok after) (hl : Directive.ofLine? l = some d)
    (hf : d.apply defined (1 + pre.length) after = .error f) :
    selectLines defined 1 [] (pre ++ l :: post) = .error f := by
  rw [selectLines_eq_error_iff, branchesAfter_append, hpre]
  show (branchesAfter defined (1 + pre.length) after (l :: post) >>= ended) = .error f
  rw [branchesAfter_directive hl, hf]
  rfl

theorem not_viable_of_apply {pre : List (List Char)} {l : List Char} {after : List Branch} {d : Directive}
    {f : ConditionalFault} (hpre : branchesAfter defined 1 [] pre = .ok after) (hl : Directive.ofLine? l = some d)
    (hf : d.apply defined (1 + pre.length) after = .error f) : ¬ Viable (pre ++ [l]) := by
  rw [viable_iff defined, branchesAfter_append, hpre]
  rintro ⟨stack, hstack⟩
  have h : branchesAfter defined (1 + pre.length) after [l] = .ok stack := hstack
  rw [branchesAfter_directive hl, hf] at h
  cases h

/-- Evaluating lines gives what their tree, or the first error in them, says. -/
theorem evaluates_selectLines (ls : List (List Char)) :
    Evaluates defined ls ((selectLines defined 1 [] ls).mapError ConditionalFault.message) := by
  cases hs : selectLines defined 1 [] ls with
  | ok out =>
    obtain ⟨p, hp, rfl⟩ := (wellNested_iff defined).2 (branchesAfter_of_ok hs)
    rw [selectLines_of_passage hp] at hs
    cases hs
    exact .tree hp rfl
  | error f =>
    rw [selectLines_eq_error_iff] at hs
    cases hb : branchesAfter defined 1 [] ls with
    | ok stack =>
      rw [hb] at hs
      cases stack with
      | nil => cases hs
      | cons b rest =>
        cases hs
        exact .leftOpen (Nat.succ_pos rest.length) ((wellNested_endifs_iff hb).2 rfl)
    | error e =>
      rw [hb] at hs
      cases hs
      obtain ⟨pre, post, l, after, d, rfl, hpre, hl, hd⟩ := branchesAfter_error hb
      have hviable : Viable pre := (viable_iff defined).2 ⟨after, hpre⟩
      have hnot := not_viable_of_apply hpre hl hd
      rw [Nat.add_comm] at hd
      obtain ⟨rfl, rfl⟩ | ⟨rfl, rfl⟩ | ⟨text, rfl, rfl⟩ := apply_error hd
      · exact .strayElse rfl hviable hnot ((Directive.ofLine?_eq_some_iff (by rintro _ ⟨⟩)).1 hl)
      · exact .strayEndif rfl hviable hnot ((Directive.ofLine?_eq_some_iff (by rintro _ ⟨⟩)).1 hl)
      · have h : Evaluates defined (pre ++ l :: post) _ :=
          .unsupported rfl hviable (Directive.ofLine?_eq_unknown_iff.1 hl)
        rwa [String.ofList_toList] at h

theorem Evaluates.eq_selectLines {ls : List (List Char)} {out : Except String (List (List Char))}
    (h : Evaluates defined ls out) : (selectLines defined 1 [] ls).mapError ConditionalFault.message = out := by
  cases h with
  | tree hp hls =>
    subst hls
    rw [selectLines_of_passage hp]
    rfl
  | strayElse hls hviable hnot hl =>
    subst hls
    have hl := ofLine?_otherwise hl
    obtain ⟨after, f, hpre, hf⟩ := apply_error_of_not_viable defined hl hviable hnot
    rw [selectLines_fault_at hpre hl hf]
    obtain ⟨-, rfl⟩ | ⟨hd, -⟩ | ⟨text, hd, -⟩ := apply_error hf
    · rw [Nat.add_comm]
      rfl
    · cases hd
    · cases hd
  | strayEndif hls hviable hnot hl =>
    subst hls
    have hl := ofLine?_endif hl
    obtain ⟨after, f, hpre, hf⟩ := apply_error_of_not_viable defined hl hviable hnot
    rw [selectLines_fault_at hpre hl hf]
    obtain ⟨hd, -⟩ | ⟨-, rfl⟩ | ⟨text, hd, -⟩ := apply_error hf
    · cases hd
    · rw [Nat.add_comm]
      rfl
    · cases hd
  | @unsupported pre post l text hls hviable hl =>
    subst hls
    obtain ⟨after, hpre⟩ := (viable_iff defined).1 hviable
    have hl : Directive.ofLine? l = some (.unknown (String.ofList text)) :=
      Directive.ofLine?_eq_unknown_iff.2 (by rwa [String.toList_ofList])
    rw [selectLines_fault_at hpre hl rfl, Nat.add_comm]
    rfl
  | @leftOpen count hcount hnested =>
    obtain ⟨stack, hstack⟩ := (viable_iff defined).1 ⟨_, hnested⟩
    obtain rfl := (wellNested_endifs_iff hstack).1 hnested
    cases stack with
    | nil => cases hcount
    | cons b rest =>
      have hs : selectLines defined 1 [] ls = .error (.unterminated (rest.length + 1)) := by
        rw [selectLines_eq_error_iff, hstack]
        rfl
      rw [hs]
      rfl

/-- For every text and all defined names, evaluation gives what the tree of the lines says, with a line feed after each
line; or, if the lines are those of no tree, the first line after which they cannot be, or how many conditionals are open
at the end. -/
theorem selectText_eq_iff (defined : List String) (source : List Char) (r : Except String (List Char)) :
    (selectText defined source).mapError ConditionalFault.message = r ↔
      ∃ out, Evaluates defined (Text.lines source) out ∧ r = out.map fun ls => ls.flatMap (· ++ ['\n']) := by
  have htext : (selectText defined source).mapError ConditionalFault.message =
      ((selectLines defined 1 [] (Text.lines source)).mapError ConditionalFault.message).map
        fun ls => ls.flatMap (· ++ ['\n']) := by
    unfold selectText
    cases selectLines defined 1 [] (Text.lines source) <;> rfl
  rw [htext]
  constructor
  · rintro rfl
    exact ⟨_, evaluates_selectLines _, rfl⟩
  · rintro ⟨out, hout, rfl⟩
    rw [hout.eq_selectLines]

end ScreenFusion.Wgsl
