import Mathlib.Data.List.TakeWhile
import ScreenFusion.Proofs.Wgsl.Comment
import ScreenFusion.Wgsl.Syntax

/-!
# ScreenFusion.Proofs.Wgsl.LineComment — texts without their line comments

A line comment begins outside of block comments and ends before the first character that ends a line.  What is left of a
text can be found line by line, if one knows how many block comments are open where a line begins.

* `withoutLineComments`: a text without its line comments.
* `sweep`: the same from a place in the text on, with the number of block comments that are open at its end.
* `sweep_lineFeed`: a text can be taken apart at a line feed.
* `sweep_line_iff`: where a line is a comment and nothing else.
* `sweep_block_iff`: where words in a block comment leave a line as it is.
-/

namespace ScreenFusion.Wgsl

/-- What is left of a segment without line comments. -/
def Segment.kept : Segment → List Char
  | line _ => []
  | s => s.text

/-- A text without its line comments; the ends of their lines stay. -/
def withoutLineComments (cs : List Char) : List Char := (segments cs).flatMap Segment.kept

/-! ## Going through a text -/

/-- What is left of a text without line comments, and how many block comments are open after it; `depth` are open before
it. -/
def sweep : Nat → List Char → List Char × Nat
  | depth, [] => ([], depth)
  | 0, '/' :: '/' :: cs => sweep 0 (cs.dropWhile inLine)
  | depth + 1, '*' :: '/' :: cs => ('*' :: '/' :: (sweep depth cs).1, (sweep depth cs).2)
  | depth, '/' :: '*' :: cs => ('/' :: '*' :: (sweep (depth + 1) cs).1, (sweep (depth + 1) cs).2)
  | depth, c :: cs => (c :: (sweep depth cs).1, (sweep depth cs).2)
termination_by _ cs => cs.length
decreasing_by
  · have hdrop := (List.dropWhile_sublist inLine (l := cs)).length_le
    simp only [List.length_cons]
    omega
  all_goals
    simp only [List.length_cons]
    omega

/-- A character begins no mark of a comment with the text after it. -/
structure Markless (depth : Nat) (c : Char) (cs : List Char) : Prop where
  line : depth = 0 → c = '/' → cs.head? ≠ some '/'
  closing : depth ≠ 0 → c = '*' → cs.head? ≠ some '/'
  opening : c = '/' → cs.head? ≠ some '*'

theorem Markless.of_ne {depth : Nat} {c : Char} (hslash : c ≠ '/') (hstar : c ≠ '*') (cs : List Char) :
    Markless depth c cs := ⟨fun _ h => absurd h hslash, fun _ h => absurd h hstar, fun h => absurd h hslash⟩

theorem sweep_markless {depth : Nat} {c : Char} {cs : List Char} (h : Markless depth c cs) :
    sweep depth (c :: cs) = (c :: (sweep depth cs).1, (sweep depth cs).2) := by
  refine sweep.eq_5 depth c cs (fun more hc hcs => ?_) (fun more hd hc hcs => ?_) fun d more hd hc hcs => ?_
  · exact h.opening hc (by rw [hcs]; rfl)
  · exact h.line hd hc (by rw [hcs]; rfl)
  · exact h.closing (by omega) hc (by rw [hcs]; rfl)

/-- Going through a text mark by mark. -/
theorem sweep_induction {motive : Nat → List Char → Prop} (nil : ∀ depth, motive depth [])
    (line : ∀ cs, motive 0 (cs.dropWhile inLine) → motive 0 ('/' :: '/' :: cs))
    (closing : ∀ depth cs, motive depth cs → motive (depth + 1) ('*' :: '/' :: cs))
    (opening : ∀ depth cs, motive (depth + 1) cs → motive depth ('/' :: '*' :: cs))
    (other : ∀ depth c cs, Markless depth c cs → motive depth cs → motive depth (c :: cs)) (depth : Nat)
    (cs : List Char) : motive depth cs := by
  induction depth, cs using sweep.induct with
  | case1 depth => exact nil depth
  | case2 cs ih => exact line cs ih
  | case3 depth cs ih => exact closing depth cs ih
  | case4 depth cs ih => exact opening depth cs ih
  | case5 depth c cs hline hclosing hopening ih =>
    refine other depth c cs ⟨fun hd hc hcs => ?_, fun hd hc hcs => ?_, fun hc hcs => ?_⟩ ih
    · obtain ⟨more, rfl⟩ := List.head?_eq_some_iff.1 hcs
      exact hline more hd hc rfl
    · obtain ⟨more, rfl⟩ := List.head?_eq_some_iff.1 hcs
      exact hclosing (depth - 1) more (by omega) hc rfl
    · obtain ⟨more, rfl⟩ := List.head?_eq_some_iff.1 hcs
      exact hopening more hc rfl

/-- In a block comment everything is kept up to its end. -/
theorem sweep_spanNested (depth : Nat) (cs : List Char) :
    (sweep (depth + 1) cs).1 = (spanNested depth cs).1 ++ (sweep 0 (spanNested depth cs).2).1 := by
  fun_induction spanNested depth cs with
  | case1 depth => rw [sweep, sweep]; rfl
  | case2 rest => rw [sweep]; rfl
  | case3 depth rest body after h ih => rw [sweep, ih, h]; rfl
  | case4 depth rest body after h ih => rw [sweep, ih, h]; rfl
  | case5 depth c cs hend hclosing hopening body after h ih =>
    have hmarkless : Markless (depth + 1) c cs := by
      refine ⟨fun h => absurd h depth.succ_ne_zero, fun _ hc hcs => ?_, fun hc hcs => ?_⟩
      · obtain ⟨more, rfl⟩ := List.head?_eq_some_iff.1 hcs
        cases depth with
        | zero => exact hend more rfl hc rfl
        | succ depth => exact hclosing depth more rfl hc rfl
      · obtain ⟨more, rfl⟩ := List.head?_eq_some_iff.1 hcs
        exact hopening more hc rfl
    rw [sweep_markless hmarkless, ih, h]
    rfl

theorem withoutLineComments_eq (cs : List Char) : withoutLineComments cs = (sweep 0 cs).1 := by
  unfold withoutLineComments
  induction cs using segments.induct with
  | case1 => rw [segments, sweep]; rfl
  | case2 cs ih => rw [segments_line, sweep, ← ih]; rfl
  | case3 cs ih =>
    rw [segments_block, sweep, sweep_spanNested, ← ih]
    rfl
  | case4 c cs hline hblock ih =>
    have hmarkless : Markless 0 c cs := by
      refine ⟨fun _ hc hcs => ?_, fun h => absurd rfl h, fun hc hcs => ?_⟩
      · obtain ⟨more, rfl⟩ := List.head?_eq_some_iff.1 hcs
        exact hline more hc rfl
      · obtain ⟨more, rfl⟩ := List.head?_eq_some_iff.1 hcs
        exact hblock more hc rfl
    rw [segments.eq_4 c cs hline hblock, sweep_markless hmarkless, ← ih]
    rfl

theorem mem_of_mem_sweep {depth : Nat} {cs : List Char} {c : Char} (h : c ∈ (sweep depth cs).1) : c ∈ cs := by
  induction depth, cs using sweep_induction with
  | nil depth => rwa [sweep] at h
  | line cs ih =>
    rw [sweep] at h
    exact .tail _ (.tail _ ((List.dropWhile_sublist inLine).subset (ih h)))
  | closing depth cs ih | opening depth cs ih =>
    rw [sweep] at h
    rcases List.mem_cons.1 h with rfl | h
    · exact .head _
    · rcases List.mem_cons.1 h with rfl | h
      · exact .tail _ (.head _)
      · exact .tail _ (.tail _ (ih h))
  | other depth d cs hd ih =>
    rw [sweep_markless hd] at h
    rcases List.mem_cons.1 h with rfl | h
    · exact .head _
    · exact .tail _ (ih h)

/-! ## Lines -/

/-- Comments begin and end in one line, or are open where it ends: what comes behind a line feed depends on what is before
it by the number of open comments only. -/
theorem sweep_lineFeed (depth : Nat) (cs rest : List Char) : sweep depth (cs ++ '\n' :: rest) =
    ((sweep depth cs).1 ++ '\n' :: (sweep (sweep depth cs).2 rest).1, (sweep (sweep depth cs).2 rest).2) := by
  have hfeed (depth : Nat) :
      sweep depth ('\n' :: rest) = ('\n' :: (sweep depth rest).1, (sweep depth rest).2) :=
    sweep_markless (.of_ne (by decide) (by decide) rest)
  induction depth, cs using sweep_induction with
  | nil depth => rw [List.nil_append, sweep, hfeed]; rfl
  | line cs ih =>
    have hdrop : (cs ++ '\n' :: rest).dropWhile inLine = cs.dropWhile inLine ++ '\n' :: rest := by
      rw [List.dropWhile_append, List.dropWhile_cons_of_neg (by decide)]
      split
      · next hempty => rw [List.isEmpty_iff.1 hempty, List.nil_append]
      · rfl
    rw [List.cons_append, List.cons_append, sweep, hdrop, ih, sweep]
  | closing depth cs ih => rw [List.cons_append, List.cons_append, sweep, ih, sweep]; rfl
  | opening depth cs ih => rw [List.cons_append, List.cons_append, sweep, ih, sweep]; rfl
  | other depth c cs hc ih =>
    have hhead (mark : Char) (hmark : mark ≠ '\n') (h : cs.head? ≠ some mark) :
        (cs ++ '\n' :: rest).head? ≠ some mark := by
      cases cs with
      | nil => exact fun heq => hmark (Option.some.inj heq).symm
      | cons d cs => exact h
    have hmore : Markless depth c (cs ++ '\n' :: rest) :=
      ⟨fun hd h => hhead '/' (by decide) (hc.line hd h), fun hd h => hhead '/' (by decide) (hc.closing hd h),
        fun h => hhead '*' (by decide) (hc.opening h)⟩
    rw [List.cons_append, sweep_markless hmore, sweep_markless hc, ih]
    rfl

/-- Two texts with the same first line differ in what is left of them iff they differ behind it. -/
theorem sweep_lineFeed_iff (depth : Nat) (cs rest rest' : List Char) :
    (sweep depth (cs ++ '\n' :: rest)).1 = (sweep depth (cs ++ '\n' :: rest')).1 ↔
      (sweep (sweep depth cs).2 rest).1 = (sweep (sweep depth cs).2 rest').1 := by
  rw [sweep_lineFeed, sweep_lineFeed, List.append_right_inj, List.cons_inj_right]

/-- Nothing is left of a line that is a comment up to its end. -/
theorem sweep_line {cs : List Char} (h : ∀ c ∈ cs, inLine c = true) : sweep 0 ('/' :: '/' :: cs) = ([], 0) := by
  rw [sweep, List.dropWhile_eq_nil_iff.2 h, sweep]

/-- Nothing is left of a line iff its comment goes on up to its end. -/
theorem sweep_line_iff (cs : List Char) :
    (sweep 0 ('/' :: '/' :: cs)).1 = [] ↔ ∀ c ∈ cs, inLine c = true := by
  refine ⟨fun h => ?_, fun h => by rw [sweep_line h]⟩
  rw [sweep] at h
  cases hdrop : cs.dropWhile inLine with
  | nil => exact List.dropWhile_eq_nil_iff.1 hdrop
  | cons c more =>
    have hbreak : inLine c = false := by
      have hhead := List.head?_dropWhile_not inLine cs
      rw [hdrop] at hhead
      simpa using hhead
    -- the end of a line is no mark
    have hmarkless : Markless 0 c more :=
      .of_ne (by rintro rfl; exact absurd hbreak (by decide)) (by rintro rfl; exact absurd hbreak (by decide)) more
    rw [hdrop, sweep_markless hmarkless] at h
    cases h

/-- In a block comment a text without stars is kept and ends nothing. -/
theorem sweep_starless {cs : List Char} (h : '*' ∉ cs) (depth : Nat) : sweep (depth + 1) cs = (cs, depth + 1) := by
  induction cs with
  | nil => rw [sweep]
  | cons c cs ih =>
    obtain ⟨hc, hcs⟩ := List.ne_and_not_mem_of_not_mem_cons h
    have hmarkless : Markless (depth + 1) c cs :=
      ⟨nofun, fun _ h => absurd h.symm hc, fun _ hhead => hcs (List.mem_of_mem_head? hhead)⟩
    rw [sweep_markless hmarkless, ih hcs]

/-- What begins in a block comment is kept, or there is a star in what is kept. -/
theorem sweep_eq_or_star (depth : Nat) (cs : List Char) :
    (sweep (depth + 1) cs).1 = cs ∨ '*' ∈ (sweep (depth + 1) cs).1 := by
  generalize hd : depth + 1 = d
  induction d, cs using sweep_induction with
  | nil d => exact .inl (by rw [sweep])
  | line cs ih => cases hd
  | closing d cs ih => exact .inr (by rw [sweep]; exact .head _)
  | opening d cs ih => exact .inr (by rw [sweep]; exact .tail _ (.head _))
  | other d c cs hc ih =>
    rw [sweep_markless hc]
    exact (ih hd).imp (congrArg (c :: ·)) (.tail _)

/-- In a block comment a line is as it is without some words iff there are no such words. -/
theorem sweep_block_iff (depth : Nat) {front back : List Char} (hfront : '*' ∉ front) (hback : '*' ∉ back)
    (words : List Char) : (sweep (depth + 1) (front ++ (words ++ back))).1 = front ++ back ↔ words = [] := by
  have hline : '*' ∉ front ++ back := fun h => (List.mem_append.1 h).elim hfront hback
  refine ⟨fun h => ?_, fun h => ?_⟩
  · rcases sweep_eq_or_star depth (front ++ (words ++ back)) with hkept | hstar
    · rw [hkept] at h
      exact List.append_left_eq_self.1 (List.append_cancel_left h)
    · exact absurd (h ▸ hstar) hline
  · rw [h, List.nil_append, sweep_starless hline]

/-! ## Texts that open no comment -/

theorem hasPair_right {a b : Char} (xs : List Char) {ys : List Char} (h : hasPair a b (xs ++ ys) = false) :
    hasPair a b ys = false := by
  induction xs with
  | nil => exact h
  | cons x xs ih =>
    refine ih ?_
    cases hrest : xs ++ ys with
    | nil => rfl
    | cons y rest =>
      rw [List.cons_append, hrest, hasPair, Bool.or_eq_false_iff] at h
      exact h.2

/-- A text without an opening mark leaves no comment open. -/
theorem sweep_unopened {cs : List Char} (h : hasPair '/' '*' cs = false) : (sweep 0 cs).2 = 0 := by
  generalize hd : 0 = d
  induction d, cs using sweep_induction with
  | nil d => rw [← hd, sweep]
  | line cs ih =>
    rw [sweep]
    refine ih (hasPair_right ('/' :: '/' :: cs.takeWhile inLine) ?_) rfl
    rw [List.cons_append, List.cons_append, List.takeWhile_append_dropWhile]
    exact h
  | closing d cs ih => cases hd
  | opening d cs ih => cases h
  | other d c cs hc ih =>
    rw [sweep_markless hc]
    exact ih (hasPair_right [c] h) hd

theorem hasPair_cons_of_ne {a b c : Char} (h : c ≠ a) (cs : List Char) : hasPair a b (c :: cs) = hasPair a b cs := by
  cases cs with
  | nil => rfl
  | cons d ds => rw [hasPair, beq_false_of_ne h, Bool.false_and, Bool.false_or]

/-- A text in which no block comment is opened, nor with what comes behind it. -/
def Unopening (s : String) : Prop := ∀ rest, hasPair '/' '*' (s.toList ++ rest) = hasPair '/' '*' rest

namespace Unopening

variable {s t : String}

theorem of_slashless (h : '/' ∉ s.toList) : Unopening s := by
  intro rest
  generalize s.toList = cs at h ⊢
  induction cs with
  | nil => rfl
  | cons c cs ih =>
    obtain ⟨hc, hcs⟩ := List.ne_and_not_mem_of_not_mem_cons h
    rw [List.cons_append, hasPair_cons_of_ne hc.symm, ih hcs]

theorem append (hs : Unopening s) (ht : Unopening t) : Unopening (s ++ t) := by
  intro rest
  rw [String.toList_append, List.append_assoc, hs, ht]

theorem append_slashless (hs : Unopening s) (ht : '/' ∉ t.toList) : Unopening (s ++ t) := hs.append (.of_slashless ht)

theorem join {ss : List String} (h : ∀ s ∈ ss, Unopening s) : Unopening (String.join ss) := by
  induction ss with
  | nil => exact of_slashless nofun
  | cons s ss ih =>
    obtain ⟨hs, hss⟩ := List.forall_mem_cons.1 h
    rw [String.join_cons]
    exact hs.append (ih hss)

theorem hasPair_eq (h : Unopening s) : hasPair '/' '*' s.toList = false := by
  have hnil := h []
  rwa [List.append_nil] at hnil

end Unopening

/-! ### Functions as text -/

/-- The names, letters and numbers in an expression. -/
def Expr.words : Expr → List String
  | name n => [n]
  | float l => [l.text]
  | binary _ left right => left.words ++ right.words
  | member e letters => letters :: e.words
  | call1 f a => f :: a.words
  | call2 f a b => f :: (a.words ++ b.words)
  | call3 f a b c => f :: (a.words ++ b.words ++ c.words)

/-- A mark is written with a blank behind it. -/
theorem Operator.unopening_text (op : Operator) : Unopening (op.text ++ " ") := by
  cases op with
  | div =>
    intro rest
    have htext : (div.text ++ " ").toList = ['/', ' '] := by decide
    rw [htext]
    exact hasPair_cons_of_ne (by decide) rest
  | _ => exact .of_slashless (by decide)

theorem unopening_call {f args : String} (hf : Unopening f) (hargs : Unopening args) :
    Unopening (f ++ "(" ++ args ++ ")") := ((hf.append_slashless (by decide)).append hargs).append_slashless (by decide)

theorem unopening_comma {a b : String} (ha : Unopening a) (hb : Unopening b) : Unopening (a ++ ", " ++ b) :=
  (ha.append_slashless (by decide)).append hb

theorem Expr.unopening_textAt {e : Expr} (h : ∀ w ∈ e.words, Unopening w) (strength : Nat) :
    Unopening (e.textAt strength) := by
  induction e generalizing strength with
  | name n => exact h n List.mem_cons_self
  | float l => exact h l.text List.mem_cons_self
  | binary op left right ihl ihr =>
    obtain ⟨hleft, hright⟩ := List.forall_mem_append.1 h
    have htext : Unopening (left.textAt op.strength ++ " " ++ (op.text ++ " ") ++ right.textAt (op.strength + 1)) :=
      (((ihl hleft _).append_slashless (by decide)).append op.unopening_text).append (ihr hright _)
    rw [← String.append_assoc] at htext
    rw [textAt]
    split
    · exact ((Unopening.of_slashless (by decide)).append htext).append_slashless (by decide)
    · exact htext
  | member e letters ih =>
    obtain ⟨hletters, he⟩ := List.forall_mem_cons.1 h
    exact ((ih he 4).append_slashless (by decide)).append hletters
  | call1 f a iha =>
    obtain ⟨hf, ha⟩ := List.forall_mem_cons.1 h
    exact unopening_call hf (iha ha 0)
  | call2 f a b iha ihb =>
    obtain ⟨hf, hab⟩ := List.forall_mem_cons.1 h
    obtain ⟨ha, hb⟩ := List.forall_mem_append.1 hab
    have hcall := unopening_call hf (unopening_comma (iha ha 0) (ihb hb 0))
    simpa only [textAt, String.append_assoc] using hcall
  | call3 f a b c iha ihb ihc =>
    obtain ⟨hf, habc⟩ := List.forall_mem_cons.1 h
    obtain ⟨hab, hc⟩ := List.forall_mem_append.1 habc
    obtain ⟨ha, hb⟩ := List.forall_mem_append.1 hab
    have hcall := unopening_call hf (unopening_comma (unopening_comma (iha ha 0) (ihb hb 0)) (ihc hc 0))
    simpa only [textAt, String.append_assoc] using hcall

/-- The words of named values. -/
def bindingWords (bindings : List (String × Expr)) : List String := bindings.flatMap fun b => b.1 :: b.2.words

theorem unopening_bindingText {bindings : List (String × Expr)} (h : ∀ w ∈ bindingWords bindings, Unopening w) :
    ∀ b ∈ bindings, Unopening (bindingText b) := by
  intro b hb
  have hname : Unopening b.1 := h b.1 (List.mem_flatMap.2 ⟨b, hb, List.mem_cons_self⟩)
  have hvalue : Unopening b.2.text :=
    Expr.unopening_textAt (fun w hw => h w (List.mem_flatMap.2 ⟨b, hb, List.mem_cons_of_mem _ hw⟩)) 0
  have hlet : Unopening ("let " ++ b.1 ++ " = ") :=
    ((Unopening.of_slashless (by decide)).append hname).append_slashless (by decide)
  exact (hlet.append hvalue).append_slashless (by decide)

/-- The words of a formula. -/
def Case.words (c : Case) : List String := bindingWords c.bindings ++ c.result.words

theorem unopening_selector (n : Nat) : Unopening s!"        case {n}u: \x7b" := by
  refine .of_slashless fun h => ?_
  have htext : (s!"        case {n}u: \x7b").toList = "        case ".toList ++ (Nat.toDigits 10 n ++ "u: \x7b".toList) := by
    have he (s : String) : toString s = s := rfl
    simp [he]
  rw [htext] at h
  rcases List.mem_append.1 h with h | h
  · exact absurd h (by decide)
  · rcases List.mem_append.1 h with h | h
    · exact absurd (Nat.isDigit_of_mem_toDigits (by decide) (by decide) h) (by decide)
    · exact absurd h (by decide)

theorem Case.unopening_text {c : Case} (h : ∀ w ∈ c.words, Unopening w) : Unopening c.text := by
  obtain ⟨hbindings, hreturned⟩ := List.forall_mem_append.1 h
  unfold text
  extract_lets head result line
  have hhead : Unopening head := by
    unfold head
    split
    · exact unopening_selector _
    · exact .of_slashless (by decide)
  have hresult : Unopening result :=
    ((Unopening.of_slashless (by decide)).append (Expr.unopening_textAt hreturned 0)).append_slashless (by decide)
  have hline (s : String) (hs : s ∈ c.bindings.map bindingText ++ [result]) : Unopening ("            " ++ s ++ "\n") := by
    have hs : Unopening s :=
      List.forall_mem_append.2 ⟨List.forall_mem_map.2 (unopening_bindingText hbindings),
        List.forall_mem_singleton.2 hresult⟩ s hs
    exact ((Unopening.of_slashless (by decide)).append hs).append_slashless (by decide)
  split
  · exact ((hhead.append_slashless (by decide)).append hresult).append_slashless (by decide)
  · exact ((hhead.append_slashless (by decide)).append (.join (List.forall_mem_map.2 hline))).append_slashless
      (by decide)

/-- The words of a function. -/
def Function.words (f : Function) : List String :=
  [f.name, ", ".intercalate (f.parameters.map fun p => p.1 ++ ": " ++ p.2), f.resultType, f.selector] ++
    bindingWords f.bindings ++ f.cases.flatMap Case.words

/-- The text of a function opens no comment if its words have no slash. -/
theorem Function.unopening_text {f : Function} (h : ∀ w ∈ f.words, '/' ∉ w.toList) : Unopening f.text := by
  have h : ∀ w ∈ f.words, Unopening w := fun w hw => .of_slashless (h w hw)
  obtain ⟨h, hcases⟩ := List.forall_mem_append.1 h
  obtain ⟨h, hbindings⟩ := List.forall_mem_append.1 h
  simp only [List.forall_mem_cons] at h
  obtain ⟨hname, hparameters, hresult, hselector, -⟩ := h
  have hlets : Unopening (String.join (f.bindings.map fun b => "    " ++ bindingText b ++ "\n")) := by
    refine .join (List.forall_mem_map.2 fun b hb => ?_)
    exact ((Unopening.of_slashless (by decide)).append (unopening_bindingText hbindings b hb)).append_slashless (by decide)
  have hformulas : Unopening (String.join (f.cases.map Case.text)) := by
    refine .join (List.forall_mem_map.2 fun c hc => Case.unopening_text fun w hw => ?_)
    exact hcases w (List.mem_flatMap.2 ⟨c, hc, hw⟩)
  have hopening : Unopening ("fn " ++ f.name ++ "(") :=
    ((Unopening.of_slashless (by decide)).append hname).append_slashless (by decide)
  have hhead : Unopening ("fn " ++ f.name ++ "(" ++ ", ".intercalate (f.parameters.map fun p => p.1 ++ ": " ++ p.2) ++
      ") -> " ++ f.resultType ++ " \x7b\n") :=
    (((hopening.append hparameters).append_slashless (by decide)).append hresult).append_slashless (by decide)
  refine (Unopening.append ?_ hformulas).append_slashless (by decide)
  exact (((hhead.append hlets).append_slashless (by decide)).append hselector).append_slashless (by decide)

end ScreenFusion.Wgsl
