import ScreenFusion.Proofs.Wgsl.Numeric

/-!
# ScreenFusion.Proofs.Wgsl.Atom — texts in which numbers are as long as they can be

A text is made of comments, names, numbers and marks, and a number is as long as it can be.  The scanner finds the same
pieces, unless it goes on where a number ends.

* `Lexed`: the pieces of a text; `exists_lexed`: every text has them.
* `scanFrom_eq_iff`: the scanner cuts the numbers of a text in a given way where that is how it reads them.
* `Numeric.longest_of_stop`, `Numeric.longest_hexadecimal`: where numbers end.
* `scan_numbers_iff`: where the scanner ends numbers where the language does.
-/

namespace ScreenFusion.Wgsl

/-! ## Texts -/

/-- What a text is made of. -/
inductive Atom where
  | comment (text : List Char)
  | name (text : List Char)
  | literal (l : Numeric)
  | mark (c : Char)
  deriving DecidableEq

namespace Atom

def text : Atom → List Char
  | comment t => t
  | name t => t
  | literal l => l.text
  | mark c => [c]

/-- The tokens for an atom, where numbers are cut in some way; `attached` right after a point or an at-sign. -/
def tokens (cut : Numeric → List (List Char)) (attached : Bool) : Atom → List Token
  | comment t => [.other t]
  | name t => [.name t (!attached)]
  | literal l => (cut l).map .other
  | mark c => [.other [c]]

/-- Whether what comes after an atom is right after a point or an at-sign. -/
def attaching (attached : Bool) : Atom → Bool
  | comment _ => attached
  | name _ => false
  | literal _ => false
  | mark c => attaches attached c

end Atom

/-- The text of atoms. -/
def atomsText (as : List Atom) : List Char := as.flatMap Atom.text

/-- The tokens for atoms, where numbers are cut in some way. -/
def atomsTokens (cut : Numeric → List (List Char)) : Bool → List Atom → List Token
  | _, [] => []
  | attached, a :: as => a.tokens cut attached ++ atomsTokens cut (a.attaching attached) as

/-- Where a number stands that is as long as it can be. -/
def Numeric.Longest (l : Numeric) (rest : List Char) : Prop :=
  ∀ m : Numeric, m.valid = true → m.text <+: l.text ++ rest → m.text.length ≤ l.text.length

/-- A text as atoms: comments as the scanner reads them, names, numbers, each as long as it can be, and marks, which are
single characters where nothing else begins. -/
inductive Lexed : List Atom → List Char → Prop where
  | nil : Lexed [] []
  | comment {c : Char} {cs : List Char} {as : List Atom} :
      (piece c cs).kind = .comment → Lexed as (piece c cs).rest → Lexed (.comment (c :: (piece c cs).body) :: as) (c :: cs)
  | name {c : Char} {cs : List Char} {as : List Atom} :
      isNameStart c = true → Lexed as (cs.dropWhile isNameRest) →
        Lexed (.name (c :: cs.takeWhile isNameRest) :: as) (c :: cs)
  | literal {l : Numeric} {rest : List Char} {as : List Atom} :
      l.valid = true → l.Longest rest → Lexed as rest → Lexed (.literal l :: as) (l.text ++ rest)
  | mark {c : Char} {cs : List Char} {as : List Atom} :
      (piece c cs).kind ≠ .comment → isNameStart c = false →
        (∀ l : Numeric, l.valid = true → ¬ l.text <+: c :: cs) → Lexed as cs → Lexed (.mark c :: as) (c :: cs)

/-- A digit is a number. -/
theorem exists_literal_of_isDigit {c : Char} (hc : c.isDigit = true) :
    ∃ l : Numeric, l.valid = true ∧ l.text = [c] := by
  refine ⟨.decimal ⟨[c], none, none, none⟩, ?_, rfl⟩
  by_cases h0 : c = '0' <;> simp [Numeric.valid, Decimal.isLiteral, Decimal.valid, hc, h0]

theorem piece_of_no_literal {c : Char} {cs : List Char} (hkind : (piece c cs).kind ≠ .comment)
    (hname : isNameStart c = false) (hnone : ∀ l : Numeric, l.valid = true → ¬ l.text <+: c :: cs) :
    piece c cs = ⟨.mark, [], cs⟩ := by
  have hdigit : c.isDigit = false := by
    rw [Bool.eq_false_iff]
    intro hc
    obtain ⟨l, hl, htext⟩ := exists_literal_of_isDigit hc
    exact hnone l hl (by rw [htext]; exact ⟨cs, rfl⟩)
  unfold piece at hkind ⊢
  split at hkind
  · exact absurd rfl hkind
  · split at hkind
    · exact absurd rfl hkind
    · simp [*]

theorem Numeric.text_ne_nil {l : Numeric} (hl : l.valid = true) : l.text ≠ [] := by
  obtain ⟨c, cs, hlast, -, -⟩ := isRun_last hl
  rw [← flatten_front_last hl, hlast]
  simp

/-- Of the numbers that begin a text, one is longest. -/
theorem exists_longest {l : Numeric} (rest : List Char) (hl : l.valid = true) :
    ∃ (m : Numeric) (after : List Char), m.valid = true ∧ m.text ++ after = l.text ++ rest ∧ m.Longest after := by
  by_cases hlong : l.Longest rest
  · exact ⟨l, rest, hl, rfl, hlong⟩
  · -- A longer one leaves less of the text.
    unfold Numeric.Longest at hlong
    simp only [Classical.not_forall, Nat.not_le] at hlong
    obtain ⟨m, hm, ⟨after, hafter⟩, hlt⟩ := hlong
    have hlength := congrArg List.length hafter
    simp only [List.length_append] at hlength
    have hshorter : after.length < rest.length := by omega
    obtain ⟨k, end_, hk, hend, hlongest⟩ := exists_longest after hm
    exact ⟨k, end_, hk, by rw [hend, hafter], hlongest⟩
termination_by rest.length

/-- Every text is made of atoms. -/
theorem exists_lexed (cs : List Char) : ∃ as, Lexed as cs := by
  cases cs with
  | nil => exact ⟨[], .nil⟩
  | cons c cs =>
    by_cases hkind : (piece c cs).kind = .comment
    · have hle := length_rest_piece_le c cs
      obtain ⟨as, has⟩ := exists_lexed (piece c cs).rest
      exact ⟨_, .comment hkind has⟩
    · by_cases hname : isNameStart c = true
      · have hle := (List.dropWhile_sublist isNameRest (l := cs)).length_le
        obtain ⟨as, has⟩ := exists_lexed (cs.dropWhile isNameRest)
        exact ⟨_, .name hname has⟩
      · by_cases hliteral : ∃ l : Numeric, l.valid = true ∧ l.text <+: c :: cs
        · obtain ⟨l, hl, rest, hrest⟩ := hliteral
          obtain ⟨m, after, hm, hafter, hlongest⟩ := exists_longest rest hl
          have hlength := congrArg List.length (hafter.trans hrest)
          have hpositive := List.length_pos_iff.2 (Numeric.text_ne_nil hm)
          have hshorter : after.length < (c :: cs).length := by
            rw [List.length_append] at hlength
            omega
          obtain ⟨as, has⟩ := exists_lexed after
          have hlexed : Lexed (.literal m :: as) (m.text ++ after) := .literal hm hlongest has
          rw [hafter, hrest] at hlexed
          exact ⟨_, hlexed⟩
        · obtain ⟨as, has⟩ := exists_lexed cs
          exact ⟨_, .mark hkind (by simpa using hname) (fun l hl hprefix => hliteral ⟨l, hl, hprefix⟩) has⟩
termination_by cs.length
decreasing_by
  all_goals simp only [List.length_cons] at *
  all_goals omega

/-- Tokens of a number that are those of a cut of it: the cut is that into the pieces, and nothing more is taken. -/
theorem cut_eq_of_tokens_eq {cut front : List (List Char)} {last more : List Char} {ts us : List Token}
    (hempty : [] ∉ cut) (hflatten : cut.flatten = front.flatten ++ last) (hlast : last ≠ [])
    (h : front.map .other ++ .other (last ++ more) :: us = cut.map .other ++ ts) :
    cut = front ++ [last] ∧ more = [] ∧ us = ts := by
  induction front generalizing cut with
  | nil =>
    cases cut with
    | nil => exact absurd hflatten.symm (by simpa using hlast)
    | cons p ps =>
      simp only [List.map_nil, List.nil_append, List.map_cons, List.cons_append, List.cons.injEq,
        Token.other.injEq] at h
      obtain ⟨rfl, rfl⟩ := h
      have hrest : more = [] ∧ ps.flatten = [] := by simpa using hflatten
      obtain ⟨rfl, hps⟩ := hrest
      have hps : ps = [] := by
        cases ps with
        | nil => rfl
        | cons q qs =>
          rw [List.flatten_cons, List.append_eq_nil_iff] at hps
          exact absurd (hps.1 ▸ List.mem_cons_of_mem _ List.mem_cons_self) hempty
      subst hps
      exact ⟨by simp, rfl, rfl⟩
  | cons f fs ih =>
    cases cut with
    | nil => simp [hlast] at hflatten
    | cons p ps =>
      simp only [List.map_cons, List.cons_append, List.cons.injEq, Token.other.injEq] at h
      obtain ⟨rfl, h⟩ := h
      simp only [List.flatten_cons, List.append_assoc, List.append_cancel_left_eq] at hflatten
      obtain ⟨rfl, hmore, hus⟩ := ih (fun hmem => hempty (List.mem_cons_of_mem _ hmem)) hflatten h
      exact ⟨rfl, hmore, hus⟩

/-- The numbers of a text are cut in some way, each in one or more pieces that make up the number. -/
def IsCut (cut : Numeric → List (List Char)) : Prop :=
  ∀ l : Numeric, l.valid = true → [] ∉ cut l ∧ (cut l).flatten = l.text

/-- What holds where numbers stand in a text, after an atom that is no number. -/
theorem forall_suffix_cons {p : Numeric → List Atom → Prop} {a : Atom} {as : List Atom} (ha : ∀ l, a ≠ .literal l) :
    (∀ l rest, Atom.literal l :: rest <:+ a :: as → p l rest) ↔ ∀ l rest, .literal l :: rest <:+ as → p l rest := by
  constructor
  · exact fun h l rest hsuffix => h l rest (hsuffix.trans (List.suffix_cons a as))
  · intro h l rest hsuffix
    rcases List.suffix_cons_iff.1 hsuffix with heq | hsuffix
    · exact absurd (List.cons.inj heq).1.symm (ha l)
    · exact h l rest hsuffix

theorem Lexed.text_eq {as : List Atom} {cs : List Char} (h : Lexed as cs) : atomsText as = cs := by
  induction h with
  | nil => rfl
  | @comment c cs as hkind _ ih =>
    show c :: (piece c cs).body ++ atomsText as = c :: cs
    rw [ih, List.cons_append, piece_append]
  | @name c cs as hc _ ih =>
    show c :: cs.takeWhile isNameRest ++ atomsText as = c :: cs
    rw [ih, List.cons_append, List.takeWhile_append_dropWhile]
  | @literal l rest as _ _ _ ih =>
    show l.text ++ atomsText as = l.text ++ rest
    rw [ih]
  | @mark c cs as _ _ _ _ ih =>
    show c :: atomsText as = c :: cs
    rw [ih]

/-- The scanner cuts the numbers of a text in some way where that is how it reads each, and does not go on after one. -/
theorem scanFrom_eq_iff {cut : Numeric → List (List Char)} (hcut : IsCut cut) {as : List Atom} {cs : List Char}
    (h : Lexed as cs) (a : Bool) :
    scanFrom a cs = atomsTokens cut a as ↔
      ∀ l rest, .literal l :: rest <:+ as → l.runsOn (atomsText rest) = false ∧ cut l = l.pieces := by
  induction h generalizing a with
  | nil => simp [scanFrom, atomsTokens]
  | @comment c cs as hkind _ ih =>
    have hscan : scanFrom a (c :: cs) = .other (c :: (piece c cs).body) :: scanFrom a (piece c cs).rest := by
      rw [scanFrom]
      simp only [hkind]
    rw [hscan, forall_suffix_cons (by rintro _ ⟨⟩), ← ih a]
    exact List.cons_inj_right _
  | @name c cs as hc _ ih =>
    have hscan : scanFrom a (c :: cs) =
        .name (c :: cs.takeWhile isNameRest) (!a) :: scanFrom false (cs.dropWhile isNameRest) := by
      rw [scanFrom]
      simp only [piece_of_isNameStart hc]
    rw [hscan, forall_suffix_cons (by rintro _ ⟨⟩), ← ih false]
    exact List.cons_inj_right _
  | @mark c cs as hkind hname hnone _ ih =>
    have hscan : scanFrom a (c :: cs) = .other [c] :: scanFrom (attaches a c) cs := by
      rw [scanFrom]
      simp only [piece_of_no_literal hkind hname hnone]
    rw [hscan, forall_suffix_cons (by rintro _ ⟨⟩), ← ih (attaches a c)]
    exact List.cons_inj_right _
  | @literal l rest as hl _ hlexed ih =>
    obtain ⟨hempty, hflatten⟩ := hcut l hl
    obtain ⟨c, run, hlast, -, -⟩ := Numeric.isRun_last hl
    have htokens : atomsTokens cut a (.literal l :: as) = (cut l).map .other ++ atomsTokens cut false as := rfl
    rw [Numeric.scanFrom_literal hl, htokens]
    constructor
    · intro heq l' rest' hsuffix
      obtain ⟨hpieces, hmore, hrest⟩ := cut_eq_of_tokens_eq hempty (hflatten.trans (Numeric.flatten_front_last hl).symm)
        (by rw [hlast]; simp) heq
      have hstop := Numeric.runsOn_eq_false_iff.2 hmore
      rw [spanNumber_snd hmore] at hrest
      rcases List.suffix_cons_iff.1 hsuffix with heq' | hsuffix
      · cases heq'
        exact ⟨by rwa [hlexed.text_eq], hpieces⟩
      · exact (ih false).1 hrest l' rest' hsuffix
    · intro hall
      obtain ⟨hstop, hpieces⟩ := hall l as (List.suffix_refl _)
      have hmore := Numeric.runsOn_eq_false_iff.1 hstop
      have hrest := (ih false).2 fun l' rest' hsuffix => hall l' rest' (hsuffix.trans (List.suffix_cons _ as))
      rw [hlexed.text_eq] at hmore
      rw [spanNumber_snd hmore, hmore, hpieces, hrest, Numeric.pieces]
      simp

theorem isCut_pieces : IsCut Numeric.pieces := by
  intro l hl
  obtain ⟨c, cs, hlast, -, -⟩ := Numeric.isRun_last hl
  refine ⟨fun hmem => ?_, by rw [Numeric.pieces, List.flatten_append]; simpa using Numeric.flatten_front_last hl⟩
  rcases List.mem_append.1 hmem with hmem | hmem
  · cases l with
    | decimal d =>
      rw [show (Numeric.decimal d).front = if d.whole.isEmpty then [['.']] else [] from rfl] at hmem
      split at hmem <;> simp at hmem
    | hexadecimal h =>
      rcases Numeric.hexadecimal_cases h with ⟨letter, sign, digits, -, hfront, -⟩ | ⟨-, hfront, -⟩ <;>
        rw [hfront] at hmem <;> simp at hmem
  · rw [List.mem_singleton, hlast] at hmem
    cases hmem

theorem isCut_whole : IsCut fun l => [l.text] := by
  intro l hl
  exact ⟨fun hmem => Numeric.text_ne_nil hl (List.mem_singleton.1 hmem).symm, by simp⟩

theorem Numeric.pieces_eq_text_iff (l : Numeric) : [l.text] = l.pieces ↔ l.front = [] := by
  constructor
  · intro h
    have hlength := congrArg List.length h
    simpa [pieces] using hlength
  · intro h
    have hlast : l.last = l.text := by
      cases l with
      | decimal d =>
        rw [show (decimal d).front = if d.whole.isEmpty then [['.']] else [] from rfl] at h
        split at h
        · cases h
        · next hwhole => exact if_neg hwhole
      | hexadecimal k =>
        rcases hexadecimal_cases k with ⟨_, _, _, _, hfront, -⟩ | ⟨-, -, hlast⟩
        · rw [hfront] at h
          cases h
        · exact hlast
    rw [pieces, h, hlast, List.nil_append]

/-! ## Longest numbers -/

/-- The characters of numbers. -/
def isNumberChar (c : Char) : Bool := c.isAlphanum || c == '.' || c == '+' || c == '-'

theorem isNumberChar_of_taken {signed : Bool} {cs : List Char} (h : taken signed cs = true) :
    ∀ c ∈ cs, isNumberChar c = true := by
  induction cs generalizing signed with
  | nil => nofun
  | cons c cs ih =>
    rw [taken, Bool.and_eq_true] at h
    refine List.forall_mem_cons.2 ⟨?_, ih h.2⟩
    have hc := h.1
    simp only [Bool.or_eq_true, Bool.and_eq_true] at hc
    simp only [isNumberChar, Bool.or_eq_true]
    rcases hc with (hc | hc) | ⟨-, hc | hc⟩ <;> simp [hc]

theorem IsRun.isNumberChar {p : List Char} (h : IsRun p) : ∀ c ∈ p, isNumberChar c = true := by
  obtain ⟨c, cs, rfl, hc, hcs⟩ := h
  exact List.forall_mem_cons.2 ⟨by simp [Wgsl.isNumberChar, Char.isAlphanum, hc], isNumberChar_of_taken hcs⟩

namespace Numeric

theorem isNumberChar_text {l : Numeric} (hl : l.valid = true) : ∀ c ∈ l.text, isNumberChar c = true := by
  intro c hc
  rw [← flatten_front_last hl] at hc
  rcases List.mem_append.1 hc with hc | hc
  · cases l with
    | decimal d =>
      rw [show (decimal d).front = if d.whole.isEmpty then [['.']] else [] from rfl] at hc
      split at hc
      · rw [List.mem_singleton.1 (show c ∈ ['.'] from hc)]
        rfl
      · cases hc
    | hexadecimal h =>
      rcases hexadecimal_cases h with ⟨letter, sign, digits, he, hfront, -⟩ | ⟨-, hfront, -⟩ <;> rw [hfront] at hc
      · obtain ⟨⟨hletter, hsign⟩, -, -⟩ := isBinary_of_valid hl he
        have hc : c ∈ h.mantissa ∨ c = letter ∨ c = sign := by simpa [or_assoc] using hc
        rcases hc with hc | rfl | rfl
        · exact (isRun_mantissa hl).isNumberChar c hc
        · rcases hletter with hp | hp <;> rw [show c = _ from hp] <;> rfl
        · rcases hsign c rfl with rfl | rfl <;> rfl
      · cases hc
  · exact (isRun_last hl).isNumberChar c hc

/-- A longer number goes on with what follows the shorter one. -/
theorem longest_of_forall {l : Numeric} {rest : List Char}
    (h : ∀ (m : Numeric) (c : Char) (more : List Char), m.valid = true → rest.head? = some c →
      m.text ≠ l.text ++ c :: more) : l.Longest rest := by
  rintro m hm ⟨after, hafter⟩
  by_cases hle : m.text.length ≤ l.text.length
  · exact hle
  · obtain ⟨more, hmore⟩ := List.prefix_of_prefix_length_le (List.prefix_append l.text rest) ⟨after, hafter⟩
      (Nat.le_of_not_le hle)
    cases more with
    | nil =>
      rw [List.append_nil] at hmore
      exact Nat.le_of_eq (congrArg List.length hmore.symm)
    | cons c more =>
      refine absurd hmore.symm (h m c more hm ?_)
      rw [← hmore, List.append_assoc] at hafter
      rw [← List.append_cancel_left hafter]
      rfl

/-- A number ends where no character of numbers follows. -/
theorem longest_of_stop {l : Numeric} {rest : List Char} (h : rest.head?.any isNumberChar = false) : l.Longest rest := by
  refine longest_of_forall fun m c more hm hc htext => ?_
  have hchar := isNumberChar_text hm c (by rw [htext]; simp)
  rw [hc] at h
  exact absurd hchar (by simpa using h)

/-- A decimal number has no letter of a prefix. -/
theorem not_mem_decimal {d : Decimal} (hd : d.valid = true) {c : Char} (hc : c = 'x' ∨ c = 'X') : c ∉ d.text := by
  obtain ⟨whole, fraction, exponent, suffix⟩ := d
  simp only [Decimal.valid, Bool.and_eq_true] at hd
  obtain ⟨⟨⟨⟨hwhole, hfraction⟩, -⟩, hexponent⟩, hsuffix⟩ := hd
  have hdigits {ds : List Char} (hds : ds.all Char.isDigit = true) : c ∉ ds := by
    intro hmem
    have hdigit := List.all_eq_true.1 hds c hmem
    rcases hc with rfl | rfl <;> exact absurd hdigit (by decide)
  have hpoint : c ∉ (fraction.map ('.' :: ·)).getD [] := by
    cases fraction with
    | none => exact List.not_mem_nil
    | some f => exact List.not_mem_cons_of_ne_of_not_mem (by rcases hc with rfl | rfl <;> decide) (hdigits hfraction)
  have hexp : c ∉ (exponent.map Exponent.text).getD [] := by
    cases exponent with
    | none => exact List.not_mem_nil
    | some e =>
      obtain ⟨letter, sign, digits⟩ := e
      simp only [Option.all_some, Exponent.valid, Bool.and_eq_true] at hexponent
      obtain ⟨⟨⟨hletter, hsign⟩, hds⟩, -⟩ := hexponent
      refine List.not_mem_cons_of_ne_of_not_mem ?_ fun hmem => ?_
      · rintro rfl
        rcases hc with rfl | rfl <;> cases hletter
      · rcases List.mem_append.1 hmem with hmem | hmem
        · have hmem : sign = some c := Option.mem_toList.1 hmem
          rw [hmem] at hsign
          rcases hc with rfl | rfl <;> cases hsign
        · exact hdigits hds hmem
  have hlast : c ∉ suffix.toList := by
    intro hmem
    rw [Option.mem_toList.1 hmem] at hsuffix
    rcases hc with rfl | rfl <;> cases hsuffix
  simp only [Decimal.text, Decimal.mantissa, List.mem_append, not_or]
  exact ⟨⟨hdigits hwhole, hpoint⟩, hexp, hlast⟩

theorem eq_of_append_cons {p : Char → Bool} {xs ys us vs : List Char} {c d : Char} (h : xs ++ c :: ys = us ++ d :: vs)
    (hxs : ∀ x ∈ xs, p x = true) (hus : ∀ x ∈ us, p x = true) (hc : p c = false) (hd : p d = false) : xs = us := by
  have hspan := congrArg (List.takeWhile p) h
  rwa [List.takeWhile_append_of_pos hxs, List.takeWhile_append_of_pos hus, List.takeWhile_cons_of_neg (by simp [hc]),
    List.takeWhile_cons_of_neg (by simp [hd]), List.append_nil, List.append_nil] at hspan

/-- A hexadecimal number without an exponent ends at a sign, whatever its last digit. -/
theorem longest_hexadecimal {h : Hexadecimal} (hv : h.valid = true) (hnone : h.exponent = none) {sign : Char}
    (hsign : sign = '+' ∨ sign = '-') (rest : List Char) : (hexadecimal h).Longest (sign :: rest) := by
  refine longest_of_forall fun m c more hm hc htext => ?_
  obtain rfl : sign = c := Option.some.inj hc
  have hnosign {c : Char} (hc : c = '+' ∨ c = '-') : (c.isAlphanum || c == '.') = false := by
    rcases hc with rfl | rfl <;> rfl
  have hbody := body_text hv (by rw [hnone]; rintro _ ⟨⟩)
  cases m with
  | decimal d =>
    have hletter : h.letter = 'x' ∨ h.letter = 'X' := by
      simp only [Hexadecimal.valid, Bool.and_eq_true, Bool.or_eq_true, beq_iff_eq] at hv
      exact hv.1.1.1.1.1
    refine not_mem_decimal (Bool.and_eq_true_iff.1 hm).1 hletter ?_
    rw [show d.text = _ from htext]
    simp [text, Hexadecimal.text, Hexadecimal.mantissa]
  | hexadecimal k =>
    rcases hexadecimal_cases k with ⟨letter, sign', digits, he, -, -⟩ | ⟨hunsigned, -, -⟩
    · -- The sign of an exponent is right after its letter.
      obtain ⟨⟨hletter, hsign'⟩, -, -⟩ := isBinary_of_valid hm he
      have hk : k.text = (k.mantissa ++ [letter]) ++ sign' :: (digits ++ k.suffix.toList) := by
        simp [Hexadecimal.text, he, Exponent.text]
      have hfront : ∀ x ∈ k.mantissa ++ [letter], (x.isAlphanum || x == '.') = true := by
        intro x hx
        rcases List.mem_append.1 hx with hx | hx
        · exact body_mantissa hm x hx
        · rw [List.mem_singleton.1 hx]
          rcases hletter with hp | hp <;> rw [show letter = _ from hp] <;> rfl
      have hsame : h.text = k.mantissa ++ [letter] :=
        eq_of_append_cons (htext.symm.trans hk) hbody hfront (hnosign hsign) (hnosign (hsign' sign' rfl))
      have hmem : letter ∈ h.text := by rw [hsame]; simp
      rw [Hexadecimal.text, hnone] at hmem
      rcases List.mem_append.1 hmem with hmem | hmem
      · have hchars := mem_mantissaChars hv letter hmem
        rcases hletter with hp | hp <;> rw [show letter = _ from hp] at hchars <;> exact absurd hchars (by decide)
      · have hchars := (suffix_of_valid hv (Option.mem_toList.1 hmem)).2 hnone
        rcases hletter with hp | hp <;> rw [show letter = _ from hp] at hchars <;> exact absurd hchars (by decide)
    · have hchar := body_text hm hunsigned sign (by rw [show k.text = _ from htext]; simp)
      rw [hnosign hsign] at hchar
      cases hchar

/-- A number begins with a digit or a point. -/
theorem not_prefix {l : Numeric} (hl : l.valid = true) {c : Char} (hdigit : c.isDigit = false) (hpoint : c ≠ '.')
    (cs : List Char) : ¬ l.text <+: c :: cs := by
  rintro ⟨rest, hrest⟩
  cases l with
  | hexadecimal h =>
    obtain rfl : '0' = c := (List.cons.inj hrest).1
    cases hdigit
  | decimal d =>
    obtain ⟨x, xs, hlast, hx, -⟩ := isRun_last hl
    rw [← flatten_front_last hl, show (decimal d).front = if d.whole.isEmpty then [['.']] else [] from rfl] at hrest
    split at hrest
    · exact hpoint (List.cons.inj hrest).1.symm
    · rw [hlast] at hrest
      obtain rfl : x = c := (List.cons.inj hrest).1
      rw [hx] at hdigit
      cases hdigit

end Numeric

/-! ## Numbers in texts -/

/-- For every text: the scanner ends a number where the language does, and reads what comes next as what it is, unless a
letter, a digit, a point or, after a letter `e`, a sign comes next; and it reads each number as one piece only if besides
none begins with a point or has a sign in a binary exponent. -/
theorem scan_numbers_iff {source : List Char} {as : List Atom} (h : Lexed as source) :
    (scan source = atomsTokens Numeric.pieces false as ↔
      ∀ l rest, .literal l :: rest <:+ as → l.runsOn (atomsText rest) = false) ∧
    (scan source = atomsTokens (fun l => [l.text]) false as ↔
      ∀ l rest, .literal l :: rest <:+ as → l.runsOn (atomsText rest) = false ∧ l.front = []) := by
  refine ⟨(scanFrom_eq_iff isCut_pieces h false).trans ?_, (scanFrom_eq_iff isCut_whole h false).trans ?_⟩
  · exact forall_congr' fun l => forall_congr' fun rest => imp_congr_right fun _ => and_iff_left rfl
  · exact forall_congr' fun l => forall_congr' fun rest => imp_congr_right fun _ =>
      and_congr_right fun _ => l.pieces_eq_text_iff

/-- A point before a number, a sign in a binary exponent, and an exponent with a suffix. -/
def mixedNumbers : List Atom :=
  [.literal (.decimal ⟨[], some ['5'], none, none⟩), .mark '*',
    .literal (.hexadecimal ⟨'x', ['1'], none, some ⟨'p', some '-', ['4']⟩, none⟩), .mark '/',
    .literal (.decimal ⟨['2'], some ['5'], some ⟨'e', some '-', ['3']⟩, some 'f'⟩)]

theorem lexed_mixedNumbers : Lexed mixedNumbers ".5*0x1p-4/2.5e-3f".toList := by
  have hlast : Lexed (mixedNumbers.drop 4) "2.5e-3f".toList :=
    .literal (l := .decimal ⟨['2'], some ['5'], some ⟨'e', some '-', ['3']⟩, some 'f'⟩) (by decide)
      (Numeric.longest_of_stop (show Option.any isNumberChar ([] : List Char).head? = false from rfl)) .nil
  have hdivided : Lexed (mixedNumbers.drop 3) "/2.5e-3f".toList :=
    .mark (by decide) (by decide) (fun l hl => Numeric.not_prefix hl (by decide) (by decide) _) hlast
  have hpower : Lexed (mixedNumbers.drop 2) "0x1p-4/2.5e-3f".toList :=
    .literal (l := .hexadecimal ⟨'x', ['1'], none, some ⟨'p', some '-', ['4']⟩, none⟩) (by decide)
      (Numeric.longest_of_stop (by decide)) hdivided
  have htimes : Lexed (mixedNumbers.drop 1) "*0x1p-4/2.5e-3f".toList :=
    .mark (by decide) (by decide) (fun l hl => Numeric.not_prefix hl (by decide) (by decide) _) hpower
  exact .literal (l := .decimal ⟨[], some ['5'], none, none⟩) (by decide) (Numeric.longest_of_stop (by decide)) htimes

/-- The scanner goes on after none of the numbers, but cuts two of them. -/
theorem scan_numbers_mixed : Lexed mixedNumbers ".5*0x1p-4/2.5e-3f".toList ∧
    (∀ l rest, .literal l :: rest <:+ mixedNumbers → l.runsOn (atomsText rest) = false) ∧
    scan ".5*0x1p-4/2.5e-3f".toList ≠ atomsTokens (fun l => [l.text]) false mixedNumbers := by
  obtain ⟨hpieces, hwhole⟩ := scan_numbers_iff lexed_mixedNumbers
  refine ⟨lexed_mixedNumbers, hpieces.1 (by decide +kernel), fun h => ?_⟩
  have hfront := (hwhole.1 h (.decimal ⟨[], some ['5'], none, none⟩) (mixedNumbers.drop 1) (List.suffix_refl _)).2
  cases hfront

/-- A hexadecimal number whose last digit is the letter `e`, and a sum. -/
def hexSum : List Atom :=
  [.name ['x'], .mark '=', .literal (.hexadecimal ⟨'x', ['1', 'e'], none, none, none⟩), .mark '+', .name ['n']]

/-- The number ends before the sign, but the scanner takes the sign and the name with it, and renaming leaves the name. -/
theorem sum_swallowed : Lexed hexSum "x=0x1e+n".toList ∧
    scan "x=0x1e+n".toList ≠ atomsTokens Numeric.pieces false hexSum ∧
    rename (fun name => if name = "n" then some "fx.n.x" else none) "x=0x1e+n".toList = "x=0x1e+n".toList := by
  refine ⟨?_, by decide +kernel, by decide +kernel⟩
  have hname : Lexed (hexSum.drop 4) "n".toList := @Lexed.name 'n' [] [] (by decide) .nil
  have hplus : Lexed (hexSum.drop 3) "+n".toList :=
    .mark (by decide) (by decide) (fun l hl => Numeric.not_prefix hl (by decide) (by decide) _) hname
  have hnumber : Lexed (hexSum.drop 2) "0x1e+n".toList :=
    .literal (l := .hexadecimal ⟨'x', ['1', 'e'], none, none, none⟩) (by decide)
      (Numeric.longest_hexadecimal (by decide) rfl (.inl rfl) _) hplus
  have hequals : Lexed (hexSum.drop 1) "=0x1e+n".toList :=
    .mark (by decide) (by decide) (fun l hl => Numeric.not_prefix hl (by decide) (by decide) _) hnumber
  exact @Lexed.name 'x' "=0x1e+n".toList _ (by decide) hequals

end ScreenFusion.Wgsl
