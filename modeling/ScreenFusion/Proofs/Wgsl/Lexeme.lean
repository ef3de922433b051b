import ScreenFusion.Wgsl.Scope

/-!
# ScreenFusion.Proofs.Wgsl.Lexeme — the lexemes of shader text

The lexemes of the shader language are names, decimal numbers, punctuation marks, and what stands between them: blanks
and comments.  A text that is spelled so that each lexeme is as long as it can be is read lexeme by lexeme by the scanner.

* `Lexeme`, `Spelled`: lexemes, and what may follow each.
* `Lexeme.step`: what reading a lexeme does to the scopes, and whether it may be renamed.
* `Reads`: a reading of lexemes that agrees with given marks about the names that have a substitute.
* `Reads.renameFrom_eq`: what becomes of a text that is read so.
-/

namespace ScreenFusion.Wgsl

/-! ## Lexemes -/

/-- How a line comment ends. -/
inductive LineEnd where
  | lf
  | crlf
  | endOfText
  deriving DecidableEq

/-- The characters of the end of a line. -/
def LineEnd.text : LineEnd → List Char
  | lf => ['\n']
  | crlf => ['\r', '\n']
  | endOfText => []

/-- What stands between lexemes that count. -/
inductive Gap where
  | blank (c : Char)
  | crlf
  | line (body : List Char) (ending : LineEnd)
  | block (body : List Char)
  deriving DecidableEq

/-- The exponent of a number: its letter, a sign or nothing, and its digits. -/
structure Exponent where
  letter : Char
  sign : Option Char
  digits : List Char
  deriving DecidableEq

/-- A decimal number: `1`, `2u`, `.5`, `1.`, `2.5e-3f`. -/
structure Decimal where
  whole : List Char
  fraction : Option (List Char)
  exponent : Option Exponent
  suffix : Option Char
  deriving DecidableEq

/-- A lexeme, or what stands between lexemes. -/
inductive Lexeme where
  | gap (g : Gap)
  | name (n : String)
  | number (d : Decimal)
  | mark (c : Char)
  deriving DecidableEq

/-- Whether two characters occur next to each other. -/
def hasPair (a b : Char) : List Char → Bool
  | c :: d :: rest => (c == a && d == b) || hasPair a b (d :: rest)
  | _ => false

/-- The characters that end a line. -/
def lineBreaks : List Char := ['\n', '\x0b', '\x0c', '\r', '\u0085', '\u2028', '\u2029']

namespace Gap

def text : Gap → List Char
  | blank c => [c]
  | crlf => ['\r', '\n']
  | line body ending => '/' :: '/' :: (body ++ ending.text)
  | block body => '/' :: '*' :: (body ++ ['*', '/'])

/-- Whether it is a gap: lines end with a line feed, with or without a return, and block comments are not nested. -/
def valid : Gap → Bool
  | blank c => c == ' ' || c == '\t' || c == '\n'
  | crlf => true
  | line body _ => body.all fun c => !lineBreaks.contains c
  | block body => !hasPair '*' '/' body && !hasPair '/' '*' (body ++ ['*'])

end Gap

namespace Exponent

def text (e : Exponent) : List Char := e.letter :: (e.sign.toList ++ e.digits)

def valid (e : Exponent) : Bool :=
  (e.letter == 'e' || e.letter == 'E') && e.sign.all (fun c => c == '+' || c == '-') && e.digits.all Char.isDigit &&
    !e.digits.isEmpty

end Exponent

namespace Decimal

/-- The digits before the exponent, and the point. -/
def mantissa (d : Decimal) : List Char := d.whole ++ (d.fraction.map ('.' :: ·)).getD []

def text (d : Decimal) : List Char := d.mantissa ++ ((d.exponent.map Exponent.text).getD [] ++ d.suffix.toList)

/-- Whether it is a number: there are only digits where digits stand, and a digit on one side of the point. -/
def valid (d : Decimal) : Bool :=
  d.whole.all Char.isDigit && d.fraction.all (·.all Char.isDigit) && (!d.whole.isEmpty || d.fraction.any (!·.isEmpty)) &&
    d.exponent.all Exponent.valid && d.suffix.all fun c => c == 'f' || c == 'h' || c == 'i' || c == 'u'

end Decimal

/-- The punctuation of the language but for the sign that begins an attribute. -/
def marks : List Char := "&-/![]\x7b\x7d:,=><%*.+|();^~".toList

namespace Lexeme

def isGap : Lexeme → Bool
  | gap _ => true
  | _ => false

def text : Lexeme → List Char
  | gap g => g.text
  | name n => n.toList
  | number d => d.text
  | mark c => [c]

def valid : Lexeme → Bool
  | gap g => g.valid
  | name n => match n.toList with
    | [] => false
    | c :: cs => isNameStart c && cs.all isNameRest
  | number d => d.valid
  | mark c => marks.contains c

/-- Whether the lexeme ends where a text follows. -/
def fits (l : Lexeme) (rest : List Char) : Bool :=
  match l with
  | gap (.line _ .endOfText) => rest.isEmpty
  | gap _ => true
  | name _ => !rest.head?.any isNameRest
  | number _ => !rest.head?.any fun c => isNameRest c || c == '.'
  | mark c => !(c == '/' && rest.head?.any fun c => c == '/' || c == '*')

end Lexeme

/-- The text of lexemes. -/
def spell (ls : List Lexeme) : List Char := ls.flatMap Lexeme.text

/-- Whether each of the lexemes is one and ends where the next begins. -/
def Spelled : List Lexeme → Bool
  | [] => true
  | l :: ls => l.valid && l.fits (spell ls) && Spelled ls

/-! ## Reading -/

namespace Lexeme

/-- Whether a lexeme may be renamed, and the scopes after it; `attached` right after a point. -/
def step (s : Scopes) (attached : Bool) : Lexeme → Bool × Scopes × Bool
  | gap _ => (false, s, attached)
  | name n => if attached then (false, s, false) else ((s.name n).1, (s.name n).2, false)
  | number _ => (false, s, false)
  | mark c => (false, s.other [c], c == '.')

/-- A lexeme with its name replaced if it has a substitute. -/
def replaced (substitute : String → Option String) : Lexeme → List Char
  | name n => ((substitute n).map String.toList).getD n.toList
  | l => l.text

end Lexeme

/-- The text that the rest of a fragment becomes. -/
def renameFrom (substitute : String → Option String) (s : Scopes) (attached : Bool) (cs : List Char) : List Char :=
  renameTokens substitute s (scanFrom attached cs)

variable {substitute : String → Option String} {s t : Scopes} {a b : Bool}

theorem renameFrom_comment {c : Char} {cs : List Char} (h : (piece c cs).kind = .comment)
    (hs : s.other (c :: (piece c cs).body) = s) :
    renameFrom substitute s a (c :: cs) =
      c :: ((piece c cs).body ++ renameFrom substitute s a (piece c cs).rest) := by
  unfold renameFrom
  rw [scanFrom]
  simp only [h, renameTokens, renameToken, hs]
  rfl

theorem renameFrom_name {c : Char} {cs : List Char} (h : (piece c cs).kind = .name) :
    renameFrom substitute s a (c :: cs) =
      let n := String.ofList (c :: (piece c cs).body)
      let r := (Lexeme.name n).step s a
      (if r.1 then (Lexeme.name n).replaced substitute else n.toList) ++
        renameFrom substitute r.2.1 false (piece c cs).rest := by
  unfold renameFrom
  rw [scanFrom]
  simp only [h]
  cases a with
  | true => simp [renameTokens, renameToken, Lexeme.step]
  | false =>
    simp only [renameTokens, renameToken, Lexeme.step, Lexeme.replaced, Bool.not_false, Bool.false_eq_true, if_false]
    cases (s.name (String.ofList (c :: (piece c cs).body))).1 <;> simp

theorem renameFrom_number {c : Char} {cs : List Char} (h : (piece c cs).kind = .number)
    (hs : s.other (c :: (piece c cs).body) = s) :
    renameFrom substitute s a (c :: cs) =
      c :: ((piece c cs).body ++ renameFrom substitute s false (piece c cs).rest) := by
  unfold renameFrom
  rw [scanFrom]
  simp only [h, renameTokens, renameToken, hs]
  rfl

theorem renameFrom_mark {c : Char} {cs : List Char} (h : piece c cs = ⟨.mark, [], cs⟩) :
    renameFrom substitute s a (c :: cs) = c :: renameFrom substitute (s.other [c]) (attaches a c) cs := by
  unfold renameFrom
  rw [scanFrom]
  simp only [h, renameTokens, renameToken]
  rfl

/-! ### Pieces -/

theorem piece_line (cs : List Char) :
    piece '/' ('/' :: cs) = ⟨.comment, '/' :: cs.takeWhile (· ≠ '\n'), cs.dropWhile (· ≠ '\n')⟩ := by
  rw [piece, if_pos ⟨rfl, rfl⟩, List.takeWhile_cons_of_pos (by decide), List.dropWhile_cons_of_pos (by decide)]

theorem piece_block (cs : List Char) :
    piece '/' ('*' :: cs) = ⟨.comment, '*' :: (spanBlock cs).1, (spanBlock cs).2⟩ := by
  rw [piece, if_neg (by simp), if_pos ⟨rfl, rfl⟩, List.tail_cons]

theorem piece_of_isNameStart {c : Char} (hc : isNameStart c = true) (cs : List Char) :
    piece c cs = ⟨.name, cs.takeWhile isNameRest, cs.dropWhile isNameRest⟩ := by
  have hslash : c ≠ '/' := by
    rintro rfl
    exact absurd hc (by decide)
  rw [piece, if_neg (by simp [hslash]), if_neg (by simp [hslash]), if_pos hc]

theorem isNameStart_of_isDigit {c : Char} (hc : c.isDigit = true) : isNameStart c = false := by
  have h9 : c.toNat ≤ 57 := (Char.isDigit_iff_toNat.1 hc).2
  have hupper : c.isUpper = true → 65 ≤ c.toNat := fun h => (of_decide_eq_true h).1
  have hlower : c.isLower = true → 97 ≤ c.toNat := fun h => of_decide_eq_true (Bool.and_eq_true_iff.1 h).1
  refine Bool.eq_false_iff.2 fun h => ?_
  rcases Bool.or_eq_true_iff.1 h with halpha | hunderscore
  · rcases Bool.or_eq_true_iff.1 halpha with h | h
    · have hle := hupper h
      omega
    · have hle := hlower h
      omega
  · rw [beq_iff_eq.1 hunderscore] at h9
    exact absurd h9 (by decide)

theorem piece_of_isDigit {c : Char} (hc : c.isDigit = true) (cs : List Char) :
    piece c cs = ⟨.number, (spanNumber false cs).1, (spanNumber false cs).2⟩ := by
  have hslash : c ≠ '/' := by
    rintro rfl
    exact absurd hc (by decide)
  rw [piece, if_neg (by simp [hslash]), if_neg (by simp [hslash]), if_neg (by simp [isNameStart_of_isDigit hc]), if_pos hc]

/-- A character that begins no comment, no name and no number. -/
theorem piece_of_mark {c : Char} {cs : List Char} (hslash : c = '/' → cs.head? ≠ some '/' ∧ cs.head? ≠ some '*')
    (hname : isNameStart c = false) (hdigit : c.isDigit = false) : piece c cs = ⟨.mark, [], cs⟩ := by
  rw [piece, if_neg fun h => (hslash h.1).1 h.2, if_neg fun h => (hslash h.1).2 h.2, if_neg (by simp [hname]),
    if_neg (by simp [hdigit])]

/-! ### Gaps -/

theorem other_eq_self {c : Char} {cs : List Char} (h : cs ≠ [] ∨ c ∉ ['(', ')', ',', '\x7b', '\x7d', ';']) :
    s.other (c :: cs) = s := by
  unfold Scopes.other
  split <;> simp_all

theorem piece_blank {c : Char} (hc : c ∈ [' ', '\t', '\n', '\r']) (cs : List Char) :
    piece c cs = ⟨.mark, [], cs⟩ := by
  have hkind : c ≠ '/' ∧ isNameStart c = false ∧ c.isDigit = false := by
    simp only [List.mem_cons, List.not_mem_nil, or_false] at hc
    rcases hc with rfl | rfl | rfl | rfl <;> decide
  obtain ⟨hslash, hstart, hdigit⟩ := hkind
  simp [piece, hslash, hstart, hdigit]

theorem renameFrom_blank {c : Char} (hc : c ∈ [' ', '\t', '\n', '\r']) (cs : List Char) :
    renameFrom substitute s a (c :: cs) = c :: renameFrom substitute s a cs := by
  have hfacts : c ∉ ['(', ')', ',', '\x7b', '\x7d', ';'] ∧ isAsciiSpace c = true := by
    simp only [List.mem_cons, List.not_mem_nil, or_false] at hc
    rcases hc with rfl | rfl | rfl | rfl <;> decide
  rw [renameFrom_mark (piece_blank hc cs), other_eq_self (.inr hfacts.1), attaches, if_pos hfacts.2]

/-- Nothing more is taken where the next character does not go on. -/
theorem span_stops {p : Char → Bool} {rest : List Char} (h : rest.head?.any p = false) :
    rest.takeWhile p = [] ∧ rest.dropWhile p = rest := by
  cases rest with
  | nil => exact ⟨rfl, rfl⟩
  | cons c cs =>
    have hc : p c = false := h
    simp [hc]

theorem renameFrom_line (body rest : List Char) (h : ∀ c ∈ body, c ≠ '\n')
    (hrest : rest.head? = some '\n' ∨ rest = []) :
    renameFrom substitute s a ('/' :: '/' :: (body ++ rest)) =
      '/' :: '/' :: (body ++ renameFrom substitute s a rest) := by
  have hall : ∀ c ∈ body, decide (c ≠ '\n') = true := fun c hc => decide_eq_true (h c hc)
  obtain ⟨htake, hdrop⟩ : rest.takeWhile (fun c => decide (c ≠ '\n')) = [] ∧
      rest.dropWhile (fun c => decide (c ≠ '\n')) = rest := by
    refine span_stops ?_
    rcases hrest with hrest | rfl
    · simp [hrest]
    · rfl
  have hpiece : piece '/' ('/' :: (body ++ rest)) = ⟨.comment, '/' :: body, rest⟩ := by
    rw [piece_line, List.takeWhile_append_of_pos hall, List.dropWhile_append_of_pos hall, htake, hdrop, List.append_nil]
  rw [renameFrom_comment (by rw [hpiece]) (other_eq_self (.inl (by rw [hpiece]; simp))), hpiece]
  rfl

theorem spanBlock_body (body rest : List Char) (h : hasPair '*' '/' body = false) :
    spanBlock (body ++ '*' :: '/' :: rest) = (body ++ ['*', '/'], rest) := by
  induction body with
  | nil => rfl
  | cons c cs ih =>
    have hcs : hasPair '*' '/' cs = false := by
      cases cs with
      | nil => rfl
      | cons d ds =>
        rw [hasPair, Bool.or_eq_false_iff] at h
        exact h.2
    have hopen : ¬∃ more, c :: (cs ++ '*' :: '/' :: rest) = '*' :: '/' :: more := by
      rintro ⟨more, hmore⟩
      cases cs with
      | nil => simp at hmore
      | cons d ds =>
        rw [hasPair, Bool.or_eq_false_iff] at h
        simp_all
    rw [List.cons_append, spanBlock.eq_3 _ _ fun more hc hm => hopen ⟨more, by rw [hc, hm]⟩, ih hcs]
    rfl

theorem renameFrom_block (body rest : List Char) (h : hasPair '*' '/' body = false) :
    renameFrom substitute s a ('/' :: '*' :: (body ++ '*' :: '/' :: rest)) =
      '/' :: '*' :: (body ++ '*' :: '/' :: renameFrom substitute s a rest) := by
  have hpiece : piece '/' ('*' :: (body ++ '*' :: '/' :: rest)) = ⟨.comment, '*' :: (body ++ ['*', '/']), rest⟩ := by
    rw [piece_block, spanBlock_body body rest h]
  rw [renameFrom_comment (by rw [hpiece]) (other_eq_self (.inl (by rw [hpiece]; simp))), hpiece]
  simp

theorem renameFrom_gap {g : Gap} {rest : List Char} (hv : g.valid = true) (hf : (Lexeme.gap g).fits rest = true) :
    renameFrom substitute s a (g.text ++ rest) = g.text ++ renameFrom substitute s a rest := by
  cases g with
  | blank c =>
    have hc : c ∈ [' ', '\t', '\n', '\r'] := by
      simp only [Gap.valid, Bool.or_eq_true, beq_iff_eq] at hv
      rcases hv with (rfl | rfl) | rfl <;> decide
    exact renameFrom_blank hc rest
  | crlf =>
    show renameFrom substitute s a ('\r' :: '\n' :: rest) = '\r' :: '\n' :: renameFrom substitute s a rest
    rw [renameFrom_blank (by decide), renameFrom_blank (by decide)]
  | block body =>
    have hbody : hasPair '*' '/' body = false := by
      simp only [Gap.valid, Bool.and_eq_true, Bool.not_eq_true'] at hv
      exact hv.1
    have htext : (Gap.block body).text ++ rest = '/' :: '*' :: (body ++ '*' :: '/' :: rest) := by simp [Gap.text]
    rw [htext, renameFrom_block body rest hbody]
    simp [Gap.text]
  | line body ending =>
    have hbody : ∀ c ∈ body, c ≠ '\n' := by
      intro c hc hnl
      have hfree := List.all_eq_true.1 hv c hc
      rw [hnl] at hfree
      exact absurd hfree (by decide)
    have hbreak (r : List Char) : renameFrom substitute s a ('\n' :: r) = '\n' :: renameFrom substitute s a r :=
      renameFrom_blank (by decide) r
    cases ending with
    | lf =>
      have htext : (Gap.line body .lf).text ++ rest = '/' :: '/' :: (body ++ '\n' :: rest) := by
        simp [Gap.text, LineEnd.text]
      rw [htext, renameFrom_line body ('\n' :: rest) hbody (.inl rfl), hbreak]
      simp [Gap.text, LineEnd.text]
    | crlf =>
      have hbody' : ∀ c ∈ body ++ ['\r'], c ≠ '\n' := by
        intro c hc
        rcases List.mem_append.1 hc with hc | hc
        · exact hbody c hc
        · rw [List.mem_singleton.1 hc]
          decide
      have htext : (Gap.line body .crlf).text ++ rest = '/' :: '/' :: ((body ++ ['\r']) ++ '\n' :: rest) := by
        simp [Gap.text, LineEnd.text]
      rw [htext, renameFrom_line _ ('\n' :: rest) hbody' (.inl rfl), hbreak]
      simp [Gap.text, LineEnd.text]
    | endOfText =>
      have hrest : rest = [] := List.isEmpty_iff.1 hf
      have htext : (Gap.line body .endOfText).text ++ rest = '/' :: '/' :: (body ++ rest) := by
        simp [Gap.text, LineEnd.text]
      rw [htext, renameFrom_line body rest hbody (.inr hrest)]
      simp [Gap.text, LineEnd.text]

/-! ### Numbers -/

/-- Characters that go on with a number and are no letter of an exponent. -/
def isPlain (c : Char) : Bool := (c.isAlphanum || c == '.') && c != 'e' && c != 'E'

/-- Characters before which the scanner ends a number. -/
def endsNumber (rest : List Char) : Bool := !rest.head?.any fun c => isNameRest c || c == '.'

/-- What the scanner takes after some characters of a number. -/
def Continues (signed : Bool) (cs : List Char) : Prop :=
  ∀ rest, endsNumber rest = true → spanNumber signed (cs ++ rest) = (cs, rest)

theorem continues_nil : Continues false [] := by
  intro rest hrest
  cases rest with
  | nil => rfl
  | cons c cs =>
    have hc : c.isAlphanum = false ∧ c ≠ '.' := by simp_all [endsNumber, isNameRest]
    simp [spanNumber, hc.1, hc.2]

theorem continues_cons {signed : Bool} {c : Char} {cs : List Char}
    (hc : (c.isAlphanum || c == '.' || (signed && (c == '+' || c == '-'))) = true)
    (h : Continues (c == 'e' || c == 'E') cs) : Continues signed (c :: cs) := by
  intro rest hrest
  rw [List.cons_append, spanNumber, if_pos hc, h rest hrest]

theorem continues_append {cs ds : List Char} (hcs : ∀ c ∈ cs, isPlain c = true) (hds : Continues false ds) :
    Continues false (cs ++ ds) := by
  induction cs with
  | nil => exact hds
  | cons c cs ih =>
    have hc := hcs c List.mem_cons_self
    simp only [isPlain, Bool.and_eq_true, bne_iff_ne, ne_eq] at hc
    obtain ⟨⟨hc, he⟩, hE⟩ := hc
    have hexp : (c == 'e' || c == 'E') = false := by simp [he, hE]
    refine continues_cons (by simpa using hc) ?_
    rw [hexp]
    exact ih fun d hd => hcs d (List.mem_cons_of_mem _ hd)

theorem isPlain_of_isDigit {c : Char} (h : c.isDigit = true) : isPlain c = true := by
  have hne : c ≠ 'e' ∧ c ≠ 'E' := by
    constructor <;> (rintro rfl; revert h; decide)
  simp [isPlain, Char.isAlphanum, h, hne.1, hne.2]

theorem continues_exponent {e : Exponent} {cs : List Char} (he : e.valid = true) (hcs : Continues false cs) :
    Continues false (e.text ++ cs) := by
  obtain ⟨letter, sign, digits⟩ := e
  simp only [Exponent.valid, Bool.and_eq_true, Bool.not_eq_true'] at he
  obtain ⟨⟨⟨hletter, hsign⟩, hdigits⟩, hne⟩ := he
  have hplain : ∀ c ∈ digits, isPlain c = true := fun c hc => isPlain_of_isDigit (List.all_eq_true.1 hdigits c hc)
  have hrest : Continues true (sign.toList ++ digits ++ cs) := by
    cases sign with
    | some c =>
      have hc : (c == '+' || c == '-') = true := hsign
      have hsame : (c == 'e' || c == 'E') = false := by
        rcases Bool.or_eq_true _ _ ▸ hc with hc | hc <;> rw [beq_iff_eq.1 hc] <;> rfl
      refine continues_cons (by simp [hc]) ?_
      rw [hsame]
      exact continues_append hplain hcs
    | none =>
      cases digits with
      | nil => simp at hne
      | cons d ds =>
        have hd := isPlain_of_isDigit (List.all_eq_true.1 hdigits d List.mem_cons_self)
        simp only [isPlain, Bool.and_eq_true, bne_iff_ne, ne_eq] at hd
        have hsame : (d == 'e' || d == 'E') = false := by simp [hd.1.2, hd.2]
        refine continues_cons (Bool.or_eq_true_iff.2 (.inl hd.1.1)) ?_
        rw [hsame]
        exact continues_append (fun c hc => hplain c (List.mem_cons_of_mem _ hc)) hcs
  have halnum : letter.isAlphanum = true := by
    rcases Bool.or_eq_true _ _ ▸ hletter with hl | hl <;> rw [beq_iff_eq.1 hl] <;> rfl
  show Continues false (letter :: (sign.toList ++ digits) ++ cs)
  refine continues_cons (by simp [halnum]) ?_
  rw [hletter]
  exact hrest

/-- The end of a number, from its exponent on. -/
theorem continues_tail {d : Decimal} (hd : d.valid = true) :
    Continues false ((d.exponent.map Exponent.text).getD [] ++ d.suffix.toList) := by
  simp only [Decimal.valid, Bool.and_eq_true] at hd
  obtain ⟨⟨-, hexponent⟩, hsuffix⟩ := hd
  have hlast : Continues false d.suffix.toList := by
    have hplain : ∀ c ∈ d.suffix.toList, isPlain c = true := by
      intro c hc
      rw [Option.mem_toList.1 hc] at hsuffix
      have hsuffix : (c == 'f' || c == 'h' || c == 'i' || c == 'u') = true := hsuffix
      simp only [Bool.or_eq_true, beq_iff_eq] at hsuffix
      rcases hsuffix with ((rfl | rfl) | rfl) | rfl <;> decide
    have h := continues_append hplain continues_nil
    rwa [List.append_nil] at h
  cases he : d.exponent with
  | none => exact hlast
  | some e =>
    rw [he] at hexponent
    exact continues_exponent hexponent hlast

/-- A number that begins with a digit. -/
theorem renameFrom_digits {c : Char} {cs rest : List Char} (hc : c.isDigit = true) (hcs : Continues false cs)
    (hrest : endsNumber rest = true) :
    renameFrom substitute s a (c :: (cs ++ rest)) = c :: (cs ++ renameFrom substitute s false rest) := by
  have hother : c ∉ ['(', ')', ',', '\x7b', '\x7d', ';'] := by
    intro hm
    simp only [List.mem_cons, List.not_mem_nil, or_false] at hm
    rcases hm with rfl | rfl | rfl | rfl | rfl | rfl <;> exact absurd hc (by decide)
  have hpiece : piece c (cs ++ rest) = ⟨.number, cs, rest⟩ := by rw [piece_of_isDigit hc, hcs rest hrest]
  rw [renameFrom_number (by rw [hpiece]) (other_eq_self (.inr hother)), hpiece]

theorem renameFrom_decimal {d : Decimal} {rest : List Char} (hv : d.valid = true) (hrest : endsNumber rest = true) :
    renameFrom substitute s a (d.text ++ rest) = d.text ++ renameFrom substitute s false rest := by
  have htail := continues_tail hv
  simp only [Decimal.valid, Bool.and_eq_true] at hv
  obtain ⟨⟨⟨⟨hwhole, hfraction⟩, hdigit⟩, -⟩, -⟩ := hv
  obtain ⟨whole, fraction, exponent, suffix⟩ := d
  have hplain : ∀ c ∈ (fraction.map ('.' :: ·)).getD [], isPlain c = true := by
    intro c hc
    cases fraction with
    | none => cases hc
    | some f =>
      rcases List.mem_cons.1 hc with rfl | hc
      · decide
      · exact isPlain_of_isDigit (List.all_eq_true.1 hfraction c hc)
  cases whole with
  | cons c w =>
    have hw : ∀ d ∈ w, isPlain d = true :=
      fun d hd => isPlain_of_isDigit (List.all_eq_true.1 hwhole d (List.mem_cons_of_mem _ hd))
    have hc := List.all_eq_true.1 hwhole c List.mem_cons_self
    have htext : (⟨c :: w, fraction, exponent, suffix⟩ : Decimal).text ++ rest =
        c :: (w ++ ((fraction.map ('.' :: ·)).getD [] ++ ((exponent.map Exponent.text).getD [] ++ suffix.toList)) ++
          rest) := by
      simp [Decimal.text, Decimal.mantissa]
    rw [htext, renameFrom_digits hc (continues_append hw (continues_append hplain htail)) hrest]
    simp [Decimal.text, Decimal.mantissa]
  | nil =>
    -- The scanner reads the point as a mark and the digits after it as a number.
    cases fraction with
    | none => simp at hdigit
    | some f =>
      cases f with
      | nil => simp at hdigit
      | cons c f =>
        have hf : ∀ d ∈ f, isPlain d = true :=
          fun d hd => isPlain_of_isDigit (List.all_eq_true.1 hfraction d (List.mem_cons_of_mem _ hd))
        have hc := List.all_eq_true.1 hfraction c List.mem_cons_self
        have hpoint (cs : List Char) : renameFrom substitute s a ('.' :: cs) = '.' :: renameFrom substitute s true cs :=
          renameFrom_mark rfl
        have htext : (⟨[], some (c :: f), exponent, suffix⟩ : Decimal).text ++ rest =
            '.' :: c :: (f ++ ((exponent.map Exponent.text).getD [] ++ suffix.toList) ++ rest) := by
          simp [Decimal.text, Decimal.mantissa]
        rw [htext, hpoint, renameFrom_digits hc (continues_append hf htail) hrest]
        simp [Decimal.text, Decimal.mantissa]

/-! ### Lexemes -/

theorem piece_name {c : Char} {cs rest : List Char} (hc : isNameStart c = true) (hcs : cs.all isNameRest = true)
    (hrest : (!rest.head?.any isNameRest) = true) : piece c (cs ++ rest) = ⟨.name, cs, rest⟩ := by
  obtain ⟨htake, hdrop⟩ := span_stops (p := isNameRest) (by simpa using hrest)
  rw [piece_of_isNameStart hc, List.takeWhile_append_of_pos (List.all_eq_true.1 hcs),
    List.dropWhile_append_of_pos (List.all_eq_true.1 hcs), htake, hdrop, List.append_nil]

theorem kind_of_mark {c : Char} (hc : c ∈ marks) :
    isNameStart c = false ∧ c.isDigit = false ∧ isAsciiSpace c = false ∧ (c == '@') = false := by
  have hmarks : marks.all (fun c => !isNameStart c && !c.isDigit && !isAsciiSpace c && !(c == '@')) = true := by decide
  have hc := List.all_eq_true.1 hmarks c hc
  simp only [Bool.and_eq_true, Bool.not_eq_true'] at hc
  exact ⟨hc.1.1.1, hc.1.1.2, hc.1.2, hc.2⟩

theorem piece_mark {c : Char} {rest : List Char} (hc : c ∈ marks)
    (hrest : (Lexeme.mark c).fits rest = true) : piece c rest = ⟨.mark, [], rest⟩ := by
  obtain ⟨hstart, hdigit, -, -⟩ := kind_of_mark hc
  have hcomment : c = '/' → rest.head? ≠ some '/' ∧ rest.head? ≠ some '*' := by
    rintro rfl
    cases rest with
    | nil => exact ⟨nofun, nofun⟩
    | cons d ds => simpa [Lexeme.fits] using hrest
  exact piece_of_mark hcomment hstart hdigit

/-- What becomes of a lexeme and of the text after it. -/
theorem renameFrom_lexeme {l : Lexeme} {rest : List Char} (hv : l.valid = true) (hf : l.fits rest = true) :
    renameFrom substitute s a (l.text ++ rest) =
      (if (l.step s a).1 then l.replaced substitute else l.text) ++
        renameFrom substitute (l.step s a).2.1 (l.step s a).2.2 rest := by
  cases l with
  | gap g => exact renameFrom_gap hv hf
  | number d => exact renameFrom_decimal hv hf
  | mark c =>
    have hc : c ∈ marks := List.contains_iff_mem.1 hv
    have hattaches : attaches a c = (c == '.') := by
      obtain ⟨-, -, hspace, hat⟩ := kind_of_mark hc
      simp [attaches, hspace, hat]
    show renameFrom substitute s a (c :: rest) = c :: renameFrom substitute (s.other [c]) (c == '.') rest
    rw [renameFrom_mark (piece_mark hc hf), hattaches]
  | name n =>
    cases hn : n.toList with
    | nil => simp [Lexeme.valid, hn] at hv
    | cons c cs =>
      simp only [Lexeme.valid, hn, Bool.and_eq_true] at hv
      have hpiece := piece_name hv.1 hv.2 hf
      have hback : String.ofList (c :: cs) = n := by rw [← hn, String.ofList_toList]
      have hattached : ((Lexeme.name n).step s a).2.2 = false := by cases a <;> rfl
      show renameFrom substitute s a (n.toList ++ rest) = _
      rw [hattached, hn, List.cons_append, renameFrom_name (by rw [hpiece]), hpiece]
      dsimp only
      rw [hback]
      simp only [Lexeme.text, hn]

/-! ## Marked lexemes -/

/-- Lexemes with marks.  A name that means something of the module is marked with the local names in force there; nothing
else has a mark. -/
abbrev Marked := List (Lexeme × Option (List String))

/-- The text of marked lexemes in which the names that have marks and substitutes are replaced. -/
def resolved (substitute : String → Option String) (ms : Marked) : List Char :=
  ms.flatMap fun m => if m.2.isSome then m.1.replaced substitute else m.1.text

/-- A decision about a lexeme agrees with its mark, or its name has no substitute. -/
def Agrees (substitute : String → Option String) (renamable : Bool) (m : Lexeme × Option (List String)) : Prop :=
  ∀ n, m.1 = .name n → (substitute n).isSome = true → renamable = m.2.isSome

theorem Agrees.text_eq {renamable : Bool} {m : Lexeme × Option (List String)} (h : Agrees substitute renamable m) :
    (if renamable then m.1.replaced substitute else m.1.text) =
      if m.2.isSome then m.1.replaced substitute else m.1.text := by
  obtain ⟨l, mark⟩ := m
  cases l with
  | name n =>
    cases hn : substitute n with
    | some r => rw [h n rfl (by rw [hn]; rfl)]
    | none => simp [Lexeme.replaced, Lexeme.text, hn]
  | _ => simp [Lexeme.replaced]

/-- A reading of lexemes, from scopes to scopes, that agrees with their marks. -/
inductive Reads (substitute : String → Option String) : Scopes → Bool → Marked → Scopes → Bool → Prop where
  | nil {s : Scopes} {a : Bool} : Reads substitute s a [] s a
  | cons {s t : Scopes} {a b : Bool} {m : Lexeme × Option (List String)} {ms : Marked} :
      Agrees substitute (m.1.step s a).1 m → Reads substitute (m.1.step s a).2.1 (m.1.step s a).2.2 ms t b →
      Reads substitute s a (m :: ms) t b

namespace Reads

theorem append {ms ns : Marked} {u : Scopes} {c : Bool} (h : Reads substitute s a ms t b)
    (h' : Reads substitute t b ns u c) : Reads substitute s a (ms ++ ns) u c := by
  induction h with
  | nil => exact h'
  | cons ha _ ih => exact .cons ha (ih h')

/-- Gaps between lexemes do not matter. -/
theorem of_filter {ms : Marked} (h : Reads substitute s a (ms.filter fun m => !m.1.isGap) t b) :
    Reads substitute s a ms t b := by
  induction ms generalizing s a with
  | nil => exact h
  | cons m ms ih =>
    obtain ⟨l, mark⟩ := m
    by_cases hl : l.isGap = true
    · rw [List.filter_cons_of_neg (by simp [hl])] at h
      cases l with
      | gap g => exact .cons (by rintro _ ⟨⟩) (ih h)
      | _ => cases hl
    · rw [List.filter_cons_of_pos (by simp [hl])] at h
      cases h with
      | cons ha hms => exact .cons ha (ih hms)

/-- What becomes of a text that is read in agreement with its marks. -/
theorem renameFrom_eq {ms : Marked} (h : Reads substitute s a ms t b) (hs : Spelled (ms.map Prod.fst) = true) :
    renameFrom substitute s a (spell (ms.map Prod.fst)) = resolved substitute ms := by
  induction h with
  | nil =>
    show renameFrom substitute _ _ [] = []
    rw [renameFrom, scanFrom]
    rfl
  | cons ha _ ih =>
    rw [List.map_cons, Spelled, Bool.and_eq_true, Bool.and_eq_true] at hs
    obtain ⟨⟨hv, hf⟩, hrest⟩ := hs
    rw [List.map_cons, spell, List.flatMap_cons, ← spell, renameFrom_lexeme hv hf, ha.text_eq, ih hrest]
    rfl

end Reads

end ScreenFusion.Wgsl
