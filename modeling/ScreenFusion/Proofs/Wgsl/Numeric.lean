import ScreenFusion.Proofs.Wgsl.Lexeme

/-!
# ScreenFusion.Proofs.Wgsl.Numeric — the numbers of the shader language and how they are scanned

A number is decimal or hexadecimal, whole or with a point, an exponent and a suffix.  The scanner takes letters, digits
and points, and a sign right after a letter `e`; that letter begins an exponent in a decimal number, but is a digit in a
hexadecimal one.

* `Numeric`: the numbers of the language; `Numeric.pieces`: the pieces in which the scanner reads one.
* `taken`, `IsRun`: characters that scanning a number takes.
* `scanFrom_literal`: the tokens of a number and of whatever text follows it.
-/

namespace ScreenFusion.Wgsl

/-! ## Numbers -/

/-- A hexadecimal number: `0x1f`, `0XFFu`, `0x.8`, `0x1.8p-3f`. -/
structure Hexadecimal where
  letter : Char
  whole : List Char
  fraction : Option (List Char)
  exponent : Option Exponent
  suffix : Option Char
  deriving DecidableEq

def isHexDigit (c : Char) : Bool := "0123456789abcdefABCDEF".toList.contains c

/-- Whether it is the exponent of a hexadecimal number, a power of two. -/
def Exponent.isBinary (e : Exponent) : Bool :=
  (e.letter == 'p' || e.letter == 'P') && e.sign.all (fun c => c == '+' || c == '-') && e.digits.all Char.isDigit &&
    !e.digits.isEmpty

namespace Hexadecimal

/-- The prefix and the digits before the exponent, with the point. -/
def mantissa (h : Hexadecimal) : List Char := '0' :: h.letter :: (h.whole ++ (h.fraction.map ('.' :: ·)).getD [])

def text (h : Hexadecimal) : List Char := h.mantissa ++ ((h.exponent.map Exponent.text).getD [] ++ h.suffix.toList)

/-- Whether it is a number: only one with an exponent can have the suffix of a floating number, and only a whole one that
of an integer. -/
def valid (h : Hexadecimal) : Bool :=
  (h.letter == 'x' || h.letter == 'X') && h.whole.all isHexDigit && h.fraction.all (·.all isHexDigit) &&
    (!h.whole.isEmpty || h.fraction.any (!·.isEmpty)) && h.exponent.all Exponent.isBinary &&
      h.suffix.all fun c =>
        if h.exponent.isSome then c == 'f' || c == 'h' else h.fraction.isNone && (c == 'i' || c == 'u')

end Hexadecimal

/-- Whether a decimal number is one of the language: a whole one does not begin with a zero unless it is zero, and only a
whole one can have the suffix of an integer. -/
def Decimal.isLiteral (d : Decimal) : Bool :=
  d.valid && if d.fraction.isNone && d.exponent.isNone then d.whole.head? != some '0' || d.whole == ['0']
    else d.suffix.all fun c => c == 'f' || c == 'h'

/-- A number of the language. -/
inductive Numeric where
  | decimal (d : Decimal)
  | hexadecimal (h : Hexadecimal)
  deriving DecidableEq

namespace Numeric

def text : Numeric → List Char
  | decimal d => d.text
  | hexadecimal h => h.text

def valid : Numeric → Bool
  | decimal d => d.isLiteral
  | hexadecimal h => h.valid

/-- What the scanner reads of a number before its last piece: a point at its beginning, or what stands before the sign of
a binary exponent, and the sign. -/
def front : Numeric → List (List Char)
  | decimal d => if d.whole.isEmpty then [['.']] else []
  | hexadecimal h =>
    match h.exponent with
    | some ⟨letter, some sign, _⟩ => [h.mantissa ++ [letter], [sign]]
    | _ => []

/-- The last piece in which the scanner reads a number. -/
def last : Numeric → List Char
  | decimal d => if d.whole.isEmpty then d.text.tail else d.text
  | hexadecimal h =>
    match h.exponent with
    | some ⟨_, some _, digits⟩ => digits ++ h.suffix.toList
    | _ => h.text

/-- The pieces in which the scanner reads a number. -/
def pieces (l : Numeric) : List (List Char) := l.front ++ [l.last]

/-- Whether the scanner goes on where the number ends: before a letter, a digit or a point, and before a sign if the last
character of the number is a letter `e`. -/
def runsOn (l : Numeric) (rest : List Char) : Bool :=
  rest.head?.any fun c => c.isAlphanum || c == '.' ||
    (l.text.getLast?.any (fun e => e == 'e' || e == 'E') && (c == '+' || c == '-'))

end Numeric

/-! ## Scanning a number -/

/-- Whether a sign may come after some characters of a number. -/
def signedAfter : Bool → List Char → Bool
  | signed, [] => signed
  | _, c :: cs => signedAfter (c == 'e' || c == 'E') cs

/-- Whether scanning a number takes all of some characters. -/
def taken : Bool → List Char → Bool
  | _, [] => true
  | signed, c :: cs => (c.isAlphanum || c == '.' || (signed && (c == '+' || c == '-'))) && taken (c == 'e' || c == 'E') cs

theorem signedAfter_eq (signed : Bool) (cs : List Char) :
    signedAfter signed cs = (cs.getLast?.map fun c => c == 'e' || c == 'E').getD signed := by
  induction cs generalizing signed with
  | nil => rfl
  | cons c cs ih =>
    rw [signedAfter, ih]
    cases cs with
    | nil => rfl
    | cons d ds => rw [List.getLast?_cons_cons, List.getLast?_eq_some_getLast (List.cons_ne_nil d ds)]; rfl

theorem signedAfter_append (signed : Bool) (cs ds : List Char) :
    signedAfter signed (cs ++ ds) = signedAfter (signedAfter signed cs) ds := by
  induction cs generalizing signed with
  | nil => rfl
  | cons c cs ih => exact ih _

theorem taken_append (signed : Bool) (cs ds : List Char) :
    taken signed (cs ++ ds) = (taken signed cs && taken (signedAfter signed cs) ds) := by
  induction cs generalizing signed with
  | nil => rfl
  | cons c cs ih => rw [List.cons_append, taken, taken, ih, signedAfter, Bool.and_assoc]

/-- What is taken after characters that are taken. -/
theorem spanNumber_taken {signed : Bool} {cs : List Char} (h : taken signed cs = true) (rest : List Char) :
    spanNumber signed (cs ++ rest) =
      (cs ++ (spanNumber (signedAfter signed cs) rest).1, (spanNumber (signedAfter signed cs) rest).2) := by
  induction cs generalizing signed with
  | nil => rfl
  | cons c cs ih =>
    rw [taken, Bool.and_eq_true] at h
    rw [List.cons_append, spanNumber, if_pos h.1, ih h.2, signedAfter]
    rfl

/-- Nothing more is taken where a number ends. -/
theorem spanNumber_eq_nil_iff {signed : Bool} {rest : List Char} :
    (spanNumber signed rest).1 = [] ↔
      (rest.head?.any fun c => c.isAlphanum || c == '.' || (signed && (c == '+' || c == '-'))) = false := by
  cases rest with
  | nil => simp [spanNumber]
  | cons c cs =>
    rw [spanNumber]
    split
    · next h => simp [h]
    · next h => simpa using h

theorem spanNumber_snd {signed : Bool} {rest : List Char} (h : (spanNumber signed rest).1 = []) :
    (spanNumber signed rest).2 = rest := by
  have happend := spanNumber_append signed rest
  rwa [h] at happend

theorem taken_of_body {cs : List Char} (h : ∀ c ∈ cs, (c.isAlphanum || c == '.') = true) (signed : Bool) :
    taken signed cs = true := by
  induction cs generalizing signed with
  | nil => rfl
  | cons c cs ih =>
    obtain ⟨hc, hcs⟩ := List.forall_mem_cons.1 h
    rw [taken, hc, ih hcs]
    rfl

/-- A piece that begins with a digit, and what follows it. -/
theorem scanFrom_number {c : Char} {cs : List Char} (hc : c.isDigit = true) (hcs : taken false cs = true) (a : Bool)
    (rest : List Char) :
    scanFrom a (c :: (cs ++ rest)) =
      .other (c :: cs ++ (spanNumber (signedAfter false (c :: cs)) rest).1) ::
        scanFrom false (spanNumber (signedAfter false (c :: cs)) rest).2 := by
  have hexp : (c == 'e' || c == 'E') = false := by
    have hplain := isPlain_of_isDigit hc
    simp only [isPlain, Bool.and_eq_true, bne_iff_ne, ne_eq] at hplain
    simp [hplain.1.2, hplain.2]
  have hpiece : piece c (cs ++ rest) =
      ⟨.number, cs ++ (spanNumber (signedAfter false cs) rest).1, (spanNumber (signedAfter false cs) rest).2⟩ := by
    rw [piece_of_isDigit hc, spanNumber_taken hcs]
  rw [scanFrom]
  simp only [hpiece]
  rw [signedAfter, hexp]
  rfl

/-! ## Pieces of a number -/

/-- A piece of a number that begins with a digit. -/
def IsRun (p : List Char) : Prop := ∃ c cs, p = c :: cs ∧ c.isDigit = true ∧ taken false cs = true

theorem IsRun.append {p cs : List Char} (h : IsRun p) (hcs : taken (signedAfter false p) cs = true) : IsRun (p ++ cs) := by
  obtain ⟨c, ds, rfl, hc, hds⟩ := h
  have hexp : (c == 'e' || c == 'E') = false := by
    have hplain := isPlain_of_isDigit hc
    simp only [isPlain, Bool.and_eq_true, bne_iff_ne, ne_eq] at hplain
    simp [hplain.1.2, hplain.2]
  rw [signedAfter, hexp] at hcs
  exact ⟨c, ds ++ cs, rfl, hc, by rw [taken_append, hds, hcs]; rfl⟩

theorem IsRun.scanFrom {p : List Char} (h : IsRun p) (a : Bool) (rest : List Char) :
    scanFrom a (p ++ rest) =
      .other (p ++ (spanNumber (signedAfter false p) rest).1) ::
        Wgsl.scanFrom false (spanNumber (signedAfter false p) rest).2 := by
  obtain ⟨c, cs, rfl, hc, hcs⟩ := h
  exact scanFrom_number hc hcs a rest

theorem isRun_digits {ds : List Char} (hds : ds.all Char.isDigit = true) (hne : ds ≠ []) : IsRun ds := by
  cases ds with
  | nil => exact absurd rfl hne
  | cons d ds =>
    obtain ⟨hd, hds⟩ := List.forall_mem_cons.1 (List.all_eq_true.1 hds)
    refine ⟨d, ds, rfl, hd, taken_of_body (fun c hc => ?_) false⟩
    simp [Char.isAlphanum, hds c hc]

namespace Numeric

/-- A hexadecimal number with a sign in its exponent, or another one. -/
theorem hexadecimal_cases (h : Hexadecimal) :
    (∃ letter sign digits, h.exponent = some ⟨letter, some sign, digits⟩ ∧
      (hexadecimal h).front = [h.mantissa ++ [letter], [sign]] ∧
        (hexadecimal h).last = digits ++ h.suffix.toList) ∨
      (∀ e, h.exponent = some e → e.sign = none) ∧ (hexadecimal h).front = [] ∧ (hexadecimal h).last = h.text := by
  obtain ⟨letter, whole, fraction, exponent, suffix⟩ := h
  cases exponent with
  | none => exact .inr ⟨nofun, rfl, rfl⟩
  | some e =>
    obtain ⟨p, sign, digits⟩ := e
    cases sign with
    | some c => exact .inl ⟨p, c, digits, rfl, rfl, rfl⟩
    | none =>
      refine .inr ⟨?_, rfl, rfl⟩
      rintro _ ⟨⟩
      rfl

theorem flatten_front_last {l : Numeric} (hl : l.valid = true) : l.front.flatten ++ l.last = l.text := by
  cases l with
  | hexadecimal h =>
    rcases hexadecimal_cases h with ⟨letter, sign, digits, he, hfront, hlast⟩ | ⟨-, hfront, hlast⟩
    · rw [hfront, hlast]
      simp [text, Hexadecimal.text, he, Exponent.text]
    · rw [hfront, hlast]
      rfl
  | decimal d =>
    obtain ⟨whole, fraction, exponent, suffix⟩ := d
    cases whole with
    | cons c cs => rfl
    | nil =>
      cases fraction with
      | some f => rfl
      | none => simp [valid, Decimal.isLiteral, Decimal.valid] at hl

theorem taken_exponent {e : Exponent} (he : e.valid = true) (signed : Bool) : taken signed e.text = true := by
  obtain ⟨letter, sign, digits⟩ := e
  simp only [Exponent.valid, Bool.and_eq_true] at he
  obtain ⟨⟨⟨hletter, hsign⟩, hdigits⟩, -⟩ := he
  have hbody (signed : Bool) : taken signed digits = true :=
    taken_of_body (fun c hc => by simp [Char.isAlphanum, List.all_eq_true.1 hdigits c hc]) signed
  have halnum : letter.isAlphanum = true := by
    rcases Bool.or_eq_true _ _ ▸ hletter with hl | hl <;> rw [beq_iff_eq.1 hl] <;> rfl
  show taken signed (letter :: (sign.toList ++ digits)) = true
  rw [taken, halnum, hletter]
  cases sign with
  | none => simpa using hbody true
  | some c =>
    have hc : (c == '+' || c == '-') = true := hsign
    show (true && taken true (c :: digits)) = true
    rw [taken, hc, hbody]
    simp

theorem taken_suffix {suffix : Option Char} (h : ∀ c, suffix = some c → c.isAlphanum = true) (signed : Bool) :
    taken signed suffix.toList = true :=
  taken_of_body (fun c hc => by simp [h c (Option.mem_toList.1 hc)]) signed

theorem isRun_decimal {d : Decimal} (hd : d.valid = true) : IsRun (decimal d).last := by
  obtain ⟨whole, fraction, exponent, suffix⟩ := d
  simp only [Decimal.valid, Bool.and_eq_true] at hd
  obtain ⟨⟨⟨⟨hwhole, hfraction⟩, hdigit⟩, hexponent⟩, hsuffix⟩ := hd
  have htail (signed : Bool) : taken signed ((exponent.map Exponent.text).getD [] ++ suffix.toList) = true := by
    have hexp : taken signed ((exponent.map Exponent.text).getD []) = true := by
      cases exponent with
      | none => rfl
      | some e => exact taken_exponent hexponent signed
    rw [taken_append, hexp, Bool.true_and]
    refine taken_suffix (fun c hc => ?_) _
    have hc : (c == 'f' || c == 'h' || c == 'i' || c == 'u') = true := by rwa [hc] at hsuffix
    simp only [Bool.or_eq_true, beq_iff_eq] at hc
    rcases hc with ((rfl | rfl) | rfl) | rfl <;> decide
  cases whole with
  | cons c w =>
    have hpoint (signed : Bool) : taken signed ((fraction.map ('.' :: ·)).getD []) = true := by
      refine taken_of_body (fun x hx => ?_) signed
      cases fraction with
      | none => cases hx
      | some f =>
        rcases List.mem_cons.1 hx with rfl | hx
        · rfl
        · simp [Char.isAlphanum, List.all_eq_true.1 hfraction x hx]
    have hrun := (isRun_digits hwhole (by simp)).append (hpoint _) |>.append (htail _)
    exact hrun
  | nil =>
    cases fraction with
    | none => simp at hdigit
    | some f => exact (isRun_digits hfraction (by simpa using hdigit)).append (htail _)

/-- The characters before the exponent of a hexadecimal number. -/
def mantissaChars : List Char := "0123456789abcdefABCDEFxX.".toList

theorem mem_mantissaChars {h : Hexadecimal} (hv : h.valid = true) : ∀ c ∈ h.mantissa, c ∈ mantissaChars := by
  obtain ⟨letter, whole, fraction, exponent, suffix⟩ := h
  simp only [Hexadecimal.valid, Bool.and_eq_true] at hv
  obtain ⟨⟨⟨⟨⟨hletter, hwhole⟩, hfraction⟩, -⟩, -⟩, -⟩ := hv
  have hdigit {c : Char} (hc : isHexDigit c = true) : c ∈ mantissaChars := by
    have hsub : ("0123456789abcdefABCDEF".toList.all mantissaChars.contains) = true := by decide
    exact List.contains_iff_mem.1 (List.all_eq_true.1 hsub c (List.contains_iff_mem.1 hc))
  intro c hc
  have hc : c ∈ '0' :: letter :: (whole ++ (fraction.map ('.' :: ·)).getD []) := hc
  rcases List.mem_cons.1 hc with rfl | hc
  · decide
  rcases List.mem_cons.1 hc with rfl | hc
  · rcases Bool.or_eq_true _ _ ▸ hletter with hl | hl <;> rw [beq_iff_eq.1 hl] <;> decide
  rcases List.mem_append.1 hc with hc | hc
  · exact hdigit (List.all_eq_true.1 hwhole c hc)
  · cases fraction with
    | none => cases hc
    | some f =>
      rcases List.mem_cons.1 hc with rfl | hc
      · decide
      · exact hdigit (List.all_eq_true.1 hfraction c hc)

theorem body_mantissa {h : Hexadecimal} (hv : h.valid = true) : ∀ c ∈ h.mantissa, (c.isAlphanum || c == '.') = true := by
  have hall : (mantissaChars.all fun c => c.isAlphanum || c == '.') = true := by decide
  exact fun c hc => List.all_eq_true.1 hall c (mem_mantissaChars hv c hc)

/-- The digits of a hexadecimal number before its exponent. -/
theorem isRun_mantissa {h : Hexadecimal} (hv : h.valid = true) : IsRun h.mantissa :=
  ⟨'0', _, rfl, rfl, taken_of_body (fun c hc => body_mantissa hv c (List.mem_cons_of_mem _ hc)) false⟩

theorem isBinary_of_valid {h : Hexadecimal} {e : Exponent} (hv : h.valid = true) (he : h.exponent = some e) :
    ((e.letter = 'p' ∨ e.letter = 'P') ∧ ∀ c ∈ e.sign, c = '+' ∨ c = '-') ∧ e.digits.all Char.isDigit = true ∧
      e.digits ≠ [] := by
  simp only [Hexadecimal.valid, Bool.and_eq_true, he] at hv
  obtain ⟨⟨-, hbinary⟩, -⟩ := hv
  obtain ⟨letter, sign, digits⟩ := e
  simp only [Option.all_some, Exponent.isBinary, Bool.and_eq_true, Bool.or_eq_true, beq_iff_eq, Bool.not_eq_true',
    List.isEmpty_eq_false_iff] at hbinary
  obtain ⟨⟨⟨hletter, hsign⟩, hdigits⟩, hne⟩ := hbinary
  refine ⟨⟨hletter, fun c hc => ?_⟩, hdigits, hne⟩
  have hc : sign = some c := hc
  rw [hc] at hsign
  simpa using hsign

theorem suffix_of_valid {h : Hexadecimal} (hv : h.valid = true) {c : Char} (hc : h.suffix = some c) :
    c ∈ ['f', 'h', 'i', 'u'] ∧ (h.exponent = none → c ∈ ['i', 'u']) := by
  simp only [Hexadecimal.valid, Bool.and_eq_true, hc, Option.all_some] at hv
  have hc := hv.2
  split at hc
  · next he =>
    simp only [Bool.or_eq_true, beq_iff_eq] at hc
    refine ⟨by rcases hc with rfl | rfl <;> decide, fun hnone => ?_⟩
    rw [hnone] at he
    cases he
  · simp only [Bool.and_eq_true, Bool.or_eq_true, beq_iff_eq] at hc
    rcases hc.2 with rfl | rfl <;> exact ⟨by decide, fun _ => by decide⟩

theorem body_suffix {h : Hexadecimal} (hv : h.valid = true) :
    ∀ c ∈ h.suffix.toList, (c.isAlphanum || c == '.') = true := by
  intro c hc
  have hmem := (suffix_of_valid hv (Option.mem_toList.1 hc)).1
  simp only [List.mem_cons, List.not_mem_nil, or_false] at hmem
  rcases hmem with rfl | rfl | rfl | rfl <;> decide

/-- A hexadecimal number has no sign but in its exponent. -/
theorem body_text {h : Hexadecimal} (hv : h.valid = true) (hnone : ∀ e, h.exponent = some e → e.sign = none) :
    ∀ c ∈ h.text, (c.isAlphanum || c == '.') = true := by
  intro c hc
  rcases List.mem_append.1 hc with hc | hc
  · exact body_mantissa hv c hc
  rcases List.mem_append.1 hc with hc | hc
  · cases he : h.exponent with
    | none =>
      rw [he] at hc
      cases hc
    | some e =>
      obtain ⟨⟨hletter, -⟩, hdigits, -⟩ := isBinary_of_valid hv he
      have htext : e.text = e.letter :: e.digits := by rw [Exponent.text, hnone e he]; rfl
      rw [he, Option.map_some, Option.getD_some, htext] at hc
      rcases List.mem_cons.1 hc with rfl | hc
      · rcases hletter with hl | hl <;> rw [hl] <;> rfl
      · simp [Char.isAlphanum, List.all_eq_true.1 hdigits c hc]
  · exact body_suffix hv c hc

theorem isRun_hexadecimal {h : Hexadecimal} (hv : h.valid = true) : IsRun (hexadecimal h).last := by
  rcases hexadecimal_cases h with ⟨letter, sign, digits, he, -, hlast⟩ | ⟨hnone, -, hlast⟩
  · obtain ⟨-, hdigits, hne⟩ := isBinary_of_valid hv he
    rw [hlast]
    exact (isRun_digits hdigits hne).append (taken_of_body (body_suffix hv) _)
  · rw [hlast]
    exact ⟨'0', _, rfl, rfl, taken_of_body (fun c hc => body_text hv hnone c (List.mem_cons_of_mem _ hc)) false⟩

theorem isRun_last {l : Numeric} (hl : l.valid = true) : IsRun l.last := by
  cases l with
  | decimal d => exact isRun_decimal (Bool.and_eq_true_iff.1 hl).1
  | hexadecimal h => exact isRun_hexadecimal hl

theorem scanFrom_mark {c : Char} (hc : c ∈ ['.', '+', '-']) (a : Bool) (rest : List Char) :
    scanFrom a (c :: rest) = .other [c] :: scanFrom (attaches a c) rest := by
  have hpiece : piece c rest = ⟨.mark, [], rest⟩ := by
    refine piece_mark ?_ ?_
    · simp only [List.mem_cons, List.not_mem_nil, or_false] at hc
      rcases hc with rfl | rfl | rfl <;> decide
    · simp only [List.mem_cons, List.not_mem_nil, or_false] at hc
      rcases hc with rfl | rfl | rfl <;> rfl
  rw [scanFrom]
  simp only [hpiece]

/-- What is read before the last piece of a number. -/
theorem scanFrom_front {l : Numeric} (hl : l.valid = true) (a : Bool) (rest : List Char) :
    ∃ b, scanFrom a (l.front.flatten ++ rest) = l.front.map .other ++ scanFrom b rest := by
  cases l with
  | decimal d =>
    rw [show (decimal d).front = if d.whole.isEmpty then [['.']] else [] from rfl]
    split
    · exact ⟨attaches a '.', scanFrom_mark (by decide) a rest⟩
    · exact ⟨a, rfl⟩
  | hexadecimal h =>
    rcases hexadecimal_cases h with ⟨letter, sign, digits, he, hfront, -⟩ | ⟨-, hfront, -⟩
    · obtain ⟨⟨hletter, hsign⟩, -, -⟩ := isBinary_of_valid hl he
      have hsign := hsign sign rfl
      have hmark : sign ∈ ['.', '+', '-'] := by rcases hsign with rfl | rfl <;> decide
      -- The letter of a binary exponent takes no sign.
      have hrun : IsRun (h.mantissa ++ [letter]) := by
        refine (isRun_mantissa hl).append (taken_of_body (fun c hc => ?_) _)
        rw [List.mem_singleton.1 hc]
        rcases hletter with hl | hl <;> rw [show letter = _ from hl] <;> rfl
      have hsigned : signedAfter false (h.mantissa ++ [letter]) = false := by
        rw [signedAfter_append]
        rcases hletter with hl | hl <;> rw [show letter = _ from hl] <;> rfl
      have hstop : (spanNumber false (sign :: rest)).1 = [] := by
        rw [spanNumber_eq_nil_iff]
        rcases hsign with rfl | rfl <;> rfl
      refine ⟨attaches false sign, ?_⟩
      rw [hfront]
      have htext : [h.mantissa ++ [letter], [sign]].flatten ++ rest = (h.mantissa ++ [letter]) ++ (sign :: rest) := by simp
      rw [htext, hrun.scanFrom, hsigned, spanNumber_snd hstop, hstop, List.append_nil, scanFrom_mark hmark]
      rfl
    · exact ⟨a, by rw [hfront]; rfl⟩

/-- The tokens of a number and of the text after it: the last piece takes with it what the scanner goes on with. -/
theorem scanFrom_literal {l : Numeric} (hl : l.valid = true) (a : Bool) (rest : List Char) :
    scanFrom a (l.text ++ rest) = l.front.map .other ++
      .other (l.last ++ (spanNumber (signedAfter false l.text) rest).1) ::
        scanFrom false (spanNumber (signedAfter false l.text) rest).2 := by
  have hsigned : signedAfter false l.text = signedAfter false l.last := by
    obtain ⟨c, cs, hlast, -, -⟩ := isRun_last hl
    rw [← flatten_front_last hl, signedAfter_append, hlast]
    rfl
  obtain ⟨b, hfront⟩ := scanFrom_front hl a (l.last ++ rest)
  rw [hsigned, ← flatten_front_last hl, List.append_assoc, hfront, (isRun_last hl).scanFrom]

/-- The scanner goes on after a number where it takes more than the number. -/
theorem runsOn_eq_false_iff {l : Numeric} {rest : List Char} :
    l.runsOn rest = false ↔ (spanNumber (signedAfter false l.text) rest).1 = [] := by
  rw [spanNumber_eq_nil_iff, signedAfter_eq]
  cases h : l.text.getLast? <;> simp [runsOn, h]

end Numeric

end ScreenFusion.Wgsl
