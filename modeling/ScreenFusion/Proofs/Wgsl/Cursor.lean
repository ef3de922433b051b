import Mathlib.Data.String.Basic
import ScreenFusion.Proofs.Wgsl.Lexeme

/-!
# ScreenFusion.Proofs.Wgsl.Cursor — scanning the bytes of a text

A text can be scanned byte by byte: a cursor stands before a byte, and the bytes from there on decide what kind of piece
begins and where it ends.  Each piece is then cut out of the text, which can only be done between two characters.  No test
tells one byte of a longer character from another, so that all cuts are between characters, and what is cut out are the
tokens of the text.

* `AsciiTest.bytes`: a test for ASCII characters takes the bytes of a character as it takes the character.
* `skipWhile`, `blockEnd`, `numberEnd`: the loops over bytes, and where they end in a text of characters.
* `slice?`, `pieceAt?`, `scanBytes`: the cuts that a text allows, and scanning with a cursor.
* `scanBytesFrom_eq`: the cursor finds the tokens.
* `scan_lossless`: nothing is lost by scanning, and only names with substitutes are changed by renaming.
-/

namespace ScreenFusion.Wgsl

/-! ## Bytes -/

/-- The bytes that characters are encoded by. -/
def utf8 (cs : List Char) : List UInt8 := cs.flatMap String.utf8EncodeChar

/-- The bytes of a text. -/
def bytes (source : String) : List UInt8 := source.toByteArray.data.toList

/-- A byte as the character of that number, as which it is tested. -/
def asChar (b : UInt8) : Char := Char.ofNat b.toNat

/-- Whether a character stands at a place. -/
def standsAt (bs : List UInt8) (i : Nat) (c : Char) : Bool := bs[i]?.map asChar == some c

theorem utf8_cons (c : Char) (cs : List Char) : utf8 (c :: cs) = String.utf8EncodeChar c ++ utf8 cs := rfl

theorem utf8_append (cs ds : List Char) : utf8 (cs ++ ds) = utf8 cs ++ utf8 ds := List.flatMap_append

theorem bytes_ofList (cs : List Char) : bytes (String.ofList cs) = utf8 cs := by
  rw [bytes, String.toByteArray_ofList, List.utf8Encode, List.data_toByteArray, List.toList_toArray, utf8]

theorem length_utf8 (cs : List Char) : (utf8 cs).length = String.utf8Len cs := by
  induction cs with
  | nil => rfl
  | cons c cs ih =>
    rw [utf8_cons, List.length_append, String.length_utf8EncodeChar, ih, String.utf8Len_cons, Nat.add_comm]

theorem toNat_asChar (b : UInt8) : (asChar b).toNat = b.toNat := by
  have hvalid : b.toNat.isValidChar := .inl (Nat.lt_trans b.toNat_lt (by decide))
  rw [asChar, Char.ofNat, dif_pos hvalid]
  rfl

/-- A character is encoded by one byte, which is tested as the character itself, or by bytes that are all beyond ASCII, as
is the character. -/
theorem utf8EncodeChar_cases (c : Char) :
    (∃ b, String.utf8EncodeChar c = [b] ∧ asChar b = c) ∨
      128 ≤ c.toNat ∧ ∀ b ∈ String.utf8EncodeChar c, 128 ≤ (asChar b).toNat := by
  have hbeyond (n m : Nat) (h : 128 ≤ m) (hlt : n + m < 256) : 128 ≤ (asChar (UInt8.ofNat (n + m))).toNat := by
    rw [toNat_asChar, UInt8.toNat_ofNat_of_lt' hlt]
    omega
  fun_cases String.utf8EncodeChar c with
  | case1 v h =>
    refine .inl ⟨_, rfl, ?_⟩
    have hlt : v < 256 := Nat.lt_of_le_of_lt h (by decide)
    rw [asChar, UInt8.toNat_ofNat_of_lt' hlt]
    exact Char.ofNat_toNat c
  | case2 v h =>
    refine .inr ⟨Nat.lt_of_not_le h, ?_⟩
    simp only [List.forall_mem_cons]
    exact ⟨hbeyond _ _ (by decide) (by omega), hbeyond _ _ (by decide) (by omega), nofun⟩
  | case3 v h =>
    refine .inr ⟨Nat.lt_of_not_le h, ?_⟩
    simp only [List.forall_mem_cons]
    exact ⟨hbeyond _ _ (by decide) (by omega), hbeyond _ _ (by decide) (by omega), hbeyond _ _ (by decide) (by omega),
      nofun⟩
  | case4 v h =>
    refine .inr ⟨Nat.lt_of_not_le h, ?_⟩
    simp only [List.forall_mem_cons]
    exact ⟨hbeyond _ _ (by decide) (by omega), hbeyond _ _ (by decide) (by omega), hbeyond _ _ (by decide) (by omega),
      hbeyond _ _ (by decide) (by omega), nofun⟩

/-- Whether a test does not tell characters beyond ASCII from one another. -/
def AsciiTest (test : Char → Bool) : Prop := ∀ c d : Char, 128 ≤ c.toNat → 128 ≤ d.toNat → test c = test d

/-- Such a test lets all bytes of a character pass if the character passes, and none otherwise. -/
theorem AsciiTest.bytes {test : Char → Bool} (htest : AsciiTest test) (c : Char) :
    ∀ b ∈ String.utf8EncodeChar c, test (asChar b) = test c := by
  rcases utf8EncodeChar_cases c with ⟨b, hb, hc⟩ | ⟨hc, hb⟩
  · rw [hb, List.forall_mem_singleton, hc]
  · exact fun b hmem => htest _ _ (hb b hmem) hc

theorem AsciiTest.of_lt {test : Char → Bool} (h : ∀ c, test c = true → c.toNat < 128) : AsciiTest test := by
  have hbeyond (c : Char) (hc : 128 ≤ c.toNat) : test c = false :=
    Bool.eq_false_iff.2 fun ht => Nat.not_lt.2 hc (h c ht)
  exact fun c d hc hd => (hbeyond c hc).trans (hbeyond d hd).symm

theorem asciiTest_beq {c : Char} (hc : c.toNat < 128) : AsciiTest (· == c) :=
  .of_lt fun d hd => by rwa [beq_iff_eq.1 hd]

/-- All such tests take the first byte of a text as its first character. -/
theorem exists_first_byte (c : Char) (cs : List Char) :
    ∃ b rest, utf8 (c :: cs) = b :: rest ∧ ∀ test, AsciiTest test → test (asChar b) = test c := by
  cases hb : String.utf8EncodeChar c with
  | nil =>
    have hpos : 0 < (String.utf8EncodeChar c).length := by
      rw [String.length_utf8EncodeChar]
      exact Char.utf8Size_pos c
    rw [hb] at hpos
    cases hpos
  | cons b more =>
    refine ⟨b, more ++ utf8 cs, by rw [utf8_cons, hb, List.cons_append], fun test htest => ?_⟩
    exact htest.bytes c b (by rw [hb]; exact List.mem_cons_self)

theorem lt_of_isAlphanum {c : Char} (hc : c.isAlphanum = true) : c.toNat < 128 := by
  have hupper : c.isUpper = true → c.toNat ≤ 90 := fun h => (of_decide_eq_true h).2
  have hlower : c.isLower = true → c.toNat ≤ 122 := fun h => of_decide_eq_true (Bool.and_eq_true_iff.1 h).2
  have hdigit : c.isDigit = true → c.toNat ≤ 57 := fun h => (Char.isDigit_iff_toNat.1 h).2
  rcases Bool.or_eq_true_iff.1 hc with h | h
  · rcases Bool.or_eq_true_iff.1 h with h | h
    · have hle := hupper h
      omega
    · have hle := hlower h
      omega
  · have hle := hdigit h
    omega

theorem lt_of_isNameRest {c : Char} (hc : isNameRest c = true) : c.toNat < 128 := by
  rcases Bool.or_eq_true_iff.1 hc with h | h
  · exact lt_of_isAlphanum h
  · rw [beq_iff_eq.1 h]
    decide

/-! ## Loops over bytes -/

/-- Whether a character goes on a number. -/
def isNumberRest (c : Char) : Bool := c.isAlphanum || c == '.'

/-- Whether a character is the sign of an exponent. -/
def isSign (c : Char) : Bool := c == '+' || c == '-'

theorem lt_of_isNumberRest {c : Char} (hc : isNumberRest c = true) : c.toNat < 128 := by
  rcases Bool.or_eq_true_iff.1 hc with h | h
  · exact lt_of_isAlphanum h
  · rw [beq_iff_eq.1 h]
    decide

/-- A sign is no other character of a number, and not the letter of an exponent. -/
theorem sign_facts {c : Char} (hc : isSign c = true) :
    c.toNat < 128 ∧ isNumberRest c = false ∧ (c == 'e' || c == 'E') = false := by
  rcases Bool.or_eq_true_iff.1 hc with h | h <;>
  · rw [beq_iff_eq.1 h]
    decide

/-- The place where bytes that pass a test end. -/
def skipWhile (test : Char → Bool) (bs : List UInt8) (i : Nat) : Nat :=
  if _h : i < bs.length then
    if test (asChar bs[i]) then skipWhile test bs (i + 1) else i
  else i
termination_by bs.length - i

/-- The place of the first end mark of a block comment, or the end of the bytes. -/
def blockEnd (bs : List UInt8) (i : Nat) : Nat :=
  if i < bs.length then
    if standsAt bs i '*' && standsAt bs (i + 1) '/' then i else blockEnd bs (i + 1)
  else i
termination_by bs.length - i

/-- The place after a sign, if one may stand there and does. -/
def passSign (signed : Bool) (bs : List UInt8) (i : Nat) : Nat :=
  if signed && (standsAt bs i '+' || standsAt bs i '-') then i + 1 else i

theorem le_passSign (signed : Bool) (bs : List UInt8) (i : Nat) : i ≤ passSign signed bs i := by
  unfold passSign
  split
  · exact Nat.le_succ i
  · exact Nat.le_refl i

/-- The place where a number ends: a sign right after a letter `e` is passed over. -/
def numberEnd (bs : List UInt8) (i : Nat) : Nat :=
  if _h : i < bs.length then
    if isNumberRest (asChar bs[i]) then
      numberEnd bs (passSign (asChar bs[i] == 'e' || asChar bs[i] == 'E') bs (i + 1))
    else i
  else i
termination_by bs.length - i
decreasing_by
  have hle := le_passSign (asChar bs[i] == 'e' || asChar bs[i] == 'E') bs (i + 1)
  omega

section

variable {test : Char → Bool} {bs rest : List UInt8} {i : Nat} {b : UInt8}

theorem le_skipWhile (test : Char → Bool) (bs : List UInt8) (i : Nat) : i ≤ skipWhile test bs i := by
  fun_induction skipWhile test bs i with
  | case1 i _ _ ih => exact Nat.le_of_succ_le ih
  | case2 => exact Nat.le_refl _
  | case3 => exact Nat.le_refl _

theorem le_blockEnd (bs : List UInt8) (i : Nat) : i ≤ blockEnd bs i := by
  fun_induction blockEnd bs i with
  | case1 => exact Nat.le_refl _
  | case2 i _ _ ih => exact Nat.le_of_succ_le ih
  | case3 => exact Nat.le_refl _

theorem le_numberEnd (bs : List UInt8) (i : Nat) : i ≤ numberEnd bs i := by
  fun_induction numberEnd bs i with
  | case1 i _ _ ih => exact Nat.le_of_succ_le (Nat.le_trans (le_passSign _ bs (i + 1)) ih)
  | case2 => exact Nat.le_refl _
  | case3 => exact Nat.le_refl _

theorem standsAt_drop (h : bs.drop i = b :: rest) (c : Char) : standsAt bs i c = (asChar b == c) := by
  have hget : bs[i]? = some b := by rw [← List.head?_drop, h, List.head?_cons]
  rw [standsAt, hget]
  rfl

theorem standsAt_drop_nil (h : bs.drop i = []) (c : Char) : standsAt bs i c = false := by
  have hget : bs[i]? = none := by rw [← List.head?_drop, h, List.head?_nil]
  rw [standsAt, hget]
  rfl

theorem drop_succ (h : bs.drop i = b :: rest) : bs.drop (i + 1) = rest := by
  rw [← List.tail_drop, h, List.tail_cons]

theorem drop_add_length {passed : List UInt8} (h : bs.drop i = passed ++ rest) : bs.drop (i + passed.length) = rest := by
  rw [← List.drop_drop, h, List.drop_left]

theorem lt_length_of_drop (h : bs.drop i = b :: rest) : i < bs.length := by
  by_contra hle
  rw [List.drop_eq_nil_of_le (Nat.not_lt.1 hle)] at h
  cases h

theorem skipWhile_nil (h : bs.drop i = []) : skipWhile test bs i = i := by
  rw [skipWhile, dif_neg (Nat.not_lt.2 (List.drop_eq_nil_iff.1 h))]

theorem skipWhile_cons (h : bs.drop i = b :: rest) :
    skipWhile test bs i = if test (asChar b) then skipWhile test bs (i + 1) else i := by
  have hlt := lt_length_of_drop h
  have hget : bs[i] = b := by
    rw [List.drop_eq_getElem_cons hlt] at h
    exact (List.cons.inj h).1
  rw [skipWhile, dif_pos hlt, hget]

theorem skipWhile_append {passed : List UInt8} (h : bs.drop i = passed ++ rest)
    (hpass : ∀ b ∈ passed, test (asChar b)) :
    skipWhile test bs i = skipWhile test bs (i + passed.length) := by
  induction passed generalizing i with
  | nil => rfl
  | cons b passed ih =>
    rw [List.forall_mem_cons] at hpass
    rw [skipWhile_cons h, if_pos hpass.1, ih (drop_succ h) hpass.2, List.length_cons, Nat.add_assoc, Nat.add_comm 1]

theorem skipWhile_utf8 (htest : AsciiTest test) {cs : List Char} (h : bs.drop i = utf8 cs) :
    skipWhile test bs i = i + String.utf8Len (cs.takeWhile test) := by
  induction cs generalizing i with
  | nil => exact skipWhile_nil h
  | cons c cs ih =>
    cases hc : test c with
    | true =>
      rw [utf8_cons] at h
      rw [skipWhile_append h fun b hb => (htest.bytes c b hb).trans hc, ih (drop_add_length h),
        List.takeWhile_cons_of_pos hc, String.utf8Len_cons, String.length_utf8EncodeChar]
      omega
    | false =>
      obtain ⟨b, more, hb, hfirst⟩ := exists_first_byte c cs
      rw [skipWhile_cons (h.trans hb), hfirst test htest, hc, List.takeWhile_cons_of_neg (Bool.eq_false_iff.1 hc)]
      rfl

theorem standsAt_utf8 {cs : List Char} (h : bs.drop i = utf8 cs) {c : Char} (hc : c.toNat < 128) :
    standsAt bs i c = (cs.head? == some c) := by
  cases cs with
  | nil => exact standsAt_drop_nil h c
  | cons d ds =>
    obtain ⟨b, more, hb, hfirst⟩ := exists_first_byte d ds
    rw [standsAt_drop (h.trans hb), hfirst _ (asciiTest_beq hc), List.head?_cons, Option.some_beq_some]

theorem blockEnd_append {passed : List UInt8} (h : bs.drop i = passed ++ rest)
    (hpass : ∀ b ∈ passed, asChar b ≠ '*') :
    blockEnd bs i = blockEnd bs (i + passed.length) := by
  induction passed generalizing i with
  | nil => rfl
  | cons b passed ih =>
    rw [List.forall_mem_cons] at hpass
    rw [blockEnd, if_pos (lt_length_of_drop h), standsAt_drop h, beq_false_of_ne hpass.1, Bool.false_and,
      if_neg Bool.false_ne_true, ih (drop_succ h) hpass.2, List.length_cons, Nat.add_assoc, Nat.add_comm 1]

theorem blockEnd_utf8 {cs : List Char} (h : bs.drop i = utf8 cs) (hle : i ≤ bs.length) :
    min (blockEnd bs i + 2) bs.length = i + String.utf8Len (spanBlock cs).1 := by
  fun_induction spanBlock cs generalizing i with
  | case1 =>
    have hend : bs.length ≤ i := List.drop_eq_nil_iff.1 h
    rw [blockEnd, if_neg (Nat.not_lt.2 hend), Nat.min_eq_right (Nat.le_add_right_of_le hend)]
    exact Nat.le_antisymm hend hle
  | case2 rest =>
    have hstar : standsAt bs i '*' = true := standsAt_utf8 h (by decide)
    have hslash : standsAt bs (i + 1) '/' = true := standsAt_utf8 (drop_succ h) (by decide)
    have hlen : (bs.drop i).length = 2 + (utf8 rest).length := by
      rw [h, utf8_cons, utf8_cons, List.length_append, List.length_append, ← Nat.add_assoc]
      rfl
    rw [List.length_drop] at hlen
    rw [blockEnd, if_pos (by omega), hstar, hslash, Bool.and_self, if_pos rfl, Nat.min_eq_left (by omega)]
    rfl
  | case3 c cs hopen body rest hspan ih =>
    have hstop : (standsAt bs i '*' && standsAt bs (i + 1) '/') = false := by
      rw [standsAt_utf8 h (by decide), List.head?_cons, Option.some_beq_some]
      by_cases hc : c = '*'
      · subst hc
        rw [standsAt_utf8 (drop_succ h) (by decide)]
        cases cs with
        | nil => rfl
        | cons d ds => simpa using fun hd : d = '/' => hopen ds rfl (by rw [hd])
      · rw [beq_false_of_ne hc, Bool.false_and]
    have hstep : blockEnd bs i = blockEnd bs (i + (String.utf8EncodeChar c).length) := by
      rw [utf8_cons] at h
      rcases utf8EncodeChar_cases c with ⟨b, hb, -⟩ | ⟨-, hb⟩
      · rw [hb, List.singleton_append] at h
        rw [hb, List.length_singleton, blockEnd, if_pos (lt_length_of_drop h), hstop, if_neg Bool.false_ne_true]
      · refine blockEnd_append h fun b hmem hstar => ?_
        exact absurd (hstar ▸ hb b hmem) (by decide)
    have hdrop : bs.drop (i + (String.utf8EncodeChar c).length) = utf8 cs := drop_add_length h
    have hlen : (String.utf8EncodeChar c).length ≤ bs.length - i := by
      rw [← List.length_drop, h, utf8_cons, List.length_append]
      exact Nat.le_add_right _ _
    rw [hstep, ih hdrop (by omega), hspan, String.length_utf8EncodeChar, Nat.add_assoc, Nat.add_comm c.utf8Size]
    exact congrArg (i + ·) (String.utf8Len_cons c body).symm

theorem numberEnd_nil (h : bs.drop i = []) : numberEnd bs i = i := by
  rw [numberEnd, dif_neg (Nat.not_lt.2 (List.drop_eq_nil_iff.1 h))]

theorem numberEnd_cons (h : bs.drop i = b :: rest) :
    numberEnd bs i =
      if isNumberRest (asChar b) then
        numberEnd bs (passSign (asChar b == 'e' || asChar b == 'E') bs (i + 1))
      else i := by
  have hlt := lt_length_of_drop h
  have hget : bs[i] = b := by
    rw [List.drop_eq_getElem_cons hlt] at h
    exact (List.cons.inj h).1
  rw [numberEnd, dif_pos hlt, hget]

theorem passSign_utf8 {cs : List Char} (h : bs.drop i = utf8 cs) (signed : Bool) :
    passSign signed bs i = if signed && cs.head?.any isSign then i + 1 else i := by
  rw [passSign, standsAt_utf8 h (by decide), standsAt_utf8 h (by decide)]
  cases cs <;> rfl

theorem numberEnd_passSign {signed : Bool} {cs : List Char} (h : bs.drop i = utf8 cs) :
    numberEnd bs (passSign signed bs i) = i + String.utf8Len (spanNumber signed cs).1 := by
  fun_induction spanNumber signed cs generalizing i with
  | case1 signed =>
    rw [passSign_utf8 h, List.head?_nil, Option.any_none, Bool.and_false, if_neg Bool.false_ne_true]
    exact numberEnd_nil h
  | case2 signed c cs hc body rest hspan ih =>
    have hlt : c.toNat < 128 := by
      rcases Bool.or_eq_true_iff.1 hc with hc | hc
      · exact lt_of_isNumberRest hc
      · exact (sign_facts (Bool.and_eq_true_iff.1 hc).2).1
    obtain ⟨b, hb, rfl⟩ := (utf8EncodeChar_cases c).resolve_right fun h => Nat.not_lt.2 h.1 hlt
    have hbytes : bs.drop i = b :: utf8 cs := by rw [h, utf8_cons, hb, List.singleton_append]
    have hlen : String.utf8Len (asChar b :: body) = 1 + String.utf8Len body := by
      rw [String.utf8Len_cons, ← String.length_utf8EncodeChar, hb, List.length_singleton, Nat.add_comm]
    have hgoes : numberEnd bs (passSign signed bs i) =
        numberEnd bs (passSign (asChar b == 'e' || asChar b == 'E') bs (i + 1)) := by
      rw [passSign_utf8 h, List.head?_cons, Option.any_some]
      cases hsign : isSign (asChar b) with
      | false =>
        have hrest : isNumberRest (asChar b) = true :=
          (Bool.or_eq_true_iff.1 hc).resolve_right fun h =>
            Bool.eq_false_iff.1 hsign (Bool.and_eq_true_iff.1 h).2
        rw [Bool.and_false, if_neg Bool.false_ne_true, numberEnd_cons hbytes, if_pos hrest]
      | true =>
        obtain ⟨-, hrest, hexponent⟩ := sign_facts hsign
        have hsigned : signed = true :=
          (Bool.and_eq_true_iff.1 ((Bool.or_eq_true_iff.1 hc).resolve_left (Bool.eq_false_iff.1 hrest))).1
        rw [hsigned, Bool.true_and, if_pos rfl, hexponent, passSign, Bool.false_and, if_neg Bool.false_ne_true]
    rw [hgoes, ih (drop_succ hbytes), hspan, hlen, Nat.add_assoc]
  | case3 signed c cs hc =>
    obtain ⟨hrest, hsign⟩ : ¬isNumberRest c = true ∧ ¬(signed && isSign c) = true :=
      not_or.1 (mt Bool.or_eq_true_iff.2 hc)
    obtain ⟨b, more, hb, hfirst⟩ := exists_first_byte c cs
    have hstop : ¬isNumberRest (asChar b) = true := by
      rwa [hfirst _ (.of_lt fun _ => lt_of_isNumberRest)]
    rw [passSign_utf8 h, List.head?_cons, Option.any_some, if_neg hsign, numberEnd_cons (h.trans hb), if_neg hstop]
    rfl

end

/-! ## Scanning bytes -/

/-- The text between two places, if both are between characters of the text. -/
def slice? (source : String) (i j : Nat) : Option (List Char) :=
  if i ≤ j ∧ String.Pos.Raw.IsValid source ⟨i⟩ ∧ String.Pos.Raw.IsValid source ⟨j⟩ then
    some (String.Pos.Raw.extract source ⟨i⟩ ⟨j⟩).toList
  else none

/-- What kind of piece begins at a place with a byte, and where the piece ends. -/
def pieceAt? (source : String) (i : Nat) (b : UInt8) : Option (PieceKind × Nat) :=
  if asChar b = '/' ∧ standsAt (bytes source) (i + 1) '/' then
    some (.comment, skipWhile (· ≠ '\n') (bytes source) i)
  else if asChar b = '/' ∧ standsAt (bytes source) (i + 1) '*' then
    some (.comment, min (blockEnd (bytes source) (i + 2) + 2) (bytes source).length)
  else if isNameStart (asChar b) then some (.name, skipWhile isNameRest (bytes source) i)
  else if (asChar b).isDigit then some (.number, numberEnd (bytes source) i)
  else
    -- A mark may be a character of several bytes.
    (slice? source i (bytes source).length).map fun rest => (.mark, i + (rest.head?.map Char.utf8Size).getD 1)

/-- The last byte that counts, after a piece that begins with a byte; names and numbers are alike to what follows. -/
def lastAfter (kind : PieceKind) (b : UInt8) (last : Option UInt8) : Option UInt8 :=
  match kind with
  | .comment => last
  | .name => some 'a'.toUInt8
  | .number => some '0'.toUInt8
  | .mark => if isAsciiSpace (asChar b) then last else some b

/-- Whether the last byte that counts makes a name a member or an attribute. -/
def attachedBy (last : Option UInt8) : Bool := last.any fun b => asChar b == '.' || asChar b == '@'

/-- The token of a piece. -/
def PieceKind.token (kind : PieceKind) (attached : Bool) (text : List Char) : Token :=
  match kind with
  | .name => .name text (!attached)
  | _ => .other text

/-- Each piece has at least one byte. -/
theorem lt_of_pieceAt? {source : String} {i : Nat} (hi : i < (bytes source).length) {kind : PieceKind} {stop : Nat}
    (h : pieceAt? source i (bytes source)[i] = some (kind, stop)) : i < stop := by
  have hdrop := List.drop_eq_getElem_cons hi
  have hskip {test : Char → Bool} (htest : test (asChar (bytes source)[i]) = true) :
      i < skipWhile test (bytes source) i := by
    rw [skipWhile_cons hdrop, if_pos htest]
    exact le_skipWhile test (bytes source) (i + 1)
  unfold pieceAt? at h
  split at h
  · next hline =>
    cases h
    exact hskip (by rw [hline.1]; decide)
  · split at h
    · cases h
      exact Nat.lt_min.2 ⟨Nat.lt_of_lt_of_le (by omega) (Nat.add_le_add_right (le_blockEnd _ (i + 2)) 2), hi⟩
    · split at h
      · next hstart =>
        cases h
        exact hskip (isNameRest_of_isNameStart hstart)
      · split at h
        · next hdigit =>
          cases h
          have hrest : isNumberRest (asChar (bytes source)[i]) = true := by
            simp [isNumberRest, Char.isAlphanum, hdigit]
          rw [numberEnd_cons hdrop, if_pos hrest]
          exact Nat.lt_of_lt_of_le (Nat.lt_succ_self i) (Nat.le_trans (le_passSign _ _ _) (le_numberEnd _ _))
        · obtain ⟨rest, -, hstop⟩ := Option.map_eq_some_iff.1 h
          cases hstop
          cases rest with
          | nil => exact Nat.lt_succ_self i
          | cons c cs => exact Nat.lt_add_of_pos_right (Char.utf8Size_pos c)

/-- The tokens of a text from a place on; nothing if the text would have to be cut inside of a character. -/
def scanBytesFrom (source : String) (i : Nat) (last : Option UInt8) : Option (List Token) :=
  if hi : i < (bytes source).length then
    match hpiece : pieceAt? source i (bytes source)[i] with
    | none => none
    | some (kind, stop) =>
      (slice? source i stop).bind fun text =>
        (scanBytesFrom source stop (lastAfter kind (bytes source)[i] last)).map fun tokens =>
          kind.token (attachedBy last) text :: tokens
  else some []
termination_by (bytes source).length - i
decreasing_by
  have hlt := lt_of_pieceAt? hi hpiece
  omega

/-- The tokens of a text, byte by byte. -/
def scanBytes (source : String) : Option (List Token) := scanBytesFrom source 0 none

/-! ## The tokens -/

section

variable {before cs rest : List Char} {i : Nat} {b : UInt8} {bs : List UInt8}

theorem slice?_eq (before text rest : List Char) :
    slice? (String.ofList (before ++ text ++ rest)) (String.utf8Len before)
      (String.utf8Len before + String.utf8Len text) = some text := by
  have hfront : String.Pos.Raw.IsValid (String.ofList (before ++ text ++ rest)) ⟨String.utf8Len before⟩ :=
    String.Pos.Raw.isValid_iff_exists_append.2 ⟨String.ofList before, String.ofList (text ++ rest),
      by rw [← String.ofList_append, List.append_assoc], (String.rawEndPos_ofList before).symm⟩
  have hback : String.Pos.Raw.IsValid (String.ofList (before ++ text ++ rest))
      ⟨String.utf8Len before + String.utf8Len text⟩ :=
    String.Pos.Raw.isValid_iff_exists_append.2 ⟨String.ofList (before ++ text), String.ofList rest,
      by rw [← String.ofList_append], by rw [String.rawEndPos_ofList, String.utf8Len_append]⟩
  rw [slice?, if_pos ⟨Nat.le_add_right _ _, hfront, hback⟩, String.extract_of_valid, String.toList_ofList]

theorem drop_bytes (before cs : List Char) :
    (bytes (String.ofList (before ++ cs))).drop (String.utf8Len before) = utf8 cs := by
  rw [bytes_ofList, utf8_append, ← length_utf8, List.drop_left]

theorem length_bytes (cs : List Char) : (bytes (String.ofList cs)).length = String.utf8Len cs := by
  rw [bytes_ofList, length_utf8]

theorem slice?_tail (before cs : List Char) :
    slice? (String.ofList (before ++ cs)) (String.utf8Len before) (bytes (String.ofList (before ++ cs))).length =
      some cs := by
  rw [length_bytes, String.utf8Len_append]
  simpa using slice?_eq before cs []

theorem asciiTest_isNameStart : AsciiTest isNameStart :=
  .of_lt fun _ hc => lt_of_isNameRest (isNameRest_of_isNameStart hc)

theorem asciiTest_isNameRest : AsciiTest isNameRest := .of_lt fun _ => lt_of_isNameRest

theorem asciiTest_ne_lineFeed : AsciiTest fun c => decide (c ≠ '\n') := by
  intro c d hc hd
  have hne {c : Char} (hc : 128 ≤ c.toNat) : c ≠ '\n' := by
    rintro rfl
    exact absurd hc (by decide)
  exact (decide_eq_true (hne hc)).trans (decide_eq_true (hne hd)).symm

theorem asciiTest_isAsciiSpace : AsciiTest isAsciiSpace := by
  refine .of_lt fun c hc => ?_
  simp only [isAsciiSpace, Bool.or_eq_true, beq_iff_eq] at hc
  rcases hc with (((rfl | rfl) | rfl) | rfl) | rfl <;> decide

theorem asciiTest_isDigit : AsciiTest Char.isDigit :=
  .of_lt fun _ hc => lt_of_isAlphanum (Bool.or_eq_true_iff.2 (.inr hc))

theorem spanNumber_digit {c : Char} (hc : c.isDigit = true) (cs : List Char) :
    (spanNumber false (c :: cs)).1 = c :: (spanNumber false cs).1 := by
  have hplain := isPlain_of_isDigit hc
  simp only [isPlain, Bool.and_eq_true, bne_iff_ne, ne_eq] at hplain
  rw [spanNumber, if_pos (by simp [Char.isAlphanum, hc]), beq_false_of_ne hplain.1.2, beq_false_of_ne hplain.2]
  rfl

/-- Where a text goes on with a character, a cursor before it finds the piece that begins there. -/
theorem pieceAt?_eq (before : List Char) {c : Char} {cs : List Char} {b : UInt8} {rest : List UInt8}
    (hb : utf8 (c :: cs) = b :: rest) :
    pieceAt? (String.ofList (before ++ c :: cs)) (String.utf8Len before) b =
      some ((piece c cs).kind, String.utf8Len before + String.utf8Len (c :: (piece c cs).body)) := by
  have hdrop := drop_bytes before (c :: cs)
  obtain ⟨b', rest', hb', hfirst⟩ := exists_first_byte c cs
  obtain ⟨rfl, rfl⟩ := List.cons.inj (hb.symm.trans hb')
  have hmark : ((slice? (String.ofList (before ++ c :: cs)) (String.utf8Len before)
      (bytes (String.ofList (before ++ c :: cs))).length).map fun rest =>
        (PieceKind.mark, String.utf8Len before + (rest.head?.map Char.utf8Size).getD 1)) =
      some (.mark, String.utf8Len before + String.utf8Len [c]) := by
    rw [slice?_tail, Option.map_some, List.head?_cons, Option.map_some, Option.getD_some, String.utf8Len_cons,
      String.utf8Len_nil, Nat.zero_add]
  have hname := hfirst _ asciiTest_isNameStart
  have hdigit := hfirst _ asciiTest_isDigit
  have hslash : asChar b = '/' ↔ c = '/' := by
    rw [← beq_iff_eq, hfirst _ (asciiTest_beq (by decide)), beq_iff_eq]
  have hopen {d : Char} (hd : d.toNat < 128) :
      (c = '/' ∧ standsAt (bytes (String.ofList (before ++ c :: cs))) (String.utf8Len before + 1) d = true) ↔
        c = '/' ∧ cs.head? = some d := by
    refine and_congr_right fun hc => ?_
    subst hc
    rw [standsAt_utf8 (drop_succ hdrop) hd, beq_iff_eq]
  unfold pieceAt?
  simp only [hname, hdigit, hmark, hslash, hopen (show '/'.toNat < 128 by decide), hopen (show '*'.toNat < 128 by decide)]
  by_cases hline : c = '/' ∧ cs.head? = some '/'
  · rw [if_pos hline]
    obtain ⟨rfl, hhead⟩ := hline
    obtain ⟨ds, rfl⟩ := List.head?_eq_some_iff.1 hhead
    rw [skipWhile_utf8 asciiTest_ne_lineFeed hdrop, piece_line, List.takeWhile_cons_of_pos (by decide),
      List.takeWhile_cons_of_pos (by decide)]
  · rw [if_neg hline]
    by_cases hblock : c = '/' ∧ cs.head? = some '*'
    · rw [if_pos hblock]
      obtain ⟨rfl, hhead⟩ := hblock
      obtain ⟨ds, rfl⟩ := List.head?_eq_some_iff.1 hhead
      have hlen : (bytes (String.ofList (before ++ '/' :: '*' :: ds))).length =
          String.utf8Len before + (String.utf8Len ds + 1 + 1) := by
        rw [length_bytes, String.utf8Len_append]
        rfl
      rw [blockEnd_utf8 (drop_succ (drop_succ hdrop)) (by omega), piece_block, Nat.add_assoc, Nat.add_assoc,
        ← Nat.add_assoc 1, Nat.add_comm (1 + 1)]
      rfl
    · rw [if_neg hblock]
      by_cases hstart : isNameStart c = true
      · rw [if_pos hstart, skipWhile_utf8 asciiTest_isNameRest hdrop, piece_of_isNameStart hstart,
          List.takeWhile_cons_of_pos (isNameRest_of_isNameStart hstart)]
      · rw [if_neg hstart]
        by_cases hdigit : c.isDigit = true
        · rw [if_pos hdigit, piece_of_isDigit hdigit, ← spanNumber_digit hdigit, ← numberEnd_passSign hdrop]
          rfl
        · rw [if_neg hdigit, piece_of_mark (fun hc => ⟨fun h => hline ⟨hc, h⟩, fun h => hblock ⟨hc, h⟩⟩)
            (Bool.eq_false_iff.2 hstart) (Bool.eq_false_iff.2 hdigit)]

theorem scanBytesFrom_piece {source : String} {i stop : Nat} (hi : i < (bytes source).length) {kind : PieceKind}
    {text : List Char} (hpiece : pieceAt? source i (bytes source)[i] = some (kind, stop))
    (hslice : slice? source i stop = some text) (last : Option UInt8) :
    scanBytesFrom source i last =
      (scanBytesFrom source stop (lastAfter kind (bytes source)[i] last)).map fun tokens =>
        kind.token (attachedBy last) text :: tokens := by
  rw [scanBytesFrom, dif_pos hi]
  split
  · next h =>
    rw [hpiece] at h
    cases h
  · next h =>
    rw [hpiece] at h
    cases h
    rw [hslice, Option.bind_some]

/-- A piece leaves a name after it attached as the token of the piece does. -/
theorem scanFrom_cons (last : Option UInt8) (c : Char) (cs : List Char) {b : UInt8}
    (hb : ∀ test, AsciiTest test → test (asChar b) = test c) :
    scanFrom (attachedBy last) (c :: cs) =
      (piece c cs).kind.token (attachedBy last) (c :: (piece c cs).body) ::
        scanFrom (attachedBy (lastAfter (piece c cs).kind b last)) (piece c cs).rest := by
  rw [scanFrom]
  cases hkind : (piece c cs).kind with
  | comment => rfl
  | name => rfl
  | number => rfl
  | mark =>
    have hattaches : attaches (attachedBy last) c = attachedBy (lastAfter .mark b last) := by
      rw [attaches, lastAfter, hb _ asciiTest_isAsciiSpace]
      split
      · rfl
      · rw [attachedBy, Option.any_some, hb _ (asciiTest_beq (by decide)), hb _ (asciiTest_beq (by decide))]
    rw [← hattaches]
    rfl

/-- Byte by byte, a text is cut into its tokens from wherever a cursor stands between two characters. -/
theorem scanBytesFrom_eq (before cs : List Char) (last : Option UInt8) :
    scanBytesFrom (String.ofList (before ++ cs)) (String.utf8Len before) last =
      some (scanFrom (attachedBy last) cs) := by
  induction hn : cs.length using Nat.strong_induction_on generalizing before cs last with
  | _ n ih =>
    cases cs with
    | nil =>
      have hend : ¬String.utf8Len before < (bytes (String.ofList (before ++ []))).length := by
        rw [List.append_nil, length_bytes]
        exact Nat.lt_irrefl _
      rw [scanBytesFrom, dif_neg hend, scanFrom]
    | cons c cs =>
      obtain ⟨b, more, hb, hfirst⟩ := exists_first_byte c cs
      have hdrop := (drop_bytes before (c :: cs)).trans hb
      have hi := lt_length_of_drop hdrop
      have hget : (bytes (String.ofList (before ++ c :: cs)))[String.utf8Len before] = b := by
        rw [List.drop_eq_getElem_cons hi] at hdrop
        exact (List.cons.inj hdrop).1
      have hsplit : before ++ c :: cs = before ++ (c :: (piece c cs).body) ++ (piece c cs).rest := by
        rw [List.append_assoc, List.cons_append, piece_append]
      have hslice := slice?_eq before (c :: (piece c cs).body) (piece c cs).rest
      rw [← hsplit] at hslice
      have hpiece := pieceAt?_eq before hb
      rw [← hget] at hpiece
      have hrest := ih (piece c cs).rest.length (by
        have hle := length_rest_piece_le c cs
        simp only [List.length_cons] at hn
        omega) (before ++ c :: (piece c cs).body) (piece c cs).rest (lastAfter (piece c cs).kind b last) rfl
      rw [← hsplit, String.utf8Len_append] at hrest
      rw [scanBytesFrom_piece hi hpiece hslice, hget, hrest, Option.map_some, scanFrom_cons last c cs hfirst]

end

/-! ## What renaming leaves -/

/-- What may become of a token: it stands as it is, or it is a free name that has a substitute. -/
inductive Becomes (substitute : String → Option String) : Token → List Char → Prop
  | kept (t : Token) : Becomes substitute t t.text
  | replaced {name : List Char} {new : String} (h : substitute (String.ofList name) = some new) :
      Becomes substitute (.name name true) new.toList

theorem becomes_renameToken (substitute : String → Option String) (s : Scopes) (t : Token) :
    Becomes substitute t (renameToken substitute s t).1 := by
  cases t with
  | other text => exact .kept (.other text)
  | name text free =>
    cases free with
    | false => exact .kept (.name text false)
    | true =>
      cases hnew : if (s.name (String.ofList text)).1 then substitute (String.ofList text) else none with
      | none =>
        have htext : (renameToken substitute s (.name text true)).1 = text := by
          simp only [renameToken, hnew]
          rfl
        rw [htext]
        exact .kept (.name text true)
      | some new =>
        have htext : (renameToken substitute s (.name text true)).1 = new.toList := by
          simp only [renameToken, hnew]
          rfl
        rw [htext]
        refine .replaced ?_
        split at hnew
        · exact hnew
        · cases hnew

theorem exists_becomes (substitute : String → Option String) (s : Scopes) (ts : List Token) :
    ∃ texts, List.Forall₂ (Becomes substitute) ts texts ∧ renameTokens substitute s ts = texts.flatten := by
  induction ts generalizing s with
  | nil => exact ⟨[], .nil, rfl⟩
  | cons t ts ih =>
    obtain ⟨texts, htexts, hflatten⟩ := ih (renameToken substitute s t).2
    refine ⟨(renameToken substitute s t).1 :: texts, .cons (becomes_renameToken substitute s t) htexts, ?_⟩
    rw [renameTokens, List.flatten_cons, ← hflatten]

/-- What becomes of tokens none of which has a substitute is what they are. -/
theorem eq_text_of_becomes {substitute : String → Option String} {ts : List Token} {texts : List (List Char)}
    (h : List.Forall₂ (Becomes substitute) ts texts)
    (hnone : ∀ name, Token.name name true ∈ ts → substitute (String.ofList name) = none) :
    texts.flatten = ts.flatMap Token.text := by
  induction h with
  | nil => rfl
  | cons hfirst _ ih =>
    rw [List.flatten_cons, List.flatMap_cons, ih fun name hmem => hnone name (List.mem_cons_of_mem _ hmem)]
    cases hfirst with
    | kept => rfl
    | replaced hnew => exact absurd (hnone _ List.mem_cons_self) (by simp [hnew])

/-- Scanning ends with the tokens of the text, each cut out between two characters, and the tokens make up the text.
Renaming leaves a text alone if no free name of it has a substitute, and otherwise puts substitutes in the place of free
names and leaves everything else. -/
theorem scan_lossless (source : String) :
    scanBytes source = some (scan source.toList) ∧
      (scan source.toList).flatMap Token.text = source.toList ∧
      (∀ substitute : String → Option String,
        (∀ name, .name name true ∈ scan source.toList → substitute (String.ofList name) = none) →
          rename substitute source.toList = source.toList) ∧
      ∀ substitute, ∃ texts, List.Forall₂ (Becomes substitute) (scan source.toList) texts ∧
        rename substitute source.toList = texts.flatten := by
  have hbytes : scanBytes source = some (scan source.toList) := by
    have h := scanBytesFrom_eq [] source.toList none
    rwa [List.nil_append, String.ofList_toList] at h
  refine ⟨hbytes, text_scan source.toList, fun substitute hnone => ?_, fun substitute => ?_⟩
  · obtain ⟨texts, htexts, hflatten⟩ := exists_becomes substitute .start (scan source.toList)
    rw [rename, hflatten, eq_text_of_becomes htexts hnone, text_scan]
  · exact exists_becomes substitute .start (scan source.toList)

/-- A member is not free, so that it is not replaced, and neither is what a comment says. -/
theorem scan_lossless_member :
    rename (fun name => if name = "x" then some "y" else none) "é.x/*x".toList = "é.x/*x".toList := by
  refine (scan_lossless "é.x/*x").2.2.1 _ fun name hname => ?_
  have htokens : scan "é.x/*x".toList = [.other ['é'], .other ['.'], .name ['x'] false, .other ['/', '*', 'x']] := by
    decide +kernel
  rw [htokens] at hname
  simp at hname

end ScreenFusion.Wgsl
