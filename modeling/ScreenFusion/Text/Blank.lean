/-!
# ScreenFusion.Text.Blank — blank characters, trimming and words

A character is blank if the Unicode property `White_Space` holds of it.  Trimming removes blanks from the ends of
a text, `words` lists its maximal blank-free runs.

* `trimStart_append`: what is trimmed and what is left make up the text.
* `isBlank_of_isWhitespace`: the ASCII blanks of the core library are blank here.
-/

namespace ScreenFusion.Text

/-- The characters with the Unicode property `White_Space`. -/
def isBlank (c : Char) : Bool :=
  (0x9 ≤ c.toNat && c.toNat ≤ 0xd) || c.toNat == 0x20 || c.toNat == 0x85 || c.toNat == 0xa0 ||
    c.toNat == 0x1680 || (0x2000 ≤ c.toNat && c.toNat ≤ 0x200a) || c.toNat == 0x2028 ||
    c.toNat == 0x2029 || c.toNat == 0x202f || c.toNat == 0x205f || c.toNat == 0x3000

/-- The control characters, U+0000 to U+001F and U+007F to U+009F. -/
def isControl (c : Char) : Bool :=
  c.toNat ≤ 0x1f || (0x7f ≤ c.toNat && c.toNat ≤ 0x9f)

/-- The characters from the first one that is not blank. -/
def trimStart (cs : List Char) : List Char := cs.dropWhile isBlank

/-- The characters up to the last one that is not blank. -/
def trimEnd (cs : List Char) : List Char := (cs.reverse.dropWhile isBlank).reverse

/-- The characters between the outermost ones that are not blank. -/
def trim (cs : List Char) : List Char := trimEnd (trimStart cs)

/-- Whether the first character, if there is one, is blank. -/
def startsBlank : List Char → Bool
  | [] => true
  | c :: _ => isBlank c

/-- The maximal runs of characters that are not blank, in order. -/
def words : List Char → List (List Char)
  | [] => []
  | c :: cs =>
    if isBlank c then words cs
    else if startsBlank cs then [c] :: words cs
    else match words cs with
      | [] => [[c]]
      | w :: ws => (c :: w) :: ws

theorem isBlank_of_isWhitespace {c : Char} (h : c.isWhitespace) : isBlank c := by
  simp only [Char.isWhitespace, Bool.or_eq_true, decide_eq_true_eq] at h
  rcases h with ((rfl | rfl) | rfl) | rfl <;> decide

theorem trimStart_append (cs : List Char) : cs.takeWhile isBlank ++ trimStart cs = cs :=
  List.takeWhile_append_dropWhile

@[simp] theorem words_nil : words [] = [] := rfl

end ScreenFusion.Text
