import ScreenFusion.Proofs.Wgsl.Lexeme
import ScreenFusion.Text.Blank

/-!
# ScreenFusion.Proofs.Wgsl.Declaration — the structures that a text declares

A structure is declared by the word `struct`, its name, and in braces its members, each with a type after a colon and a
comma at the end.  Blanks and comments between them do not count.

* `pieces`: the pieces of a text that count.
* `declaredMembers?`: the members that the pieces of a text declare for a structure.
* `declaredMembers?_struct`: what is read from a declaration.
-/

namespace ScreenFusion.Wgsl

/-! ## Pieces that count -/

/-- Whether a piece of a text is a blank or a comment. -/
def isIdle : List Char → Bool
  | [c] => Text.isBlank c
  | '/' :: '/' :: _ => true
  | '/' :: '*' :: _ => true
  | _ => false

/-- The pieces of a text that count. -/
def pieces (cs : List Char) : List String :=
  (((scan cs).map Token.text).filter (!isIdle ·)).map String.ofList

theorem texts_cons (attached : Bool) (c : Char) (cs : List Char) :
    ∃ after, (scanFrom attached (c :: cs)).map Token.text =
      (c :: (piece c cs).body) :: (scanFrom after (piece c cs).rest).map Token.text := by
  rw [scanFrom]
  cases (piece c cs).kind <;> exact ⟨_, rfl⟩

/-- Where the pieces of a text end does not depend on what is before it. -/
theorem texts_scanFrom (a b : Bool) (cs : List Char) :
    (scanFrom a cs).map Token.text = (scanFrom b cs).map Token.text := by
  fun_induction scanFrom a cs generalizing b with
  | case1 => simp [scanFrom]
  | case2 a c cs p _ ih | case3 a c cs p _ ih | case4 a c cs p _ ih | case5 a c cs p _ ih =>
    obtain ⟨after, htexts⟩ := texts_cons b c cs
    rw [htexts]
    exact congrArg _ (ih after)

/-- One piece, and what is after it. -/
theorem pieces_cons (c : Char) (cs : List Char) :
    pieces (c :: cs) = (if isIdle (c :: (piece c cs).body) then [] else [String.ofList (c :: (piece c cs).body)]) ++
      pieces (piece c cs).rest := by
  obtain ⟨after, htexts⟩ := texts_cons false c cs
  unfold pieces
  rw [scan, htexts, texts_scanFrom after false, List.filter_cons]
  cases isIdle (c :: (piece c cs).body) <;> rfl

theorem pieces_blank {c : Char} (hc : c ∈ [' ', '\t', '\n', '\r']) (cs : List Char) : pieces (c :: cs) = pieces cs := by
  have hblank : isIdle [c] = true := by
    simp only [List.mem_cons, List.not_mem_nil, or_false] at hc
    rcases hc with rfl | rfl | rfl | rfl <;> decide
  rw [pieces_cons, piece_blank hc cs, if_pos hblank, List.nil_append]

theorem pieces_line (body rest : List Char) (h : ∀ c ∈ body, c ≠ '\n') :
    pieces ('/' :: '/' :: (body ++ '\n' :: rest)) = pieces rest := by
  have hall : ∀ c ∈ '/' :: body, decide (c ≠ '\n') = true := by
    intro c hc
    rcases List.mem_cons.1 hc with rfl | hc
    · decide
    · exact decide_eq_true (h c hc)
  have hpiece : piece '/' ('/' :: (body ++ '\n' :: rest)) = ⟨.comment, '/' :: body, '\n' :: rest⟩ := by
    rw [piece, if_pos ⟨rfl, rfl⟩, ← List.cons_append, List.takeWhile_append_of_pos hall,
      List.dropWhile_append_of_pos hall]
    simp
  rw [pieces_cons, hpiece]
  exact pieces_blank (by decide) rest

theorem isIdle_name {c : Char} (hc : isNameStart c = true) (cs : List Char) : isIdle (c :: cs) = false := by
  have hslash : c ≠ '/' := by
    rintro rfl
    exact absurd hc (by decide)
  have hrange : 65 ≤ c.toNat ∧ c.toNat ≤ 122 := by
    rcases Bool.or_eq_true_iff.1 hc with halpha | hunderscore
    · rcases Bool.or_eq_true_iff.1 halpha with h | h
      · obtain ⟨hle, hge⟩ := of_decide_eq_true h
        exact ⟨hle, Nat.le_trans hge (by decide)⟩
      · obtain ⟨hle, hge⟩ := Bool.and_eq_true_iff.1 h
        exact ⟨Nat.le_trans (by decide) (of_decide_eq_true hle), of_decide_eq_true hge⟩
    · rw [beq_iff_eq.1 hunderscore]
      decide
  have hblank : Text.isBlank c = false := by
    simp only [Text.isBlank, Bool.or_eq_false_iff, Bool.and_eq_false_iff, decide_eq_false_iff_not, beq_eq_false_iff_ne]
    omega
  unfold isIdle
  split <;> simp_all

/-- A name ends where no more characters of names come. -/
theorem pieces_name {n : String} (hn : (Lexeme.name n).valid = true) {rest : List Char}
    (hrest : (Lexeme.name n).fits rest = true) : pieces (n.toList ++ rest) = n :: pieces rest := by
  rcases hcs : n.toList with _ | ⟨c, cs⟩
  · simp [Lexeme.valid, hcs] at hn
  · simp only [Lexeme.valid, hcs, Bool.and_eq_true] at hn
    have hidle : isIdle (c :: cs) = false := isIdle_name hn.1 cs
    rw [List.cons_append, pieces_cons, piece_name hn.1 hn.2 hrest, if_neg (by simp [hidle]), ← hcs, String.ofList_toList]
    rfl

theorem pieces_mark {c : Char} (hc : c ∈ marks) {rest : List Char} (hrest : (Lexeme.mark c).fits rest = true) :
    pieces (c :: rest) = String.ofList [c] :: pieces rest := by
  have hidle : isIdle [c] = false := by
    have hmarks : marks.all (fun c => !Text.isBlank c) = true := by decide
    have hblank := List.all_eq_true.1 hmarks c hc
    rwa [Bool.not_eq_true'] at hblank
  rw [pieces_cons, piece_mark hc hrest, if_neg (by simp [hidle])]
  rfl

/-! ## Structures -/

/-- The members of a structure's body, each with its type. -/
def membersIn : List String → List (String × String)
  | name :: colon :: rest =>
    if colon = ":" then
      (name, String.join (rest.takeWhile (· ≠ ","))) :: membersIn (rest.dropWhile (· ≠ ",")).tail
    else []
  | _ => []
termination_by pieces => pieces.length
decreasing_by
  have hdrop := (List.dropWhile_sublist (· ≠ ",") (l := rest)).length_le
  simp only [List.length_tail, List.length_cons]
  omega

/-- The members that are declared for a structure where that happens first. -/
def declaredMembers? (name : String) : List String → Option (List (String × String))
  | [] => none
  | piece :: rest =>
    if piece = "struct" ∧ rest.take 2 = [name, "\x7b"] then
      some (membersIn ((rest.drop 2).takeWhile (· ≠ "\x7d")))
    else declaredMembers? name rest

/-- The pieces of members with the pieces of their types. -/
def bodyPieces (fields : List (String × List String)) : List String :=
  fields.flatMap fun f => f.1 :: ":" :: (f.2 ++ [","])

theorem membersIn_body {fields : List (String × List String)} (h : ∀ f ∈ fields, "," ∉ f.2) :
    membersIn (bodyPieces fields) = fields.map fun f => (f.1, String.join f.2) := by
  induction fields with
  | nil => simp [bodyPieces, membersIn]
  | cons f fields ih =>
    obtain ⟨hf, hfields⟩ := List.forall_mem_cons.1 h
    have htype : ∀ p ∈ f.2, decide (p ≠ ",") = true := fun p hp => decide_eq_true fun hcomma => hf (hcomma ▸ hp)
    have hbody : bodyPieces (f :: fields) = f.1 :: ":" :: (f.2 ++ "," :: bodyPieces fields) := by simp [bodyPieces]
    rw [hbody, membersIn, if_pos rfl, List.takeWhile_append_of_pos htype, List.dropWhile_append_of_pos htype]
    simp [ih hfields]

theorem declaredMembers?_struct {fields : List (String × List String)} {name : String} {rest : List String}
    (h : ∀ f ∈ fields, "," ∉ f.2) (hclose : "\x7d" ∉ bodyPieces fields) :
    declaredMembers? name ("struct" :: name :: "\x7b" :: (bodyPieces fields ++ "\x7d" :: rest)) =
      some (fields.map fun f => (f.1, String.join f.2)) := by
  have hall : ∀ p ∈ bodyPieces fields, decide (p ≠ "\x7d") = true :=
    fun p hp => decide_eq_true fun hbrace => hclose (hbrace ▸ hp)
  have hbody : (bodyPieces fields ++ "\x7d" :: rest).takeWhile (· ≠ "\x7d") = bodyPieces fields := by
    rw [List.takeWhile_append_of_pos hall]
    simp
  rw [declaredMembers?, if_pos ⟨rfl, rfl⟩, List.drop_succ_cons, List.drop_succ_cons, List.drop_zero, hbody,
    membersIn_body h]

end ScreenFusion.Wgsl
