import ScreenFusion.Proofs.Wgsl.Lexeme

/-!
# ScreenFusion.Proofs.Wgsl.Comment — comments as the language has them

In the language a line comment ends at the end of its line, whichever character that is, block comments nest, and a text
is read with a blank for each comment.  The scanner ends line comments at line feeds and block comments at their first end
mark.

* `segments`: the comments of a text and the characters of code.
* `SkipsComments`: the scanner finds the comments of a text, and the text is read as though they were blanks.
* `segments_scan_iff`: where the scanner finds the comments.
* `scanFrom_uncommented`, `renameTokens_around`: what the scanner takes for comments is read as blanks are.
* `skipsComments_iff`: the texts whose comments are skipped.
-/

namespace ScreenFusion.Wgsl

/-! ## Comments -/

/-- A character of code, or a comment without the two characters that open it. -/
inductive Segment where
  | code (c : Char)
  | line (body : List Char)
  | block (body : List Char)
  deriving DecidableEq

namespace Segment

def text : Segment → List Char
  | code c => [c]
  | line body => '/' :: '/' :: body
  | block body => '/' :: '*' :: body

def isComment : Segment → Bool
  | code _ => false
  | _ => true

/-- What a segment is read as: a blank for a comment. -/
def blanked : Segment → List Char
  | code c => [c]
  | _ => [' ']

end Segment

/-- The text up to the end mark of a block comment, and the text after it; `depth` comments inside it are open. -/
def spanNested : Nat → List Char → List Char × List Char
  | _, [] => ([], [])
  | 0, '*' :: '/' :: rest => (['*', '/'], rest)
  | depth + 1, '*' :: '/' :: rest =>
    let (body, rest) := spanNested depth rest
    ('*' :: '/' :: body, rest)
  | depth, '/' :: '*' :: rest =>
    let (body, rest) := spanNested (depth + 1) rest
    ('/' :: '*' :: body, rest)
  | depth, c :: cs =>
    let (body, rest) := spanNested depth cs
    (c :: body, rest)

theorem spanNested_append (depth : Nat) (cs : List Char) : (spanNested depth cs).1 ++ (spanNested depth cs).2 = cs := by
  fun_induction spanNested depth cs with
  | case1 => rfl
  | case2 => rfl
  | case3 depth rest body after h ih | case4 depth rest body after h ih => rw [h] at ih; simpa using ih
  | case5 depth c cs _ _ _ body after h ih => rw [h] at ih; simpa using ih

theorem length_spanNested_le (depth : Nat) (cs : List Char) : (spanNested depth cs).2.length ≤ cs.length := by
  have h := congrArg List.length (spanNested_append depth cs)
  rw [List.length_append] at h
  omega

/-- Whether a line goes on with a character. -/
def inLine (c : Char) : Bool := !lineBreaks.contains c

/-- The comments of a text, and the characters of code. -/
def segments : List Char → List Segment
  | [] => []
  | '/' :: '/' :: cs => .line (cs.takeWhile inLine) :: segments (cs.dropWhile inLine)
  | '/' :: '*' :: cs => .block (spanNested 0 cs).1 :: segments (spanNested 0 cs).2
  | c :: cs => .code c :: segments cs
termination_by cs => cs.length
decreasing_by
  · have hdrop := (List.dropWhile_sublist inLine (l := cs)).length_le
    simp only [List.length_cons]
    omega
  · have hspan := length_spanNested_le 0 cs
    simp only [List.length_cons]
    omega
  · simp

theorem segments_line (cs : List Char) :
    segments ('/' :: '/' :: cs) = .line (cs.takeWhile inLine) :: segments (cs.dropWhile inLine) := by
  rw [segments]

theorem segments_block (cs : List Char) :
    segments ('/' :: '*' :: cs) = .block (spanNested 0 cs).1 :: segments (spanNested 0 cs).2 := by
  rw [segments]

theorem segments_code {c : Char} {cs : List Char} (h : c = '/' → cs.head? ≠ some '/' ∧ cs.head? ≠ some '*') :
    segments (c :: cs) = .code c :: segments cs := by
  refine segments.eq_4 c cs (fun more hc hcs => ?_) fun more hc hcs => ?_
  · exact (h hc).1 (by rw [hcs]; rfl)
  · exact (h hc).2 (by rw [hcs]; rfl)

theorem segments_append {cs : List Char} (h : ∀ c ∈ cs, c ≠ '/') (rest : List Char) :
    segments (cs ++ rest) = cs.map .code ++ segments rest := by
  induction cs with
  | nil => rfl
  | cons c cs ih =>
    obtain ⟨hc, hcs⟩ := List.forall_mem_cons.1 h
    rw [List.cons_append, segments_code fun hslash => absurd hslash hc, ih hcs]
    rfl

/-- Nothing of a text is lost. -/
theorem text_segments (cs : List Char) : (segments cs).flatMap Segment.text = cs := by
  induction cs using segments.induct with
  | case1 => rw [segments]; rfl
  | case2 cs ih =>
    rw [segments_line, List.flatMap_cons, ih]
    simp [Segment.text, List.takeWhile_append_dropWhile]
  | case3 cs ih =>
    rw [segments_block, List.flatMap_cons, ih]
    simp [Segment.text, spanNested_append]
  | case4 c cs hline hblock ih =>
    rw [segments.eq_4 c cs hline hblock, List.flatMap_cons, ih]
    rfl

/-! ## What the scanner takes for comments -/

namespace Token

/-- A token as segments.  A return at the end of a line comment is counted to the end of the line. -/
def segments : Token → List Segment
  | .other ('/' :: '/' :: body) =>
    if body.getLast? = some '\r' then [.line body.dropLast, .code '\r'] else [.line body]
  | .other ('/' :: '*' :: body) => [.block body]
  | t => t.text.map .code

def isComment : Token → Bool
  | .other ('/' :: '/' :: _) => true
  | .other ('/' :: '*' :: _) => true
  | _ => false

/-- A token with a blank for a comment. -/
def blanked (t : Token) : List Token :=
  if t.isComment then (t.segments.flatMap Segment.blanked).map fun c => .other [c] else [t]

theorem segments_of_code {t : Token} (h : t.isComment = false) : t.segments = t.text.map .code := by
  unfold isComment at h
  unfold segments
  split <;> simp_all

theorem blanked_of_code {t : Token} (h : t.isComment = false) : t.blanked = [t] := if_neg (by simp [h])

/-- A comment among the tokens is one, and perhaps the return at the end of its line. -/
theorem segments_of_comment {t : Token} (h : t.isComment = true) :
    ∃ (s : Segment) (after : List Char), s.isComment = true ∧ (after = [] ∨ after = ['\r']) ∧
      t = .other (s.text ++ after) ∧ t.segments = s :: after.map .code ∧
      t.blanked = (' ' :: after).map fun c => .other [c] := by
  have hblanked : t.blanked = (t.segments.flatMap Segment.blanked).map fun c => .other [c] := if_pos h
  unfold isComment at h
  split at h
  · next body =>
    by_cases hreturn : body.getLast? = some '\r'
    · have hsegments : segments (.other ('/' :: '/' :: body)) = [.line body.dropLast, .code '\r'] := if_pos hreturn
      obtain ⟨front, rfl⟩ := List.getLast?_eq_some_iff.1 hreturn
      rw [hsegments] at hblanked
      exact ⟨.line front, ['\r'], rfl, .inr rfl, rfl, by rw [hsegments, List.dropLast_concat]; rfl, hblanked⟩
    · have hsegments : segments (.other ('/' :: '/' :: body)) = [.line body] := if_neg hreturn
      rw [hsegments] at hblanked
      exact ⟨.line body, [], rfl, .inl rfl, by rw [List.append_nil]; rfl, hsegments, hblanked⟩
  · next body => exact ⟨.block body, [], rfl, .inl rfl, by rw [List.append_nil]; rfl, rfl, hblanked⟩
  · cases h

end Token

/-- The comments among segments. -/
def comments (ss : List Segment) : List (List Char) := (ss.filter Segment.isComment).map Segment.text

/-- The text of segments with a blank for each comment. -/
def uncommented (ss : List Segment) : List Char := ss.flatMap Segment.blanked

theorem comments_code (cs : List Char) (ss : List Segment) : comments (cs.map .code ++ ss) = comments ss := by
  induction cs with
  | nil => rfl
  | cons c cs ih => exact ih

theorem uncommented_code (cs : List Char) (ss : List Segment) :
    uncommented (cs.map .code ++ ss) = cs ++ uncommented ss := by
  induction cs with
  | nil => rfl
  | cons c cs ih => exact congrArg (c :: ·) ih

/-- A text, and after it each of some texts with another one behind it. -/
def around (first : List Char) (texts behind : List (List Char)) : List Char :=
  first ++ (List.zipWith (· ++ ·) texts behind).flatten

theorem around_append (front first : List Char) (texts behind : List (List Char)) :
    around (front ++ first) texts behind = front ++ around first texts behind :=
  List.append_assoc front first _

theorem around_cons (t b : List Char) (texts behind : List (List Char)) :
    around [] (t :: texts) (b :: behind) = t ++ around b texts behind := by
  simp [around]

/-- Tokens that are copied and mean nothing for the scopes. -/
theorem renameTokens_blanks {substitute : String → Option String} (s : Scopes) {after : List Char}
    (h : after = [] ∨ after = ['\r']) (ts : List Token) :
    renameTokens substitute s (((' ' :: after).map fun c => .other [c]) ++ ts) =
      ' ' :: (after ++ renameTokens substitute s ts) := by
  rcases h with rfl | rfl <;> rfl

theorem Segment.other_text {seg : Segment} (h : seg.isComment = true) (s : Scopes) (after : List Char) :
    s.other (seg.text ++ after) = s := by
  cases seg with
  | code c => cases h
  | line body | block body => exact other_eq_self (.inl (List.cons_ne_nil _ _))

/-- Renaming copies comments, and what is around them becomes what it becomes around blanks. -/
theorem renameTokens_around (substitute : String → Option String) (s : Scopes) (ts : List Token) :
    ∃ first behind, behind.length = (comments (ts.flatMap Token.segments)).length ∧
      renameTokens substitute s ts = around first (comments (ts.flatMap Token.segments)) behind ∧
      renameTokens substitute s (ts.flatMap Token.blanked) =
        around first ((comments (ts.flatMap Token.segments)).map fun _ => [' ']) behind := by
  induction ts generalizing s with
  | nil => exact ⟨[], [], rfl, rfl, rfl⟩
  | cons t ts ih =>
    cases ht : t.isComment with
    | false =>
      obtain ⟨first, behind, hlength, hrename, hblanks⟩ := ih (renameToken substitute s t).2
      have hcomments : comments ((t :: ts).flatMap Token.segments) = comments (ts.flatMap Token.segments) := by
        rw [List.flatMap_cons, Token.segments_of_code ht, comments_code]
      refine ⟨(renameToken substitute s t).1 ++ first, behind, ?_, ?_, ?_⟩ <;> rw [hcomments]
      · exact hlength
      · rw [around_append, ← hrename]
        rfl
      · rw [around_append, ← hblanks, List.flatMap_cons, Token.blanked_of_code ht]
        rfl
    | true =>
      obtain ⟨seg, after, hseg, hafter, rfl, hsegments, hblanked⟩ := Token.segments_of_comment ht
      obtain ⟨first, behind, hlength, hrename, hblanks⟩ := ih s
      have hcomments : comments ((Token.other (seg.text ++ after) :: ts).flatMap Token.segments) =
          seg.text :: comments (ts.flatMap Token.segments) := by
        rw [List.flatMap_cons, hsegments, List.cons_append, comments, List.filter_cons_of_pos hseg, List.map_cons,
          ← comments, comments_code]
      refine ⟨[], (after ++ first) :: behind, ?_, ?_, ?_⟩ <;> rw [hcomments]
      · simp [hlength]
      · rw [around_cons, around_append, ← hrename]
        show seg.text ++ after ++ renameTokens substitute (s.other (seg.text ++ after)) ts = _
        rw [seg.other_text hseg, List.append_assoc]
      · rw [List.map_cons, around_cons, around_append, ← hblanks, List.flatMap_cons, hblanked,
          renameTokens_blanks s hafter]
        rfl

/-- Comments declare nothing. -/
theorem foldl_blanked (d : Declared) (ts : List Token) :
    (ts.flatMap Token.blanked).foldl Declared.step d = ts.foldl Declared.step d := by
  induction ts generalizing d with
  | nil => rfl
  | cons t ts ih =>
    rw [List.flatMap_cons, List.foldl_append, List.foldl_cons]
    cases ht : t.isComment with
    | false =>
      rw [Token.blanked_of_code ht]
      exact ih _
    | true =>
      obtain ⟨seg, after, -, hafter, rfl, -, hblanked⟩ := Token.segments_of_comment ht
      have hsame : (((' ' :: after).map fun c => Token.other [c]).foldl Declared.step d) = d := by
        rcases hafter with rfl | rfl <;> rfl
      rw [hblanked, hsame]
      exact ih d

/-! ## Blanks for comments -/

/-- Where a text begins as another does or with a blank, the same characters go on before it. -/
theorem span_swap {p : Char → Bool} (hp : p ' ' = false) {cs u : List Char}
    (hu : u.head? = (cs.dropWhile p).head? ∨ u.head? = some ' ') :
    (cs.takeWhile p ++ u).takeWhile p = cs.takeWhile p ∧ (cs.takeWhile p ++ u).dropWhile p = u := by
  have hall : ∀ c ∈ cs.takeWhile p, p c = true := List.all_eq_true.1 List.all_takeWhile
  have hstop : u.head?.any p = false := by
    rcases hu with hu | hu
    · rw [hu]
      have hhead := List.head?_dropWhile_not p cs
      cases hcs : (cs.dropWhile p).head? with
      | none => rfl
      | some c =>
        rw [hcs] at hhead
        simpa using hhead
    · rw [hu]
      exact hp
  obtain ⟨htake, hdrop⟩ := span_stops hstop
  rw [List.takeWhile_append_of_pos hall, List.dropWhile_append_of_pos hall, htake, hdrop, List.append_nil]
  exact ⟨rfl, rfl⟩

theorem spanNumber_swap {signed : Bool} {cs u : List Char}
    (hu : u.head? = (spanNumber signed cs).2.head? ∨ u.head? = some ' ') :
    spanNumber signed ((spanNumber signed cs).1 ++ u) = ((spanNumber signed cs).1, u) := by
  fun_induction spanNumber signed cs with
  | case1 signed =>
    rcases u with _ | ⟨c, u⟩
    · rfl
    · obtain rfl : c = ' ' := by simpa using hu
      cases signed <;> rfl
  | case2 signed c cs hc body rest h ih =>
    rw [h] at ih
    rw [List.cons_append, spanNumber, if_pos hc, ih hu]
  | case3 signed c cs hc =>
    rcases u with _ | ⟨d, u⟩
    · simp at hu
    · have hd : d = c ∨ d = ' ' := by simpa using hu
      rcases hd with rfl | rfl
      · rw [List.nil_append, spanNumber, if_neg hc]
      · cases signed <;> rfl

/-- What begins no comment. -/
theorem head_of_kind {c : Char} {cs : List Char} (h : (piece c cs).kind ≠ .comment) (hc : c = '/') :
    cs.head? ≠ some '/' ∧ cs.head? ≠ some '*' := by
  subst hc
  refine ⟨fun hline => ?_, fun hblock => ?_⟩
  · obtain ⟨more, rfl⟩ := List.head?_eq_some_iff.1 hline
    exact h (by rw [piece_line])
  · obtain ⟨more, rfl⟩ := List.head?_eq_some_iff.1 hblock
    exact h (by rw [piece_block])

/-- A piece that is no comment is the same where a blank stands for the comment behind it. -/
theorem piece_swap {c : Char} {cs u : List Char} (hkind : (piece c cs).kind ≠ .comment)
    (hu : u.head? = (piece c cs).rest.head? ∨ u.head? = some ' ') :
    piece c ((piece c cs).body ++ u) = ⟨(piece c cs).kind, (piece c cs).body, u⟩ := by
  have hopen := head_of_kind hkind
  by_cases hname : isNameStart c = true
  · rw [piece_of_isNameStart hname] at hu ⊢
    obtain ⟨htake, hdrop⟩ := span_swap (by decide) hu
    rw [piece_of_isNameStart hname, htake, hdrop]
  · by_cases hdigit : c.isDigit = true
    · rw [piece_of_isDigit hdigit] at hu ⊢
      rw [piece_of_isDigit hdigit, spanNumber_swap hu]
    · rw [Bool.not_eq_true] at hname hdigit
      rw [piece_of_mark hopen hname hdigit] at hu ⊢
      refine piece_of_mark (fun hc => ?_) hname hdigit
      rcases hu with hu | hu <;> rw [List.nil_append, hu]
      · exact hopen hc
      · decide

theorem slash_not_mem_spanNumber (signed : Bool) (cs : List Char) : ∀ d ∈ (spanNumber signed cs).1, d ≠ '/' := by
  fun_induction spanNumber signed cs with
  | case1 => exact List.forall_mem_nil _
  | case2 signed c cs hc body rest h ih =>
    rw [h] at ih
    refine List.forall_mem_cons.2 ⟨?_, ih⟩
    rintro rfl
    cases signed <;> exact absurd hc (by decide)
  | case3 => exact List.forall_mem_nil _

/-- A piece that is no comment has no slash, or is a slash. -/
theorem slash_of_kind {c : Char} {cs : List Char} (hkind : (piece c cs).kind ≠ .comment) :
    (∀ d ∈ c :: (piece c cs).body, d ≠ '/') ∨ c = '/' ∧ (piece c cs).body = [] := by
  by_cases hslash : c = '/'
  · subst hslash
    exact .inr ⟨rfl, by rw [piece_of_mark (head_of_kind hkind) (by decide) (by decide)]⟩
  · refine .inl (List.forall_mem_cons.2 ⟨hslash, ?_⟩)
    by_cases hname : isNameStart c = true
    · rw [piece_of_isNameStart hname]
      rintro _ hd rfl
      exact absurd (List.all_eq_true.1 List.all_takeWhile _ hd) (by decide)
    · by_cases hdigit : c.isDigit = true
      · rw [piece_of_isDigit hdigit]
        exact slash_not_mem_spanNumber false cs
      · rw [piece_of_mark (head_of_kind hkind) (by simpa using hname) (by simpa using hdigit)]
        nofun

/-- In the language too, what the scanner takes for no comment is none. -/
theorem segments_piece {c : Char} {cs : List Char} (hkind : (piece c cs).kind ≠ .comment) :
    segments (c :: cs) = (c :: (piece c cs).body).map .code ++ segments (piece c cs).rest := by
  rcases slash_of_kind hkind with hslash | ⟨rfl, hbody⟩
  · rw [← segments_append hslash, List.cons_append, piece_append]
  · have hrest := piece_append '/' cs
    rw [hbody, List.nil_append] at hrest
    rw [segments_code (head_of_kind hkind), hbody, hrest]
    rfl

/-- A piece that is no comment becomes a token that is none, however the text goes on behind it. -/
theorem scanFrom_piece (a : Bool) {c : Char} {cs : List Char} (hkind : (piece c cs).kind ≠ .comment) :
    ∃ (t : Token) (b : Bool), t.text = c :: (piece c cs).body ∧ t.isComment = false ∧
      ∀ u, piece c ((piece c cs).body ++ u) = ⟨(piece c cs).kind, (piece c cs).body, u⟩ →
        scanFrom a (c :: ((piece c cs).body ++ u)) = t :: scanFrom b u := by
  have hother : (Token.other (c :: (piece c cs).body)).isComment = false := by
    unfold Token.isComment
    rcases slash_of_kind hkind with hslash | ⟨-, hbody⟩
    · have hc : c ≠ '/' := hslash c List.mem_cons_self
      split <;> simp_all
    · rw [hbody]
      split <;> simp_all
  cases h : (piece c cs).kind with
  | comment => exact absurd h hkind
  | name =>
    refine ⟨.name (c :: (piece c cs).body) (!a), false, rfl, rfl, fun u hu => ?_⟩
    rw [scanFrom]
    simp only [hu]
  | number =>
    refine ⟨.other (c :: (piece c cs).body), false, rfl, hother, fun u hu => ?_⟩
    rw [scanFrom]
    simp only [hu]
  | mark =>
    refine ⟨.other (c :: (piece c cs).body), attaches a c, rfl, hother, fun u hu => ?_⟩
    rw [scanFrom]
    simp only [hu]

/-- What begins a comment. -/
theorem open_of_kind {c : Char} {cs : List Char} (h : (piece c cs).kind = .comment) :
    c = '/' ∧ ∃ more, cs = '/' :: more ∨ cs = '*' :: more := by
  by_cases hslash : c = '/' → cs.head? ≠ some '/' ∧ cs.head? ≠ some '*'
  · by_cases hname : isNameStart c = true
    · rw [piece_of_isNameStart hname] at h
      cases h
    · by_cases hdigit : c.isDigit = true
      · rw [piece_of_isDigit hdigit] at h
        cases h
      · rw [piece_of_mark hslash (by simpa using hname) (by simpa using hdigit)] at h
        cases h
  · simp only [Classical.not_imp, Classical.not_and_iff_not_or_not, Classical.not_not] at hslash
    obtain ⟨rfl, hhead | hhead⟩ := hslash
    · obtain ⟨more, rfl⟩ := List.head?_eq_some_iff.1 hhead
      exact ⟨rfl, more, .inl rfl⟩
    · obtain ⟨more, rfl⟩ := List.head?_eq_some_iff.1 hhead
      exact ⟨rfl, more, .inr rfl⟩

theorem isComment_of_kind {c : Char} {cs : List Char} (hkind : (piece c cs).kind = .comment) :
    (Token.other (c :: (piece c cs).body)).isComment = true := by
  obtain ⟨rfl, more, rfl | rfl⟩ := open_of_kind hkind
  · rw [piece_line]
    rfl
  · rw [piece_block]
    rfl

theorem scanFrom_comment (a : Bool) {c : Char} {cs : List Char} (hkind : (piece c cs).kind = .comment) :
    scanFrom a (c :: cs) = .other (c :: (piece c cs).body) :: scanFrom a (piece c cs).rest := by
  rw [scanFrom]
  simp only [hkind]

/-- Reading a text piece by piece, comments apart from other pieces. -/
theorem scan_induction {motive : Bool → List Char → Prop} (nil : ∀ a, motive a [])
    (comment : ∀ a c cs, (piece c cs).kind = .comment → motive a (piece c cs).rest → motive a (c :: cs))
    (other : ∀ a b c cs t, (piece c cs).kind ≠ .comment → t.text = c :: (piece c cs).body → t.isComment = false →
      (∀ u, piece c ((piece c cs).body ++ u) = ⟨(piece c cs).kind, (piece c cs).body, u⟩ →
        scanFrom a (c :: ((piece c cs).body ++ u)) = t :: scanFrom b u) →
      scanFrom a (c :: cs) = t :: scanFrom b (piece c cs).rest → motive b (piece c cs).rest → motive a (c :: cs))
    (a : Bool) (cs : List Char) : motive a cs := by
  match cs with
  | [] => exact nil a
  | c :: cs =>
    have hshorter : (piece c cs).rest.length < (c :: cs).length := Nat.lt_succ_of_le (length_rest_piece_le c cs)
    by_cases hkind : (piece c cs).kind = .comment
    · exact comment a c cs hkind (scan_induction nil comment other a (piece c cs).rest)
    · obtain ⟨t, b, htext, ht, hscan⟩ := scanFrom_piece a hkind
      have hsame := hscan (piece c cs).rest (by rw [piece_append])
      rw [piece_append] at hsame
      exact other a b c cs t hkind htext ht hscan hsame (scan_induction nil comment other b (piece c cs).rest)
termination_by cs.length
decreasing_by all_goals exact hshorter

/-- A text with blanks for what the scanner takes for comments begins as the text does, or with a blank. -/
theorem head_uncommented (a : Bool) (cs : List Char) :
    (uncommented ((scanFrom a cs).flatMap Token.segments)).head? = cs.head? ∨
      (uncommented ((scanFrom a cs).flatMap Token.segments)).head? = some ' ' := by
  induction a, cs using scan_induction with
  | nil a => exact .inl (by rw [scanFrom]; rfl)
  | comment a c cs hkind _ =>
    obtain ⟨seg, after, hseg, -, -, hsegments, -⟩ := Token.segments_of_comment (isComment_of_kind hkind)
    rw [scanFrom_comment a hkind, List.flatMap_cons, hsegments]
    cases seg with
    | code d => cases hseg
    | line body | block body => exact .inr rfl
  | other a b c cs t _ htext ht _ hscan _ =>
    rw [hscan, List.flatMap_cons, Token.segments_of_code ht, uncommented_code, htext]
    exact .inl rfl

theorem scanFrom_blank (a : Bool) {c : Char} (hc : c ∈ [' ', '\t', '\n', '\r']) (cs : List Char) :
    scanFrom a (c :: cs) = .other [c] :: scanFrom a cs := by
  have hspace : isAsciiSpace c = true := by
    simp only [List.mem_cons, List.not_mem_nil, or_false] at hc
    rcases hc with rfl | rfl | rfl | rfl <;> decide
  rw [scanFrom]
  simp only [piece_blank hc]
  rw [attaches, if_pos hspace]

/-- With blanks for what the scanner takes for comments it finds the same tokens, with blanks for these. -/
theorem scanFrom_uncommented (a : Bool) (cs : List Char) :
    scanFrom a (uncommented ((scanFrom a cs).flatMap Token.segments)) = (scanFrom a cs).flatMap Token.blanked := by
  induction a, cs using scan_induction with
  | nil a => simp [scanFrom, uncommented]
  | comment a c cs hkind ih =>
    obtain ⟨seg, after, hseg, hafter, -, hsegments, hblanked⟩ :=
      Token.segments_of_comment (isComment_of_kind hkind)
    have huncommented (ss : List Segment) : uncommented (seg :: after.map .code ++ ss) =
        ' ' :: (after ++ uncommented ss) := by
      cases seg with
      | code d => cases hseg
      | line body | block body => exact congrArg (' ' :: ·) (uncommented_code after ss)
    rw [scanFrom_comment a hkind, List.flatMap_cons, hsegments, huncommented, List.flatMap_cons, hblanked, ← ih]
    rcases hafter with rfl | rfl
    · exact scanFrom_blank a (by decide) _
    · rw [scanFrom_blank a (by decide), List.cons_append, scanFrom_blank a (by decide)]
      rfl
  | other a b c cs t hkind htext ht hscan hsame ih =>
    rw [hsame, List.flatMap_cons, Token.segments_of_code ht, uncommented_code, htext, List.cons_append,
      hscan _ (piece_swap hkind (head_uncommented b _)), ih, List.flatMap_cons, Token.blanked_of_code ht]
    rfl

/-! ## Where comments end -/

/-- Whether the scanner ends a comment where the language does: it does not see the other ends of lines, and it sees an end
mark that is not the last of a block comment. -/
def Segment.endsPlainly (rest : List Char) : Segment → Bool
  | code _ => true
  | line _ => match rest with
    | [] | ['\r'] | '\n' :: _ | '\r' :: '\n' :: _ => true
    | _ => false
  | block body => !hasPair '*' '/' body.dropLast

/-- Whether the scanner ends all comments where the language does. -/
def EndPlainly : List Segment → Bool
  | [] => true
  | s :: rest => s.endsPlainly (rest.flatMap Segment.text) && EndPlainly rest

theorem endPlainly_code (cs : List Char) (ss : List Segment) : EndPlainly (cs.map .code ++ ss) = EndPlainly ss := by
  induction cs with
  | nil => rfl
  | cons c cs ih => exact ih

/-! ### Block comments -/

theorem hasPair_left {a b : Char} {xs ys : List Char} (h : hasPair a b (xs ++ ys) = false) : hasPair a b xs = false := by
  fun_induction hasPair a b xs with
  | case1 c d rest ih =>
    simp only [List.cons_append, hasPair, Bool.or_eq_false_iff] at h ⊢
    exact ⟨h.1, ih h.2⟩
  | case2 => rfl

/-- The scanner leaves no end mark behind in a comment. -/
theorem hasPair_spanBlock (cs : List Char) : hasPair '*' '/' (spanBlock cs).1.dropLast = false := by
  fun_induction spanBlock cs with
  | case1 => rfl
  | case2 => rfl
  | case3 c cs hopen body rest h ih =>
    have happend := spanBlock_append cs
    rw [h] at ih happend
    rcases body with _ | ⟨d, _ | ⟨e, ds⟩⟩
    · rfl
    · rfl
    · simp only [List.dropLast_cons_cons, hasPair, Bool.or_eq_false_iff] at ih ⊢
      refine ⟨?_, ih⟩
      rw [Bool.and_eq_false_iff, beq_eq_false_iff_ne, beq_eq_false_iff_ne]
      by_cases hc : c = '*'
      · exact .inr fun hd => hopen _ hc (by rw [← happend, hd]; rfl)
      · exact .inl hc

/-- A text without an end mark but for its end. -/
theorem spanBlock_all {cs : List Char} (h : hasPair '*' '/' cs.dropLast = false) : spanBlock cs = (cs, []) := by
  fun_induction spanBlock cs with
  | case1 => rfl
  | case2 rest =>
    cases rest with
    | nil => rfl
    | cons c cs => simp [hasPair] at h
  | case3 c cs hopen body rest hspan ih =>
    have hcs : hasPair '*' '/' cs.dropLast = false := by
      rcases cs with _ | ⟨d, _ | ⟨e, ds⟩⟩
      · rfl
      · rfl
      · simp only [List.dropLast_cons_cons, hasPair, Bool.or_eq_false_iff] at h ⊢
        exact h.2
    have ih := ih hcs
    rw [hspan] at ih
    cases ih
    rfl

/-- A comment ends with an end mark or with the text. -/
theorem spanNested_end (depth : Nat) (cs : List Char) :
    (spanNested depth cs).2 = [] ∨ ∃ front, (spanNested depth cs).1 = front ++ ['*', '/'] := by
  fun_induction spanNested depth cs with
  | case1 => exact .inl rfl
  | case2 => exact .inr ⟨[], rfl⟩
  | case3 depth rest body after h ih | case4 depth rest body after h ih =>
    rw [h] at ih
    rcases ih with ih | ⟨front, hfront⟩
    · exact .inl ih
    · exact .inr ⟨_ :: _ :: front, congrArg (_ :: _ :: ·) hfront⟩
  | case5 depth c cs _ _ _ body after h ih =>
    rw [h] at ih
    rcases ih with ih | ⟨front, hfront⟩
    · exact .inl ih
    · exact .inr ⟨c :: front, congrArg (c :: ·) hfront⟩

/-- The scanner ends a block comment where the language does iff no end mark is in it before its end. -/
theorem spanBlock_eq_iff (cs : List Char) :
    spanBlock cs = spanNested 0 cs ↔ hasPair '*' '/' (spanNested 0 cs).1.dropLast = false := by
  refine ⟨fun h => h ▸ hasPair_spanBlock cs, fun h => ?_⟩
  have happend := spanNested_append 0 cs
  rcases spanNested_end 0 cs with hrest | ⟨front, hfront⟩
  · have hbody : (spanNested 0 cs).1 = cs := by rwa [hrest, List.append_nil] at happend
    rw [hbody] at h
    rw [spanBlock_all h]
    exact Prod.ext hbody.symm hrest.symm
  · have hpair : hasPair '*' '/' front = false := by
      rw [hfront, show front ++ ['*', '/'] = front ++ ['*'] ++ ['/'] by simp, List.dropLast_concat] at h
      exact hasPair_left h
    have htext : cs = front ++ '*' :: '/' :: (spanNested 0 cs).2 := by
      rw [hfront] at happend
      simpa using happend.symm
    have hspan := spanBlock_body front (spanNested 0 cs).2 hpair
    rw [← htext] at hspan
    rw [hspan]
    exact Prod.ext hfront.symm rfl

/-! ### Line comments -/

theorem segments_line_token {body : List Char} (h : body.getLast? ≠ some '\r') :
    Token.segments (.other ('/' :: '/' :: body)) = [.line body] := if_neg h

theorem segments_line_return (body : List Char) :
    Token.segments (.other ('/' :: '/' :: (body ++ ['\r']))) = [.line body, .code '\r'] := by
  rw [Token.segments, if_pos (List.getLast?_concat ..), List.dropLast_concat]

/-- A line comment that goes on is another one, with or without a return at its end. -/
theorem segments_line_ne {body more : List Char} (hmore : more ≠ []) (hreturn : more ≠ ['\r']) (ts : List Token)
    (ss : List Segment) :
    (Token.other ('/' :: '/' :: (body ++ more)) :: ts).flatMap Token.segments ≠ .line body :: ss := by
  rw [List.flatMap_cons]
  rcases List.eq_nil_or_concat more with rfl | ⟨front, d, rfl⟩
  · exact absurd rfl hmore
  · rw [List.concat_eq_append] at hmore hreturn ⊢
    rw [← List.append_assoc]
    by_cases hd : d = '\r'
    · subst hd
      rw [segments_line_return]
      intro h
      have hfront : front = [] := List.append_right_eq_self.1 (Segment.line.inj (List.cons.inj h).1)
      exact hreturn (by rw [hfront]; rfl)
    · rw [segments_line_token (by simpa using hd), List.append_assoc]
      intro h
      exact hmore (List.append_right_eq_self.1 (Segment.line.inj (List.cons.inj h).1))

theorem line_endsPlainly_iff {body rest : List Char} : (Segment.line body).endsPlainly rest = true ↔
    rest = [] ∨ rest = ['\r'] ∨ (∃ more, rest = '\n' :: more) ∨ ∃ more, rest = '\r' :: '\n' :: more := by
  unfold Segment.endsPlainly
  dsimp only
  split <;> simp_all

/-- The scanner goes on in a line comment where the line of the language goes on. -/
theorem span_line (cs : List Char) :
    cs.takeWhile (· ≠ '\n') = cs.takeWhile inLine ++ (cs.dropWhile inLine).takeWhile (· ≠ '\n') ∧
      cs.dropWhile (· ≠ '\n') = (cs.dropWhile inLine).dropWhile (· ≠ '\n') := by
  have hall : ∀ c ∈ cs.takeWhile inLine, decide (c ≠ '\n') = true := by
    rintro c hc
    refine decide_eq_true ?_
    rintro rfl
    exact absurd (List.all_eq_true.1 List.all_takeWhile _ hc) (by decide)
  have htake : (cs.takeWhile inLine ++ cs.dropWhile inLine).takeWhile (· ≠ '\n') = _ :=
    List.takeWhile_append_of_pos hall
  have hdrop : (cs.takeWhile inLine ++ cs.dropWhile inLine).dropWhile (· ≠ '\n') = _ :=
    List.dropWhile_append_of_pos hall
  rw [List.takeWhile_append_dropWhile] at htake hdrop
  exact ⟨htake, hdrop⟩

/-- What the scanner makes of a line comment with `body` up to the end of the line, and of the text after it. -/
theorem segments_scan_line {a : Bool} {body rest : List Char} (hbody : ∀ c ∈ body, inLine c = true)
    (ih : (scanFrom a (rest.dropWhile (· ≠ '\n'))).flatMap Token.segments = segments (rest.dropWhile (· ≠ '\n')) ↔
      EndPlainly (segments (rest.dropWhile (· ≠ '\n'))) = true) :
    (Token.other ('/' :: '/' :: (body ++ rest.takeWhile (· ≠ '\n'))) ::
        scanFrom a (rest.dropWhile (· ≠ '\n'))).flatMap Token.segments = .line body :: segments rest ↔
      EndPlainly (.line body :: segments rest) = true := by
  have hnoreturn : body.getLast? ≠ some '\r' := by
    intro hlast
    exact absurd (hbody _ (List.mem_of_getLast? hlast)) (by decide)
  rw [EndPlainly, text_segments, Bool.and_eq_true]
  by_cases hend : (Segment.line body).endsPlainly rest = true
  · rw [and_iff_right hend]
    rcases line_endsPlainly_iff.1 hend with rfl | rfl | ⟨more, rfl⟩ | ⟨more, rfl⟩
    · simpa [segments_line_token hnoreturn] using ih
    · have htoken : (Token.other ('/' :: '/' :: (body ++ ['\r'])) :: scanFrom a []).flatMap Token.segments =
          [.line body, .code '\r'] := by
        rw [List.flatMap_cons, segments_line_return, scanFrom]
        rfl
      rw [show segments ['\r'] = [.code '\r'] by simp [segments]]
      exact iff_of_true htoken rfl
    · rw [List.takeWhile_cons_of_neg (by decide), List.append_nil, List.flatMap_cons, segments_line_token hnoreturn]
      rw [List.dropWhile_cons_of_neg (by decide)] at ih ⊢
      exact (List.cons_inj_right _).trans ih
    · have hreturn : segments ('\r' :: '\n' :: more) = .code '\r' :: segments ('\n' :: more) :=
        segments_code fun h => absurd h (by decide)
      rw [hreturn]
      rw [List.dropWhile_cons_of_pos (by decide), List.dropWhile_cons_of_neg (by decide)] at ih ⊢
      rw [List.takeWhile_cons_of_pos (by decide), List.takeWhile_cons_of_neg (by decide), List.flatMap_cons,
        segments_line_return]
      exact ((List.cons_inj_right _).trans (List.cons_inj_right _)).trans ih
  · refine iff_of_false (segments_line_ne ?_ ?_ _ _) fun h => hend h.1
    · intro htake
      refine hend (line_endsPlainly_iff.2 ?_)
      rcases rest with _ | ⟨c, rest⟩
      · exact .inl rfl
      · by_cases hc : c = '\n'
        · exact .inr (.inr (.inl ⟨rest, by rw [hc]⟩))
        · simp [hc] at htake
    · intro htake
      refine hend (line_endsPlainly_iff.2 ?_)
      have hsplit := List.takeWhile_append_dropWhile (p := (· ≠ '\n')) (l := rest)
      rw [htake] at hsplit
      have hhead := List.head?_dropWhile_not (fun c => decide (c ≠ '\n')) rest
      rcases hdrop : rest.dropWhile (· ≠ '\n') with _ | ⟨c, more⟩
      · rw [hdrop] at hsplit
        exact .inr (.inl hsplit.symm)
      · rw [hdrop] at hsplit hhead
        obtain rfl : c = '\n' := by simpa using hhead
        exact .inr (.inr (.inr ⟨more, hsplit.symm⟩))

/-! ## Texts whose comments are skipped -/

/-- The scanner finds the comments of a text iff it ends them where the language does. -/
theorem segments_scan_iff (a : Bool) (cs : List Char) :
    (scanFrom a cs).flatMap Token.segments = segments cs ↔ EndPlainly (segments cs) = true := by
  induction a, cs using scan_induction with
  | nil a => simp [scanFrom, segments, EndPlainly]
  | other a b c cs t hkind htext ht _ hscan ih =>
    rw [hscan, List.flatMap_cons, Token.segments_of_code ht, htext, segments_piece hkind, endPlainly_code, ← ih]
    exact List.append_right_inj _
  | comment a c cs hkind ih =>
    obtain ⟨rfl, more, rfl | rfl⟩ := open_of_kind hkind
    · obtain ⟨htake, hdrop⟩ := span_line more
      rw [piece_line, hdrop] at ih
      rw [scanFrom_comment a hkind, piece_line, segments_line, htake, hdrop]
      exact segments_scan_line (List.all_eq_true.1 List.all_takeWhile) ih
    · rw [piece_block] at ih
      rw [scanFrom_comment a hkind, piece_block, segments_block, List.flatMap_cons, EndPlainly, Bool.and_eq_true]
      have hends : (Segment.block (spanNested 0 more).1).endsPlainly
          ((segments (spanNested 0 more).2).flatMap Segment.text) = true ↔ spanBlock more = spanNested 0 more := by
        rw [spanBlock_eq_iff, Segment.endsPlainly, Bool.not_eq_true']
      constructor
      · intro h
        have hbody : (spanBlock more).1 = (spanNested 0 more).1 := Segment.block.inj (List.cons.inj h).1
        have hspan : spanBlock more = spanNested 0 more := by
          rw [spanBlock_eq_iff, ← hbody]
          exact hasPair_spanBlock more
        rw [hspan] at ih
        exact ⟨hends.2 hspan, ih.1 (hspan ▸ (List.cons.inj h).2)⟩
      · rintro ⟨hplain, hrest⟩
        have hspan := hends.1 hplain
        rw [hspan] at ih ⊢
        exact congrArg (_ :: ·) (ih.2 hrest)

/-- How a text's comments are skipped. -/
structure SkipsComments (source : List Char) : Prop where
  /-- What is found as a comment is a comment, and the rest is code. -/
  found : (scan source).flatMap Token.segments = segments source
  /-- Comments are copied, and what is around them becomes what it becomes around blanks. -/
  copied : ∀ substitute, ∃ first behind, behind.length = (comments (segments source)).length ∧
    rename substitute source = around first (comments (segments source)) behind ∧
    rename substitute (uncommented (segments source)) =
      around first ((comments (segments source)).map fun _ => [' ']) behind
  /-- The names that are declared are those that are declared with blanks for comments. -/
  declared : declaredItems source = declaredItems (uncommented (segments source))

/-- For every text: its comments are skipped iff each line comment ends at a line feed, at a return before one or with the
text, and no block comment goes on after an end mark. -/
theorem skipsComments_iff (source : List Char) : SkipsComments source ↔ EndPlainly (segments source) = true := by
  refine ⟨fun h => (segments_scan_iff false source).1 h.found, fun h => ?_⟩
  have hfound := (segments_scan_iff false source).2 h
  have hscan := scanFrom_uncommented false source
  refine ⟨hfound, fun substitute => ?_, ?_⟩
  · rw [← hfound]
    unfold rename
    rw [scan, scan, hscan]
    exact renameTokens_around substitute .start (scan source)
  · rw [← hfound]
    unfold declaredItems
    rw [scan, scan, hscan, foldl_blanked]

/-- After a comment in a comment the scanner reads on in the outer one, and behind a vertical tab it goes on with the line:
a name in a comment is replaced and declared, and one in code is not. -/
theorem comments_not_skipped :
    (segments "/* /* */ fn K() */".toList = [.block " /* */ fn K() */".toList] ∧
      rename (fun name => if name = "K" then some "L" else none) "/* /* */ fn K() */".toList =
        "/* /* */ fn L() */".toList ∧
      declaredItems "/* /* */ fn K() */".toList = ["K"] ∧ ¬ SkipsComments "/* /* */ fn K() */".toList) ∧
    (segments "// a\x0bfn K()".toList = .line " a".toList :: "\x0bfn K()".toList.map .code ∧
      rename (fun name => if name = "K" then some "L" else none) "// a\x0bfn K()".toList = "// a\x0bfn K()".toList ∧
      declaredItems "// a\x0bfn K()".toList = [] ∧ ¬ SkipsComments "// a\x0bfn K()".toList) :=
  ⟨⟨by decide +kernel, by decide +kernel, by decide +kernel, fun h => absurd h.found (by decide +kernel)⟩,
    by decide +kernel, by decide +kernel, by decide +kernel, fun h => absurd h.found (by decide +kernel)⟩

end ScreenFusion.Wgsl
