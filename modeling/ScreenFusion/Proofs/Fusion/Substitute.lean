import Mathlib.Data.List.TakeWhile
import ScreenFusion.Proofs.Fusion.Naming

/-!
# ScreenFusion.Proofs.Fusion.Substitute — what stands for a unit's names

A uniform is read from the block `fx`; a constant, a function or a structure becomes one name.  So there is one name that
each substitute begins with, its root.

* `root`: the name that a substitute begins with.
* `Sound.substitute_uniform`, `Sound.substitute_own`, `Member.substitute_cases`: the substitutes of a member.
* `Sound.fused_not_mem`, `Sound.fused_not_fx`: names at module scope are none of the scaffold's.
* `fused_disjoint`: no two members have a name at module scope in common.
-/

namespace ScreenFusion.Fusion

/-! ## Characters of names -/

/-- Whether a text has only characters of names. -/
def IsWord (n : String) : Prop := ∀ c ∈ n.toList, Wgsl.isNameRest c = true

/-- The name that a substitute begins with, a bracket apart. -/
def root (text : String) : String :=
  String.ofList ((text.toList.dropWhile (· == '(')).takeWhile Wgsl.isNameRest)

theorem root_access (v : UniformValue) (member : String) : root (v.access ("fx." ++ member)) = "fx" := by
  have hroot (rest : String) : root ("fx." ++ member ++ rest) = "fx" := by simp [root, Wgsl.isNameRest]
  cases v with
  | vec4 =>
    have hempty := hroot ""
    rwa [String.append_empty] at hempty
  | bool b =>
    show root ("(" ++ ("fx." ++ member) ++ ".x != 0u)") = "fx"
    simp [root, Wgsl.isNameRest]
  | _ => exact hroot _

theorem root_of_isWord {n : String} (h : IsWord n) : root n = n := by
  have hbracket : n.toList.dropWhile (· == '(') = n.toList := by
    cases hn : n.toList with
    | nil => rfl
    | cons c cs =>
      have hc : (c == '(') = false := by
        rw [← Bool.not_eq_true, beq_iff_eq]
        rintro rfl
        exact absurd (h '(' (by rw [hn]; exact List.mem_cons_self)) (by decide)
      rw [List.dropWhile_cons_of_neg (by simp [hc])]
  rw [root, hbracket, List.takeWhile_eq_self_iff.2 h, String.ofList_toList]

theorem isWord_of_isIdentifier {n : String} (h : Wgsl.isIdentifier n = true) : IsWord n := by
  unfold Wgsl.isIdentifier at h
  intro d hd
  split at h
  · cases h
  · cases h
  · cases h
  · next c cs _ _ hn =>
    rw [Bool.and_eq_true] at h
    rw [hn] at hd
    rcases List.mem_cons.1 hd with rfl | hd
    · exact Wgsl.isNameRest_of_isNameStart h.1
    · exact List.all_eq_true.1 h.2 d hd

theorem isNameRest_of_mem_piece {c d : Char} {cs : List Char} (h : (Wgsl.piece c cs).kind = .name)
    (hd : d ∈ c :: (Wgsl.piece c cs).body) : Wgsl.isNameRest d = true := by
  unfold Wgsl.piece at h hd
  split at h
  · cases h
  · split at h
    · cases h
    · split at h
      · next hslash hstar hstart =>
        rw [if_neg hslash, if_neg hstar, if_pos hstart] at hd
        rcases List.mem_cons.1 hd with rfl | hd
        · exact Wgsl.isNameRest_of_isNameStart hstart
        · exact List.mem_takeWhile_imp hd
      · split at h <;> cases h

theorem isNameRest_of_mem_scanFrom {attached : Bool} {cs text : List Char} {free : Bool}
    (h : Wgsl.Token.name text free ∈ Wgsl.scanFrom attached cs) : ∀ c ∈ text, Wgsl.isNameRest c = true := by
  fun_induction Wgsl.scanFrom attached cs with
  | case1 => cases h
  | case3 attached c cs p hkind ih =>
    rcases List.mem_cons.1 h with h | h
    · cases h
      exact fun d hd => isNameRest_of_mem_piece hkind hd
    · exact ih h
  | case2 _ _ _ _ _ ih | case4 _ _ _ _ _ ih | case5 _ _ _ _ _ ih =>
    rcases List.mem_cons.1 h with h | h
    · cases h
    · exact ih h

/-- The names of functions and structures have only characters of names. -/
theorem isWord_of_mem_declaredItems {code : List Char} {n : String} (h : n ∈ Wgsl.declaredItems code) : IsWord n := by
  refine declaredItems_induction (motive := fun names => ∀ n ∈ names, IsWord n) ?_ ?_ n h
  · intro n hn
    cases hn
  · intro names text free htext _ hnames n hn
    rcases List.mem_append.1 hn with hn | hn
    · exact hnames n hn
    · rw [List.mem_singleton.1 hn]
      unfold IsWord
      rw [String.toList_ofList]
      exact isNameRest_of_mem_scanFrom htext

theorem checkName_ok {context : String} {role : NameRole} {n : String} (h : checkName context role n = .ok ()) :
    Wgsl.isIdentifier n = true ∧ Wgsl.isKeyword n = false ∧ beginsWith "fx_" n = false ∧ n ∉ reservedNames := by
  unfold checkName at h
  split at h
  · cases h
  · next husable =>
    split at h
    · cases h
    · next hreserved =>
      rw [Bool.or_eq_true, not_or] at husable hreserved
      exact ⟨by simpa using husable.1, by simpa using husable.2, by simpa using hreserved.1, by simpa using hreserved.2⟩

/-! ## Lookups -/

theorem mem_of_lookup {n text : String} {l : Substitutes} (h : l.lookup n = some text) : (n, text) ∈ l := by
  obtain ⟨before, after, rfl, -⟩ := List.lookup_eq_some_iff.1 h
  exact List.mem_append_right _ List.mem_cons_self

theorem lookup_of_mem {n text : String} {l : Substitutes} (hl : (l.map Prod.fst).Nodup) (h : (n, text) ∈ l) :
    l.lookup n = some text := by
  obtain ⟨before, after, rfl⟩ := List.append_of_mem h
  refine List.lookup_eq_some_iff.2 ⟨before, after, rfl, fun p hp => ?_⟩
  rw [List.map_append, List.map_cons, List.nodup_append] at hl
  rw [bne_iff_ne]
  rintro rfl
  exact hl.2.2 p.1 (List.mem_map_of_mem hp) p.1 List.mem_cons_self rfl

theorem exists_claim {entries : List (String × UniformValue)} {claims : List Claim} {n text : String}
    (h : (n, text) ∈ uniformSubstitutes entries claims) :
    ∃ (v : UniformValue) (member : String), text = v.access ("fx." ++ member) := by
  induction entries generalizing claims with
  | nil => cases h
  | cons e rest ih =>
    cases claims with
    | nil => cases h
    | cons c cs =>
      rcases List.mem_cons.1 h with h | h
      · cases h
        exact ⟨e.2, c.member, rfl⟩
      · exact ih h

section Members

variable {m : Member} {n text : String}

theorem Member.map_fst_substitutes (m : Member) :
    m.substitutes.map Prod.fst = m.uniforms.map Prod.fst ++ m.own := by
  have hlength : m.fused.length = m.own.length := by simp [Member.fused, length_freshNames, Member.bases, Member.own]
  rw [Member.substitutes, List.map_append, List.map_fst_zip (Nat.le_of_eq hlength.symm)]

/-- What has a substitute is a uniform, or a name of the unit's own that has a name at module scope. -/
theorem Member.substitute_cases (h : m.substitute n = some text) :
    n ∈ m.uniforms.map Prod.fst ∧ root text = "fx" ∨ (n, text) ∈ m.own.zip m.fused := by
  rcases List.mem_append.1 (mem_of_lookup h) with hmem | hmem
  · obtain ⟨v, member, rfl⟩ := exists_claim hmem
    exact .inl ⟨List.mem_map_of_mem hmem, root_access v member⟩
  · exact .inr hmem

theorem Member.substitute_eq_none_iff : m.substitute n = none ↔ n ∉ m.uniforms.map Prod.fst ∧ n ∉ m.own := by
  rw [← not_or, ← List.mem_append, ← m.map_fst_substitutes]
  exact lookup_eq_none_iff

theorem Sound.substitute_uniform (h : Sound m) (hn : n ∈ m.uniforms.map Prod.fst) :
    ∃ text, m.substitute n = some text ∧ root text = "fx" := by
  obtain ⟨⟨k, text⟩, hmem, rfl⟩ := List.mem_map.1 hn
  obtain ⟨v, member, rfl⟩ := exists_claim hmem
  refine ⟨_, lookup_of_mem ?_ (List.mem_append_left _ hmem), root_access v member⟩
  rw [m.map_fst_substitutes]
  exact h.distinct

theorem Sound.substitute_own (h : Sound m) (hn : (n, text) ∈ m.own.zip m.fused) : m.substitute n = some text := by
  refine lookup_of_mem ?_ (List.mem_append_right _ hn)
  rw [m.map_fst_substitutes]
  exact h.distinct

end Members

/-! ## Names at module scope -/

/-- What a name at module scope can be made from. -/
structure IsBase (n : String) : Prop where
  word : IsWord n
  ne_empty : n ≠ ""
  ne_block : n ≠ "fx"
  not_fx : beginsWith "fx_" n = false

theorem isBase_of_checkName {context : String} {role : NameRole} {n : String}
    (h : checkName context role n = .ok ()) : IsBase n := by
  obtain ⟨hidentifier, -, hfx, hreserved⟩ := checkName_ok h
  refine ⟨isWord_of_isIdentifier hidentifier, ?_, ?_, hfx⟩
  · rintro rfl
    exact absurd hidentifier (by decide)
  · rintro rfl
    exact hreserved List.mem_cons_self

theorem isBase_prefixed {item : String} (h : IsWord item) (index : Nat) : IsBase s!"e{index}_{item}" := by
  have htext : (s!"e{index}_{item}").toList = 'e' :: (Nat.toDigits 10 index ++ '_' :: item.toList) := by
    have hitem : toString item = item := rfl
    have he : toString "e" = "e" := rfl
    have hunderscore : toString "_" = "_" := rfl
    simp [hitem, he, hunderscore]
  refine ⟨?_, ?_, ?_, ?_⟩
  · intro c hc
    rw [htext] at hc
    rcases List.mem_cons.1 hc with rfl | hc
    · decide
    · rcases List.mem_append.1 hc with hc | hc
      · exact isNameRest_of_mem_numbered (List.mem_cons_of_mem _ hc)
      · rcases List.mem_cons.1 hc with rfl | hc
        · decide
        · exact h c hc
  · intro hempty
    rw [hempty] at htext
    cases htext
  · intro hfx
    rw [hfx] at htext
    exact absurd (List.cons.inj htext).1 (by decide)
  · rw [beginsWith, htext]
    rfl

/-- No fresh name belongs to the scaffold if its base does not. -/
theorem freshName_not_fx {base : String} (h : IsBase base) (index : Nat) (taken : Taken) :
    beginsWith "fx_" (freshName base index taken) = false := by
  obtain ⟨more, htext, hhead, -⟩ := toList_freshName base index taken
  have hback (cs : List Char) (hcs : base.toList = cs) : base = String.ofList cs := by
    rw [← hcs, String.ofList_toList]
  rw [← Bool.not_eq_true]
  intro hbegins
  have hbegins : 'f' :: 'x' :: ['_'] <+: base.toList ++ more := by
    rw [← htext]
    exact List.isPrefixOf_iff_prefix.1 hbegins
  -- An underscore comes first in the rest, so the three characters would have to be those of the base.
  match hb : base.toList with
  | [] => exact h.ne_empty (hback _ hb)
  | [a] =>
    rw [hb, List.cons_append, List.nil_append, List.cons_prefix_cons] at hbegins
    obtain ⟨-, hbegins⟩ := hbegins
    cases more with
    | nil => exact absurd (List.prefix_nil.1 hbegins) (List.cons_ne_nil _ _)
    | cons d more =>
      have hd : d = '_' := by simpa using hhead
      rw [List.cons_prefix_cons, hd] at hbegins
      exact absurd hbegins.1 (by decide)
  | [a, b] =>
    rw [hb, List.cons_append, List.cons_append, List.cons_prefix_cons, List.cons_prefix_cons] at hbegins
    refine h.ne_block (hback _ ?_)
    rw [hb, ← hbegins.1, ← hbegins.2.1]
  | a :: b :: c :: rest =>
    have hbase : beginsWith "fx_" base = true := by
      refine List.isPrefixOf_iff_prefix.2 ?_
      show 'f' :: 'x' :: ['_'] <+: base.toList
      simp only [hb, List.cons_append, List.cons_prefix_cons, List.nil_prefix] at hbegins ⊢
      exact hbegins
    rw [h.not_fx] at hbase
    cases hbase

namespace Sound

variable {m : Member} {n : String}

theorem isBase (h : Sound m) (hn : n ∈ m.bases) : IsBase n := by
  rcases List.mem_append.1 hn with hn | hn
  · obtain ⟨context, role, hcheck⟩ := h.checked n (List.mem_append_right _ hn)
    exact isBase_of_checkName hcheck
  · obtain ⟨item, hitem, rfl⟩ := List.mem_map.1 hn
    exact isBase_prefixed (isWord_of_mem_declaredItems hitem) m.index

theorem isWord_fused (h : Sound m) (hn : n ∈ m.fused) : IsWord n := by
  obtain ⟨b, hb, before, rfl⟩ := exists_base hn
  obtain ⟨more, htext, -, hmore⟩ := toList_freshName b m.index before
  intro c hc
  rw [htext] at hc
  rcases List.mem_append.1 hc with hc | hc
  · exact (h.isBase hb).word c hc
  · exact hmore c hc

theorem root_fused (h : Sound m) (hn : n ∈ m.fused) : root n = n := root_of_isWord (h.isWord_fused hn)

theorem fused_not_fx (h : Sound m) (hn : n ∈ m.fused) : beginsWith "fx_" n = false := by
  obtain ⟨b, hb, before, rfl⟩ := exists_base hn
  exact freshName_not_fx (h.isBase hb) m.index before

theorem fused_not_mem (h : Sound m) (hn : n ∈ m.fused) : n ∉ reservedNames :=
  fun hmem => freshNames_not_mem hn (h.reserved hmem)

end Sound

theorem membersFrom_taken {options : FuseOptions} {index : Nat} {units : List (FuseUnit × UnitPlan)} {taken : Taken}
    {m : Member} (h : m ∈ membersFrom options index units taken) : taken ⊆ m.taken := by
  induction units generalizing index taken with
  | nil => cases h
  | cons u rest ih =>
    rcases List.mem_cons.1 h with rfl | h
    · exact List.Subset.refl _
    · exact fun n hn => ih h (List.mem_append_left _ hn)

/-- No two members of a program have a name at module scope in common. -/
theorem fused_disjoint (options : FuseOptions) (index : Nat) (units : List (FuseUnit × UnitPlan)) (taken : Taken) :
    (membersFrom options index units taken).Pairwise fun m k => ∀ n ∈ m.fused, n ∉ k.fused := by
  induction units generalizing index taken with
  | nil => exact .nil
  | cons u rest ih =>
    refine List.pairwise_cons.2 ⟨fun k hk n hn hmem => ?_, ih (index + 1) _⟩
    exact freshNames_not_mem hmem (membersFrom_taken hk (List.mem_append_right _ hn))

end ScreenFusion.Fusion
