import Mathlib.Data.List.Induction
import Mathlib.Logic.Basic
import ScreenFusion.Act
import ScreenFusion.Effect.Basic

/-!
# ScreenFusion.Proofs.Effect.Loading — what of a descriptor gets into its effect

A descriptor lists uniforms and defines, and an effect has maps of them.  A uniform name that comes twice is an error.  A
define name that comes twice is none: the define keeps its place and gets the later value, and the earlier value is lost.

* `OrderedMap.names_insertMany`, `OrderedMap.get?_insertMany`, `OrderedMap.entries_insertMany_iff`: what becomes of a
  list that is read into a map.
* `EffectDescriptor.Admissible`, `EffectDescriptor.Refusal`: the descriptors that are taken, and the errors for the rest.
* `EffectDescriptor.Carried`, `EffectDescriptor.Lossless`, `EffectDescriptor.Merged`: what the effect has of them.
* `Effect.ofDescriptor_loading`: loading loses nothing if and only if no define name comes twice.
-/

namespace ScreenFusion

/-! ## Lists that are read into maps -/

namespace OrderedMap

variable {V : Type}

theorem entries_insert_of_not_mem {m : OrderedMap V} {name : String} (h : name ∉ m.names) (value : V) :
    (m.insert name value).entries = m.entries ++ [(name, value)] := by
  rw [insert, dif_neg h]

/-- The last entry of a list is inserted last. -/
theorem insertMany_append_singleton (m : OrderedMap V) (entries : List (String × V)) (e : String × V) :
    m.insertMany (entries ++ [e]) = (m.insertMany entries).insert e.1 e.2 := by
  unfold insertMany
  rw [List.foldl_append]
  rfl

/-- Names stand where they come first. -/
theorem names_insertMany (entries : List (String × V)) :
    (empty.insertMany entries).names = (entries.map Prod.fst).eraseDups := by
  induction entries using List.reverseRecOn with
  | nil => rfl
  | append_singleton entries e ih =>
    have hmem : e.1 ∈ (empty.insertMany entries).names ↔ e.1 ∈ entries.map Prod.fst := by
      rw [ih, List.mem_eraseDups]
    rw [insertMany_append_singleton, List.map_append, List.eraseDups_append]
    by_cases he : e.1 ∈ entries.map Prod.fst
    · rw [names_insert_of_mem (hmem.2 he), ih]
      simp [List.cons_removeAll, he]
    · rw [names_insert_of_not_mem (hmem.not.2 he), ih]
      simp [List.cons_removeAll, List.eraseDups_cons, he]

/-- Of several values under a name the last one is kept. -/
theorem get?_insertMany (entries : List (String × V)) (name : String) :
    (empty.insertMany entries).get? name = entries.reverse.lookup name := by
  induction entries using List.reverseRecOn with
  | nil => rfl
  | append_singleton entries e ih =>
    rw [insertMany_append_singleton, get?_insert, ih, List.reverse_append, List.reverse_singleton, List.singleton_append,
      List.lookup_cons]
    by_cases hn : name = e.1
    · rw [if_pos hn, beq_iff_eq.2 hn]
    · rw [if_neg hn, beq_false_of_ne hn]

/-- A map has the entries of a list as they are if and only if no name comes twice in the list. -/
theorem entries_insertMany_iff (entries : List (String × V)) :
    (empty.insertMany entries).entries = entries ↔ (entries.map Prod.fst).Nodup := by
  refine ⟨fun h => h ▸ (empty.insertMany entries).nodup, fun hd => ?_⟩
  induction entries using List.reverseRecOn with
  | nil => rfl
  | append_singleton entries e ih =>
    rw [List.map_append, List.nodup_append] at hd
    have hnew : e.1 ∉ (empty.insertMany entries).names := by
      rw [names_insertMany, List.mem_eraseDups]
      exact fun hin => hd.2.2 e.1 hin e.1 List.mem_cons_self rfl
    rw [insertMany_append_singleton, entries_insert_of_not_mem hnew, ih hd.1]

end OrderedMap

/-! ## Tokens -/

namespace Attributes

variable {a : Attributes} {t : String} {ts : List String} {e : Error}

/-- Whether a flag is set. -/
def Has (a : Attributes) (flag : Nat) : Prop := a.bits.toNat.testBit flag = true

theorem not_has_none (flag : Nat) : ¬ none.Has flag := by
  show ¬ Nat.testBit 0 flag = true
  rw [Nat.zero_testBit]
  exact Bool.false_ne_true

theorem has_union (a b : Attributes) (flag : Nat) : (a.union b).Has flag ↔ a.Has flag ∨ b.Has flag := by
  unfold Has union
  rw [UInt8.toNat_or, Nat.testBit_or, Bool.or_eq_true]

theorem parse_error (h : parse t = .error e) :
    e = .configuration "effect attributes" (.unknownAttribute (Text.keyword t)) := by
  unfold parse at h
  split at h
  case h_4 => exact (Except.error.inj h).symm
  all_goals cases h

/-- Tokens are read together if each is one, to what any of them names. -/
theorem parseAll_ok (h : parseAll ts = .ok a) :
    (∀ t ∈ ts, ∃ b, parse t = .ok b) ∧ ∀ flag, a.Has flag ↔ ∃ t ∈ ts, ∃ b, parse t = .ok b ∧ b.Has flag := by
  induction ts generalizing a with
  | nil =>
    cases h
    exact ⟨nofun, fun flag => ⟨fun hf => absurd hf (not_has_none flag), nofun⟩⟩
  | cons t ts ih =>
    obtain ⟨b, hb, h⟩ := ok_of_bind h
    obtain ⟨c, hc, h⟩ := ok_of_bind h
    cases h
    obtain ⟨known, has⟩ := ih hc
    refine ⟨List.forall_mem_cons.2 ⟨⟨b, hb⟩, known⟩, fun flag => ?_⟩
    rw [has_union, has]
    simp only [List.mem_cons, exists_eq_or_imp]
    refine or_congr_left ⟨fun hf => ⟨b, hb, hf⟩, ?_⟩
    rintro ⟨b', hb', hf⟩
    cases hb.symm.trans hb'
    exact hf

/-- Reading tokens fails with the error of the first that is none. -/
theorem parseAll_error (h : parseAll ts = .error e) : ∃ before t after, ts = before ++ t :: after ∧
    (∀ s ∈ before, ∃ b, parse s = .ok b) ∧ parse t = .error e := by
  induction ts with
  | nil => cases h
  | cons t ts ih =>
    rw [parseAll] at h
    cases ht : parse t with
    | error e' =>
      rw [ht] at h
      cases h
      exact ⟨[], t, ts, rfl, nofun, ht⟩
    | ok b =>
      cases hts : parseAll ts with
      | error e' =>
        rw [ht, hts] at h
        cases h
        obtain ⟨before, t', after, rfl, known, ht'⟩ := ih hts
        exact ⟨t :: before, t', after, rfl, List.forall_mem_cons.2 ⟨⟨b, ht⟩, known⟩, ht'⟩
      | ok c =>
        rw [ht, hts] at h
        cases h

end Attributes

/-! ## Descriptors -/

namespace EffectDescriptor

variable {d : EffectDescriptor} {err : Error}

/-- The uniforms as named values. -/
def uniformEntries (d : EffectDescriptor) : List (String × UniformValue) := d.uniforms.map fun u => (u.name, u.value)

/-- The defines as named values. -/
def defineEntries (d : EffectDescriptor) : List (String × String) := d.defines.map fun x => (x.name, x.value)

/-- Every token names attributes, and no uniform name comes twice. -/
structure Admissible (d : EffectDescriptor) : Prop where
  tokens : ∀ t ∈ d.attributes, ∃ a, Attributes.parse t = .ok a
  uniforms : (d.uniforms.map UniformDescriptor.name).Nodup

/-- The error for a descriptor: for the first token that names no attribute, and if there is none, for the first uniform
name that has come before. -/
inductive Refusal (d : EffectDescriptor) : Error → Prop where
  | token {before after : List String} {t : String} : d.attributes = before ++ t :: after →
      (∀ s ∈ before, ∃ a, Attributes.parse s = .ok a) → (∀ a, Attributes.parse t ≠ .ok a) →
      Refusal d (.configuration "effect attributes" (.unknownAttribute (Text.keyword t)))
  | uniform {before after : List UniformDescriptor} {u : UniformDescriptor} :
      (∀ t ∈ d.attributes, ∃ a, Attributes.parse t = .ok a) → d.uniforms = before ++ u :: after →
      (before.map UniformDescriptor.name).Nodup → u.name ∈ before.map UniformDescriptor.name →
      Refusal d (.configuration s!"effect {d.name}" (.repeatedUniform u.name))

theorem Refusal.not_admissible (refusal : d.Refusal err) : ¬ d.Admissible := by
  rintro ⟨tokens, uniforms⟩
  cases refusal with
  | token hd _ ht =>
    obtain ⟨a, ha⟩ := tokens _ (hd ▸ List.mem_append_right _ List.mem_cons_self)
    exact ht a ha
  | uniform _ hd _ hu =>
    rw [hd, List.map_append, List.nodup_append] at uniforms
    exact uniforms.2.2 _ hu _ List.mem_cons_self rfl

/-- The effect has the texts, the blend mode and the uniforms of the descriptor, and the attributes that any of its
tokens names. -/
structure Carried (d : EffectDescriptor) (e : Effect) : Prop where
  name : e.name = d.name
  shader : e.shader = d.shader
  blend : e.blend = d.blend
  uniforms : e.uniforms.entries = d.uniformEntries
  attributes : ∀ flag, e.attributes.Has flag ↔ ∃ t ∈ d.attributes, ∃ a, Attributes.parse t = .ok a ∧ a.Has flag

/-- The effect also has the defines, in the order and with the values of the descriptor. -/
structure Lossless (d : EffectDescriptor) (e : Effect) : Prop extends Carried d e where
  defines : e.defines.entries = d.defineEntries

/-- The effect also has the defines, each where its name comes first and with the value that comes last. -/
structure Merged (d : EffectDescriptor) (e : Effect) : Prop extends Carried d e where
  names : e.defines.names = (d.defines.map DefineDescriptor.name).eraseDups
  values : ∀ name, e.defines.get? name = d.defineEntries.reverse.lookup name

/-- What loading comes to. -/
inductive Loading (d : EffectDescriptor) : Except Error Effect → Prop where
  | refused {err : Error} : d.Refusal err → Loading d (.error err)
  | loaded {e : Effect} : d.Admissible → d.Merged e → Loading d (.ok e)

/-- A configuration error, or an effect from which nothing is lost. -/
def LoadsWhole (d : EffectDescriptor) : Except Error Effect → Prop
  | .error err => ∃ context cause, err = .configuration context cause
  | .ok e => d.Lossless e

theorem Refusal.loadsWhole (refusal : d.Refusal err) : d.LoadsWhole (.error err) := by
  cases refusal with
  | token => exact ⟨_, _, rfl⟩
  | uniform => exact ⟨_, _, rfl⟩

end EffectDescriptor

/-! ## Loading -/

namespace Effect

variable {context : String} {us : List UniformDescriptor} {m m' : OrderedMap UniformValue} {err : Error}

theorem uniformsOf_ok (h : uniformsOf context us m = .ok m') :
    (m.names ++ us.map UniformDescriptor.name).Nodup ∧ m'.entries = m.entries ++ us.map fun u => (u.name, u.value) := by
  induction us generalizing m with
  | nil =>
    cases h
    rw [List.map_nil, List.append_nil, List.map_nil, List.append_nil]
    exact ⟨m'.nodup, rfl⟩
  | cons u us ih =>
    rw [uniformsOf] at h
    split at h
    · cases h
    · next hu =>
      have hnew : u.name ∉ m.names := OrderedMap.contains_iff.not.1 hu
      obtain ⟨hd, hentries⟩ := ih h
      rw [OrderedMap.names_insert_of_not_mem hnew, List.append_assoc] at hd
      rw [OrderedMap.entries_insert_of_not_mem hnew, List.append_assoc] at hentries
      exact ⟨hd, hentries⟩

theorem uniformsOf_error (h : uniformsOf context us m = .error err) : ∃ before u after, us = before ++ u :: after ∧
    (m.names ++ before.map UniformDescriptor.name).Nodup ∧ u.name ∈ m.names ++ before.map UniformDescriptor.name ∧
    err = .configuration context (.repeatedUniform u.name) := by
  induction us generalizing m with
  | nil => cases h
  | cons u us ih =>
    rw [uniformsOf] at h
    split at h
    · next hu =>
      refine ⟨[], u, us, rfl, ?_, ?_, (Except.error.inj h).symm⟩
      · rw [List.map_nil, List.append_nil]
        exact m.nodup
      · rw [List.map_nil, List.append_nil]
        exact OrderedMap.contains_iff.1 hu
    · next hu =>
      have hnew : u.name ∉ m.names := OrderedMap.contains_iff.not.1 hu
      obtain ⟨before, v, after, rfl, hd, hv, herr⟩ := ih h
      rw [OrderedMap.names_insert_of_not_mem hnew, List.append_assoc] at hd hv
      exact ⟨u :: before, v, after, rfl, hd, hv, herr⟩

theorem loading_ofDescriptor (id : Nat) (d : EffectDescriptor) : d.Loading (ofDescriptor id d) := by
  unfold ofDescriptor
  cases ha : Attributes.parseAll d.attributes with
  | error e =>
    obtain ⟨before, t, after, hd, known, ht⟩ := Attributes.parseAll_error ha
    have unknown (a : Attributes) : Attributes.parse t ≠ .ok a := fun hok => by cases ht.symm.trans hok
    rw [Attributes.parse_error ht]
    exact .refused (.token hd known unknown)
  | ok attributes =>
    obtain ⟨known, has⟩ := Attributes.parseAll_ok ha
    cases hu : uniformsOf s!"effect {d.name}" d.uniforms .empty with
    | error e =>
      obtain ⟨before, u, after, hd, distinct, hmem, rfl⟩ := uniformsOf_error hu
      rw [OrderedMap.names_empty, List.nil_append] at distinct hmem
      exact .refused (.uniform known hd distinct hmem)
    | ok uniforms =>
      obtain ⟨distinct, hentries⟩ := uniformsOf_ok hu
      rw [OrderedMap.names_empty, List.nil_append] at distinct
      refine .loaded ⟨known, distinct⟩ ⟨⟨rfl, rfl, rfl, hentries, has⟩, ?_, OrderedMap.get?_insertMany _⟩
      show (OrderedMap.empty.insertMany d.defineEntries).names = _
      rw [OrderedMap.names_insertMany, EffectDescriptor.defineEntries, List.map_map]
      rfl

theorem defines_of_ofDescriptor {id : Nat} {d : EffectDescriptor} {e : Effect} (h : ofDescriptor id d = .ok e) :
    e.defines = OrderedMap.empty.insertMany d.defineEntries := by
  unfold ofDescriptor at h
  obtain ⟨attributes, -, h⟩ := ok_of_bind h
  obtain ⟨uniforms, -, h⟩ := ok_of_bind h
  cases h
  rfl

/-- What loading a descriptor comes to, and when nothing is lost by it: if the descriptor is refused, or if no define name
comes twice. -/
theorem ofDescriptor_loading (id : Nat) (d : EffectDescriptor) :
    d.Loading (ofDescriptor id d) ∧
      (d.LoadsWhole (ofDescriptor id d) ↔ ¬ d.Admissible ∨ (d.defines.map DefineDescriptor.name).Nodup) := by
  have loading := loading_ofDescriptor id d
  refine ⟨loading, ?_⟩
  cases hr : ofDescriptor id d with
  | error err =>
    rw [hr] at loading
    cases loading with
    | refused refusal => exact iff_of_true refusal.loadsWhole (.inl refusal.not_admissible)
  | ok e =>
    rw [hr] at loading
    cases loading with
    | loaded admissible merged =>
      have hnames : d.defineEntries.map Prod.fst = d.defines.map DefineDescriptor.name := List.map_map
      rw [or_iff_right (not_not_intro admissible), ← hnames, ← OrderedMap.entries_insertMany_iff,
        ← defines_of_ofDescriptor hr]
      exact ⟨fun lossless => lossless.defines, fun h => ⟨merged.toCarried, h⟩⟩

/-- A descriptor that gives one define two values. -/
def twiceDefined : EffectDescriptor := { (default : EffectDescriptor) with defines := [⟨"A", "1"⟩, ⟨"A", "2"⟩] }

/-- It is taken, and the first value is lost. -/
theorem twiceDefined_not_loadsWhole :
    (ofDescriptor 0 twiceDefined).map (·.defines.entries) = .ok [("A", "2")] ∧
      ¬ twiceDefined.LoadsWhole (ofDescriptor 0 twiceDefined) := by
  refine ⟨by decide, fun whole => ?_⟩
  have lossless : twiceDefined.Lossless _ := whole
  exact absurd lossless.defines (by decide)

end Effect

end ScreenFusion
