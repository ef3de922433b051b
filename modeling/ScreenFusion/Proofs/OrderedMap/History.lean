import Mathlib.Data.List.DropRight
import Mathlib.Data.List.Induction
import Mathlib.Order.Bounds.Basic
import ScreenFusion.OrderedMap

/-!
# ScreenFusion.Proofs.OrderedMap.History — a map and the calls that made it

A map can be worked on as a plain list of entries, in which the first entry of a name is the one that counts: a look-up
finds it, an insertion writes into it or adds an entry at the end, a removal takes it out.  The list does not see to it
that a name has one entry only.  But no calls lead from the empty list to a second one, and so the list is at all times
what the calls alone say: the latest value of each name, in the order in which the names have come.

* `Entries.put`, `Entries.alter`, `Entries.take`: the calls on a plain list.
* `MapCall.onEntries_entries`: on the entries of a map they do what the calls on the map do.
* `MapCall.life`, `MapCall.written`: the calls on a name since it was last removed, and the value that they leave.
* `MapCall.insertions`, `MapCall.Born`: the insertions of a name since it was last removed, and the first of them.
* `entries_of_calls`: after any calls, the entries are what the calls say, and so is every answer.
-/

namespace ScreenFusion

variable {V : Type}

/-! ## Entries without an invariant -/

/-- Named values in a list; a name may have several. -/
abbrev Entries (V : Type) := List (String × V)

namespace Entries

/-- The names in order, each as often as it is there. -/
def names (es : Entries V) : List String := es.map Prod.fst

/-- The value of the first entry of a name. -/
def first (name : String) (es : Entries V) : Option V := (es.find? fun e => e.1 == name).map Prod.snd

/-- Writes to the first entry of a name, or adds an entry at the end: the value written over, and the entries. -/
def put (name : String) (value : V) : Entries V → Option V × Entries V
  | [] => (none, [(name, value)])
  | e :: rest =>
    if e.1 = name then (some e.2, (e.1, value) :: rest)
    else ((put name value rest).1, e :: (put name value rest).2)

/-- Changes the value of the first entry of a name, if there is one: the value before, and the entries. -/
def alter (name : String) (f : V → V) : Entries V → Option V × Entries V
  | [] => (none, [])
  | e :: rest =>
    if e.1 = name then (some e.2, (e.1, f e.2) :: rest)
    else ((alter name f rest).1, e :: (alter name f rest).2)

/-- Takes out the first entry of a name, if there is one: its value, and the other entries. -/
def take (name : String) : Entries V → Option V × Entries V
  | [] => (none, [])
  | e :: rest =>
    if e.1 = name then (some e.2, rest)
    else ((take name rest).1, e :: (take name rest).2)

section

variable {name : String} {es : Entries V}

theorem first_cons (e : String × V) (rest : Entries V) :
    first name (e :: rest) = if e.1 = name then some e.2 else first name rest := by
  unfold first
  by_cases h : e.1 = name <;> simp [h]

theorem mem_names_cons (e : String × V) (rest : Entries V) :
    name ∈ names (e :: rest) ↔ e.1 = name ∨ name ∈ names rest := by
  rw [names, List.map_cons, List.mem_cons, eq_comm]
  rfl

theorem replaceIn_cons (e : String × V) (rest : Entries V) (value : V) :
    OrderedMap.replaceIn name value (e :: rest) =
      (if e.1 = name then (e.1, value) else e) :: OrderedMap.replaceIn name value rest := rfl

theorem replaceIn_eq_self (h : name ∉ names es) (value : V) : OrderedMap.replaceIn name value es = es := by
  induction es with
  | nil => rfl
  | cons e rest ih =>
    rw [mem_names_cons, not_or] at h
    rw [replaceIn_cons, if_neg h.1, ih h.2]

theorem filter_eq_self (h : name ∉ names es) : (es.filter fun e => e.1 ≠ name) = es := by
  refine List.filter_eq_self.2 fun e he => decide_eq_true ?_
  rintro rfl
  exact h (List.mem_map_of_mem he)

/-- Where names are distinct, writing to the first entry of a name is writing to all. -/
theorem put_eq (hd : (names es).Nodup) (value : V) :
    put name value es =
      (first name es, if name ∈ names es then OrderedMap.replaceIn name value es else es ++ [(name, value)]) := by
  induction es with
  | nil => rfl
  | cons e rest ih =>
    obtain ⟨hnew, hd⟩ := List.nodup_cons.1 hd
    rw [put, first_cons, replaceIn_cons]
    by_cases he : e.1 = name
    · rw [if_pos he, if_pos he, if_pos ((mem_names_cons e rest).2 (.inl he)), if_pos he, replaceIn_eq_self (he ▸ hnew)]
    · rw [if_neg he, if_neg he, if_neg he, ih hd, List.cons_append]
      by_cases hm : name ∈ names rest
      · rw [if_pos hm, if_pos ((mem_names_cons e rest).2 (.inr hm))]
      · rw [if_neg hm, if_neg ((mem_names_cons e rest).not.2 (not_or.2 ⟨he, hm⟩))]

theorem alter_eq (hd : (names es).Nodup) (f : V → V) :
    alter name f es =
      (first name es, ((first name es).map fun v => OrderedMap.replaceIn name (f v) es).getD es) := by
  induction es with
  | nil => rfl
  | cons e rest ih =>
    obtain ⟨hnew, hd⟩ := List.nodup_cons.1 hd
    rw [alter, first_cons]
    by_cases he : e.1 = name
    · rw [if_pos he, if_pos he, Option.map_some, Option.getD_some, replaceIn_cons, if_pos he,
        replaceIn_eq_self (he ▸ hnew)]
    · rw [if_neg he, if_neg he, ih hd]
      cases first name rest with
      | none => rfl
      | some v => rw [Option.map_some, Option.map_some, Option.getD_some, Option.getD_some, replaceIn_cons, if_neg he]

/-- Where names are distinct, taking out the first entry of a name is taking out all. -/
theorem take_eq (hd : (names es).Nodup) : take name es = (first name es, es.filter fun e => e.1 ≠ name) := by
  induction es with
  | nil => rfl
  | cons e rest ih =>
    obtain ⟨hnew, hd⟩ := List.nodup_cons.1 hd
    rw [take, first_cons, List.filter_cons]
    by_cases he : e.1 = name
    · rw [if_pos he, if_pos he, if_neg (by simpa using he), filter_eq_self (he ▸ hnew)]
    · rw [if_neg he, if_neg he, if_pos (by simpa using he), ih hd]

end

end Entries

namespace OrderedMap

theorem get?_modify (m : OrderedMap V) (name other : String) (f : V → V) :
    (m.modify name f).get? other = if other = name then (m.get? name).map f else m.get? other := by
  unfold modify
  cases h : m.get? name with
  | none =>
    dsimp only
    split
    · next ho => rw [ho, h, Option.map_none]
    · rfl
  | some v => rw [get?_insert, Option.map_some]

theorem names_modify (m : OrderedMap V) (name : String) (f : V → V) : (m.modify name f).names = m.names := by
  unfold modify
  cases h : m.get? name with
  | none => rfl
  | some v =>
    refine names_insert_of_mem (contains_iff.1 ?_) (f v)
    rw [contains, h, Option.isSome_some]

end OrderedMap

/-! ## Calls -/

/-- A call on a map. -/
inductive MapCall (V : Type) where
  | insert (name : String) (value : V)
  /-- The value under a name is changed where it stands. -/
  | update (name : String) (f : V → V)
  | remove (name : String)

namespace MapCall

/-- The name that a call is about. -/
def name : MapCall V → String
  | insert n _ | update n _ | remove n => n

/-- Whether a call is a removal. -/
def removes : MapCall V → Bool
  | remove _ => true
  | _ => false

/-- Whether a call is not the removal of a name. -/
def spares (n : String) : MapCall V → Bool
  | remove k => k != n
  | _ => true

/-- A call on a map: the value found, and the map after it. -/
def onMap (m : OrderedMap V) : MapCall V → Option V × OrderedMap V
  | insert n value => m.getThenInsert n value
  | update n f => (m.get? n, m.modify n f)
  | remove n => m.getThenErase n

/-- A call on a plain list: the value found, and the entries after it. -/
def onEntries (es : Entries V) : MapCall V → Option V × Entries V
  | insert n value => Entries.put n value es
  | update n f => Entries.alter n f es
  | remove n => Entries.take n es

/-- What a call makes of the value under its name. -/
def write (old : Option V) : MapCall V → Option V
  | insert _ value => some value
  | update _ f => old.map f
  | remove _ => none

end MapCall

open MapCall

/-- The map that some calls make of the empty one. -/
def OrderedMap.after (calls : List (MapCall V)) : OrderedMap V := calls.foldl (fun m c => (c.onMap m).2) empty

/-- The list that some calls make of the empty one. -/
def Entries.after (calls : List (MapCall V)) : Entries V := calls.foldl (fun es c => (c.onEntries es).2) []

namespace MapCall

variable {c : MapCall V} {calls : List (MapCall V)} {n : String} {i : Nat}

theorem onMap_fst (c : MapCall V) (m : OrderedMap V) : (c.onMap m).1 = m.get? c.name := by cases c <;> rfl

theorem get?_onMap (c : MapCall V) (m : OrderedMap V) (n : String) :
    (c.onMap m).2.get? n = if n = c.name then c.write (m.get? n) else m.get? n := by
  cases c with
  | insert k value => exact m.get?_insert k n value
  | update k f =>
    refine (m.get?_modify k n f).trans ?_
    split
    · next h => rw [name, if_pos h, write, h]
    · next h => rw [name, if_neg h]
  | remove k => exact m.get?_erase k n

theorem spares_iff : c.spares n = true ↔ c ≠ remove n := by
  cases c with
  | remove k => exact bne_iff_ne.trans (not_congr ⟨fun h => h ▸ rfl, fun h => (remove.inj h)⟩)
  | _ => exact iff_of_true rfl nofun

/-- A call adds a name at the end, or takes a name out and leaves the others in their order. -/
theorem names_onMap (c : MapCall V) (m : OrderedMap V) :
    (∃ n value, c = insert n value ∧ n ∉ m.names ∧ (c.onMap m).2.names = m.names ++ [n]) ∨
      (∀ n value, c = insert n value → n ∈ m.names) ∧ (c.onMap m).2.names = m.names.filter fun n => c.spares n := by
  cases c with
  | insert n value =>
    by_cases h : n ∈ m.names
    · refine .inr ⟨?_, (OrderedMap.names_insert_of_mem h value).trans (List.filter_true m.names).symm⟩
      rintro _ _ ⟨⟩
      exact h
    · exact .inl ⟨n, value, rfl, h, OrderedMap.names_insert_of_not_mem h value⟩
  | update n f => exact .inr ⟨nofun, (m.names_modify n f).trans (List.filter_true m.names).symm⟩
  | remove n =>
    refine .inr ⟨nofun, (m.names_erase n).trans (List.filter_congr fun k _ => ?_)⟩
    rw [spares, decide_not, bne, Bool.beq_comm]
    rfl

theorem mem_names_onMap (c : MapCall V) (m : OrderedMap V) (n : String) :
    n ∈ (c.onMap m).2.names ↔ n ∈ m.names ∧ c ≠ remove n ∨ ∃ value, c = insert n value := by
  rcases c.names_onMap m with ⟨k, value, rfl, -, hnames⟩ | ⟨hold, hnames⟩
  · rw [hnames, List.mem_append, List.mem_singleton]
    simp [eq_comm]
  · rw [hnames, List.mem_filter, spares_iff]
    refine ⟨.inl, fun h => h.elim id ?_⟩
    rintro ⟨value, rfl⟩
    exact ⟨hold n value rfl, nofun⟩

/-- On the entries of a map, a call on a plain list finds and leaves what the call on the map does. -/
theorem onEntries_entries (c : MapCall V) (m : OrderedMap V) :
    c.onEntries m.entries = ((c.onMap m).1, (c.onMap m).2.entries) := by
  cases c with
  | insert n value =>
    refine (Entries.put_eq m.nodup value).trans (Prod.ext rfl ?_)
    show (if n ∈ m.names then _ else _) = (m.insert n value).entries
    unfold OrderedMap.insert
    split <;> rfl
  | update n f =>
    refine (Entries.alter_eq m.nodup f).trans (Prod.ext rfl ?_)
    show ((m.get? n).map _).getD m.entries = (m.modify n f).entries
    unfold OrderedMap.modify
    cases h : m.get? n with
    | none => rfl
    | some v =>
      have hmem : n ∈ m.names := OrderedMap.contains_iff.1 (by rw [OrderedMap.contains, h, Option.isSome_some])
      rw [Option.map_some, Option.getD_some]
      show _ = (m.insert n (f v)).entries
      rw [OrderedMap.insert, dif_pos hmem]
  | remove n => exact Entries.take_eq m.nodup

theorem after_append_singleton (calls : List (MapCall V)) (c : MapCall V) :
    OrderedMap.after (calls ++ [c]) = (c.onMap (OrderedMap.after calls)).2 := by
  unfold OrderedMap.after
  rw [List.foldl_append]
  rfl

theorem entries_after (calls : List (MapCall V)) : Entries.after calls = (OrderedMap.after calls).entries := by
  induction calls using List.reverseRecOn with
  | nil => rfl
  | append_singleton calls c ih =>
    rw [after_append_singleton, Entries.after, List.foldl_append]
    show (c.onEntries (Entries.after calls)).2 = _
    rw [ih, onEntries_entries]

/-! ## What the calls say of a name -/

/-- The calls on a name since it was last removed. -/
def life (n : String) (calls : List (MapCall V)) : List (MapCall V) :=
  (calls.filter fun c => n = c.name).rtakeWhile fun c => !c.removes

/-- The value that calls on one name leave. -/
def written (calls : List (MapCall V)) : Option V := calls.foldl write none

/-- The places among the calls at which a name is inserted and after which it is not removed. -/
def insertions (n : String) (calls : List (MapCall V)) : Set Nat :=
  {i | (∃ value, calls[i]? = some (insert n value)) ∧ ∀ j, i < j → calls[j]? ≠ some (remove n)}

/-- The place of the first insertion of a name since it was last removed. -/
def Born (n : String) (calls : List (MapCall V)) (i : Nat) : Prop := IsLeast (insertions n calls) i

/-- A name has been inserted before another, both since they were last removed. -/
def Older (calls : List (MapCall V)) (n k : String) : Prop := ∀ i j, Born n calls i → Born k calls j → i < j

theorem written_life_append_singleton :
    written (life n (calls ++ [c])) =
      if n = c.name then c.write (written (life n calls)) else written (life n calls) := by
  unfold life
  rw [List.filter_append]
  by_cases h : n = c.name
  · rw [if_pos h, List.filter_singleton, decide_eq_true h, cond_true, List.rtakeWhile_concat]
    cases c with
    | remove k => rfl
    | insert k value => exact List.foldl_append
    | update k f => exact List.foldl_append
  · rw [if_neg h, List.filter_singleton, decide_eq_false h, cond_false, List.append_nil]

theorem lt_of_mem_insertions (h : i ∈ insertions n calls) : i < calls.length := by
  obtain ⟨⟨value, hi⟩, -⟩ := h
  exact (List.getElem?_eq_some_iff.1 hi).1

theorem mem_insertions_append_singleton :
    i ∈ insertions n (calls ++ [c]) ↔
      i ∈ insertions n calls ∧ c ≠ remove n ∨ i = calls.length ∧ ∃ value, c = insert n value := by
  have hlast : (calls ++ [c])[calls.length]? = some c := List.getElem?_concat_length
  have hbefore {j : Nat} (hj : j < calls.length) : (calls ++ [c])[j]? = calls[j]? := List.getElem?_append_left hj
  have hbeyond {j : Nat} (hj : calls.length < j) : (calls ++ [c])[j]? = none :=
    List.getElem?_eq_none (by rwa [List.length_append])
  constructor
  · rintro ⟨⟨value, hi⟩, hlater⟩
    rcases Nat.lt_trichotomy i calls.length with hlt | rfl | hgt
    · refine .inl ⟨⟨⟨value, hbefore hlt ▸ hi⟩, fun j hj hr => ?_⟩, fun hc => ?_⟩
      · have hjlt := (List.getElem?_eq_some_iff.1 hr).1
        exact hlater j hj (by rw [hbefore hjlt, hr])
      · exact hlater calls.length hlt (by rw [hlast, hc])
    · rw [hlast] at hi
      exact .inr ⟨rfl, value, Option.some.inj hi⟩
    · rw [hbeyond hgt] at hi
      cases hi
  · rintro (⟨hi, hc⟩ | ⟨rfl, value, rfl⟩)
    · obtain ⟨⟨value, hv⟩, hlater⟩ := id hi
      refine ⟨⟨value, by rw [hbefore (lt_of_mem_insertions hi), hv]⟩, fun j hj hr => ?_⟩
      rcases Nat.lt_trichotomy j calls.length with hlt | rfl | hgt
      · exact hlater j hj (by rw [← hbefore hlt, hr])
      · exact hc (Option.some.inj (hlast.symm.trans hr))
      · rw [hbeyond hgt] at hr
        cases hr
    · refine ⟨⟨value, hlast⟩, fun j hj hr => ?_⟩
      rw [hbeyond hj] at hr
      cases hr

theorem nonempty_insertions_append_singleton :
    (insertions n (calls ++ [c])).Nonempty ↔
      (insertions n calls).Nonempty ∧ c ≠ remove n ∨ ∃ value, c = insert n value := by
  constructor
  · rintro ⟨i, hi⟩
    rcases mem_insertions_append_singleton.1 hi with ⟨hi, hc⟩ | ⟨-, hc⟩
    · exact .inl ⟨⟨i, hi⟩, hc⟩
    · exact .inr hc
  · rintro (⟨⟨i, hi⟩, hc⟩ | hc)
    · exact ⟨i, mem_insertions_append_singleton.2 (.inl ⟨hi, hc⟩)⟩
    · exact ⟨calls.length, mem_insertions_append_singleton.2 (.inr ⟨rfl, hc⟩)⟩

/-- A call that does not remove a name that is there leaves its first insertion where it is. -/
theorem born_append_singleton (h : (insertions n calls).Nonempty) (hc : c ≠ remove n) :
    Born n (calls ++ [c]) i ↔ Born n calls i := by
  obtain ⟨k, hk⟩ := h
  have hkept {j : Nat} (hj : j ∈ insertions n calls) : j ∈ insertions n (calls ++ [c]) :=
    mem_insertions_append_singleton.2 (.inl ⟨hj, hc⟩)
  constructor
  · rintro ⟨hi, least⟩
    refine ⟨?_, fun j hj => least (hkept hj)⟩
    rcases mem_insertions_append_singleton.1 hi with ⟨hi, -⟩ | ⟨rfl, -⟩
    · exact hi
    · exact absurd (least (hkept hk)) (Nat.not_le.2 (lt_of_mem_insertions hk))
  · rintro ⟨hi, least⟩
    refine ⟨hkept hi, fun j hj => ?_⟩
    rcases mem_insertions_append_singleton.1 hj with ⟨hj, -⟩ | ⟨rfl, -⟩
    · exact least hj
    · exact (lt_of_mem_insertions hi).le

/-- A name that is not there is born with the next call that inserts it. -/
theorem eq_length_of_born (h : ¬ (insertions n calls).Nonempty) (hb : Born n (calls ++ [c]) i) : i = calls.length := by
  rcases mem_insertions_append_singleton.1 hb.1 with ⟨hi, -⟩ | ⟨hi, -⟩
  · exact absurd ⟨i, hi⟩ h
  · exact hi

/-- A call that removes neither of two names that are there leaves the older one the older. -/
theorem Older.append_singleton {k : String} (h : Older calls n k) (hn : (insertions n calls).Nonempty)
    (hk : (insertions k calls).Nonempty) (hcn : c ≠ remove n) (hck : c ≠ remove k) : Older (calls ++ [c]) n k :=
  fun i j hi hj => h i j ((born_append_singleton hn hcn).1 hi) ((born_append_singleton hk hck).1 hj)

end MapCall

/-! ## Runs -/

/-- A list of entries is what some calls say: no name is there twice, each is there with the value last written since it
was last removed, and the names stand in the order of their first insertions since then. -/
structure Entries.Tells (calls : List (MapCall V)) (es : Entries V) : Prop where
  distinct : es.names.Nodup
  found : ∀ n, Entries.first n es = written (life n calls)
  present : ∀ n, n ∈ es.names ↔ (insertions n calls).Nonempty
  ordered : es.names.Pairwise (Older calls)

namespace OrderedMap

theorem get?_after (calls : List (MapCall V)) (n : String) : (after calls).get? n = written (life n calls) := by
  induction calls using List.reverseRecOn with
  | nil => rfl
  | append_singleton calls c ih => rw [after_append_singleton, get?_onMap, written_life_append_singleton, ih]

theorem mem_names_after (calls : List (MapCall V)) (n : String) :
    n ∈ (after calls).names ↔ (insertions n calls).Nonempty := by
  induction calls using List.reverseRecOn with
  | nil =>
    refine iff_of_false (List.not_mem_nil) ?_
    rintro ⟨i, hi⟩
    exact Nat.not_lt_zero i (lt_of_mem_insertions hi)
  | append_singleton calls c ih =>
    rw [after_append_singleton, mem_names_onMap, nonempty_insertions_append_singleton, ih]

/-- Names stand in the order of their first insertions: a call takes one of them out, or adds one that is younger. -/
theorem pairwise_names_after (calls : List (MapCall V)) : (after calls).names.Pairwise (Older calls) := by
  induction calls using List.reverseRecOn with
  | nil => exact .nil
  | append_singleton calls c ih =>
    rw [after_append_singleton]
    have hthere {n : String} : n ∈ (after calls).names → (insertions n calls).Nonempty := (mem_names_after calls n).1
    rcases c.names_onMap (after calls) with ⟨k, value, rfl, hnew, hnames⟩ | ⟨-, hnames⟩
    · have hspared (n : String) : MapCall.insert k value ≠ remove n := nofun
      rw [hnames, List.pairwise_append]
      refine ⟨ih.imp_of_mem fun ha hb h => h.append_singleton (hthere ha) (hthere hb) (hspared _) (hspared _),
        List.pairwise_singleton .., ?_⟩
      intro a ha b hb i j hi hj
      obtain rfl := List.mem_singleton.1 hb
      rw [eq_length_of_born ((mem_names_after calls b).not.1 hnew) hj]
      exact lt_of_mem_insertions ((born_append_singleton (hthere ha) (hspared a)).1 hi).1
    · rw [hnames]
      refine (ih.filter _).imp_of_mem fun ha hb h => ?_
      obtain ⟨ha, hca⟩ := List.mem_filter.1 ha
      obtain ⟨hb, hcb⟩ := List.mem_filter.1 hb
      exact h.append_singleton (hthere ha) (hthere hb) (spares_iff.1 hca) (spares_iff.1 hcb)

theorem tells_after (calls : List (MapCall V)) : Entries.Tells calls (after calls).entries where
  distinct := (after calls).nodup
  found := get?_after calls
  present := mem_names_after calls
  ordered := pairwise_names_after calls

end OrderedMap

/-- From no entries, all calls on plain lists lead to what the calls say, which is what the calls on maps lead to.  The
next call finds the value last written under its name since the name was last removed, and unless it removes the name, a
name that is there keeps its place. -/
theorem entries_of_calls (calls : List (MapCall V)) :
    Entries.Tells calls (Entries.after calls) ∧ Entries.after calls = (OrderedMap.after calls).entries ∧
      ∀ next : MapCall V,
        (next.onEntries (Entries.after calls)).1 = written (life next.name calls) ∧
        (next.onMap (OrderedMap.after calls)).1 = written (life next.name calls) ∧
        (next.name ∈ (Entries.after calls).names → next.removes = false →
          (Entries.after (calls ++ [next])).names = (Entries.after calls).names) := by
  rw [entries_after]
  refine ⟨OrderedMap.tells_after calls, rfl, fun next => ?_⟩
  have hfound : (next.onMap (OrderedMap.after calls)).1 = written (life next.name calls) := by
    rw [onMap_fst, OrderedMap.get?_after]
  refine ⟨by rw [onEntries_entries, hfound], hfound, fun hmem hr => ?_⟩
  rw [entries_after, after_append_singleton]
  show (next.onMap (OrderedMap.after calls)).2.names = (OrderedMap.after calls).names
  rcases next.names_onMap (OrderedMap.after calls) with ⟨k, value, rfl, hnew, -⟩ | ⟨-, hnames⟩
  · exact absurd hmem hnew
  · rw [hnames]
    refine List.filter_eq_self.2 fun n _ => spares_iff.2 ?_
    rintro rfl
    cases hr

end ScreenFusion
