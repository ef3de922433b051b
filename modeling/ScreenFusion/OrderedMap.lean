/-!
# ScreenFusion.OrderedMap — dictionaries in order of insertion

An `OrderedMap V` is a list of named values in which no name occurs twice.  Inserting under a name that is present
replaces the value where it stands; a new name goes to the end.

* `get?_insert`, `get?_erase`: what is found after a change.
* `names_insert_of_mem`, `names_insert_of_not_mem`, `names_erase`: the order after a change.
-/

namespace ScreenFusion

/-- Named values in order of insertion; names are unique. -/
structure OrderedMap (V : Type) where
  entries : List (String × V)
  nodup : (entries.map Prod.fst).Nodup

namespace OrderedMap

variable {V : Type}

/-- The map without entries. -/
def empty : OrderedMap V := ⟨[], List.nodup_nil⟩

instance : Inhabited (OrderedMap V) := ⟨empty⟩

/-- The names in order of insertion. -/
def names (m : OrderedMap V) : List String := m.entries.map Prod.fst

/-- The value under a name. -/
def get? (m : OrderedMap V) (name : String) : Option V :=
  (m.entries.find? fun e => e.1 == name).map Prod.snd

/-- Whether there is a value under a name. -/
def contains (m : OrderedMap V) (name : String) : Bool := (m.get? name).isSome

/-- The number of entries. -/
def size (m : OrderedMap V) : Nat := m.entries.length

/-- Whether there is no entry. -/
def isEmpty (m : OrderedMap V) : Bool := m.entries.isEmpty

/-- The entries with the value under one name replaced. -/
def replaceIn (name : String) (value : V) (entries : List (String × V)) : List (String × V) :=
  entries.map fun e => if e.1 = name then (e.1, value) else e

theorem map_fst_replaceIn (name : String) (value : V) (entries : List (String × V)) :
    (replaceIn name value entries).map Prod.fst = entries.map Prod.fst := by
  simp only [replaceIn, List.map_map]
  refine List.map_congr_left fun e _ => ?_
  simp only [Function.comp]
  split <;> rfl

/-- The map with a value under a name: replaced where the name stands, or added at the end. -/
def insert (m : OrderedMap V) (name : String) (value : V) : OrderedMap V :=
  if h : name ∈ m.names then
    ⟨replaceIn name value m.entries, by rw [map_fst_replaceIn]; exact m.nodup⟩
  else
    ⟨m.entries ++ [(name, value)], by
      rw [List.map_append, List.nodup_append]
      exact ⟨m.nodup, by simp, by
        intro a ha b hb
        simp only [List.map_cons, List.map_nil, List.mem_singleton] at hb
        rintro rfl
        exact h (hb ▸ ha)⟩⟩

/-- The map without the value under a name. -/
def erase (m : OrderedMap V) (name : String) : OrderedMap V :=
  ⟨m.entries.filter fun e => e.1 ≠ name, (m.nodup.sublist ((List.filter_sublist).map _))⟩

/-- The value that was under a name, and the map with a new one. -/
def getThenInsert (m : OrderedMap V) (name : String) (value : V) : Option V × OrderedMap V :=
  (m.get? name, m.insert name value)

/-- The value that was under a name, and the map without it. -/
def getThenErase (m : OrderedMap V) (name : String) : Option V × OrderedMap V :=
  (m.get? name, m.erase name)

/-- The map with the value under a name changed, if there is one. -/
def modify (m : OrderedMap V) (name : String) (f : V → V) : OrderedMap V :=
  match m.get? name with
  | some v => m.insert name (f v)
  | none => m

/-- The map with the given entries inserted in order. -/
def insertMany (m : OrderedMap V) (entries : List (String × V)) : OrderedMap V :=
  entries.foldl (fun m e => m.insert e.1 e.2) m

/-! ### What is found after a change -/

@[simp] theorem get?_empty (name : String) : (empty : OrderedMap V).get? name = none := rfl

@[simp] theorem names_empty : (empty : OrderedMap V).names = [] := rfl

theorem get?_eq_none_iff {m : OrderedMap V} {name : String} : m.get? name = none ↔ name ∉ m.names := by
  simp only [get?, names, Option.map_eq_none_iff, List.find?_eq_none, List.mem_map, not_exists, not_and,
    beq_iff_eq]

theorem contains_iff {m : OrderedMap V} {name : String} : m.contains name ↔ name ∈ m.names := by
  rw [contains, Option.isSome_iff_ne_none, ne_eq, get?_eq_none_iff, Classical.not_not]

theorem find?_replaceIn (name other : String) (value : V) (entries : List (String × V)) :
    ((replaceIn name value entries).find? fun e => e.1 == other).map Prod.snd =
      if other = name then (entries.find? fun e => e.1 == other).map fun _ => value
      else (entries.find? fun e => e.1 == other).map Prod.snd := by
  induction entries with
  | nil => simp [replaceIn]
  | cons e rest ih =>
    simp only [replaceIn, List.map_cons] at ih ⊢
    by_cases he : e.1 = other
    · by_cases hn : other = name
      · simp [he, hn]
      · simp [he, hn]
    · have he' : (e.1 == other) = false := by simpa using he
      have hi : ((if e.1 = name then (e.1, value) else e).1 == other) = false := by
        split <;> exact he'
      rw [List.find?_cons, List.find?_cons, hi, he']
      exact ih

theorem get?_insert (m : OrderedMap V) (name other : String) (value : V) :
    (m.insert name value).get? other = if other = name then some value else m.get? other := by
  unfold insert
  split
  · next h =>
    have hs : (m.get? name).isSome := contains_iff.2 h
    simp only [get?, find?_replaceIn]
    split
    · next ho =>
      subst ho
      simp only [get?, Option.isSome_map] at hs
      obtain ⟨e, he⟩ := Option.isSome_iff_exists.1 hs
      simp [he]
    · rfl
  · next h =>
    have hn : m.get? name = none := get?_eq_none_iff.2 h
    simp only [get?, Option.map_eq_none_iff] at hn
    simp only [get?, List.find?_append]
    by_cases ho : other = name
    · subst ho
      simp [hn]
    · have : (name == other) = false := by simpa using fun h => ho h.symm
      simp [ho, this]

theorem get?_erase (m : OrderedMap V) (name other : String) :
    (m.erase name).get? other = if other = name then none else m.get? other := by
  simp only [get?, erase, List.find?_filter]
  split
  · next h =>
    subst h
    simp
  · next h =>
    congr 2
    funext e
    by_cases he : e.1 = other <;> simp [he, h]

/-! ### The order after a change -/

theorem names_insert_of_mem {m : OrderedMap V} {name : String} (h : name ∈ m.names) (value : V) :
    (m.insert name value).names = m.names := by
  rw [insert, dif_pos h]
  exact map_fst_replaceIn name value m.entries

theorem names_insert_of_not_mem {m : OrderedMap V} {name : String} (h : name ∉ m.names) (value : V) :
    (m.insert name value).names = m.names ++ [name] := by
  rw [insert, dif_neg h]
  simp [names]

theorem names_erase (m : OrderedMap V) (name : String) :
    (m.erase name).names = m.names.filter fun n => n ≠ name := by
  simp only [names, erase, List.filter_map]
  rfl

end OrderedMap

end ScreenFusion
