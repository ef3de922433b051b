/-!
# ScreenFusion.Table — values under numbers

A `Table α` holds values under natural numbers, in ascending order of the numbers.

* `get?_insert`, `get?_erase`, `get?_modify`: what is found after a change.
-/

namespace ScreenFusion

/-- Values under natural numbers. -/
structure Table (α : Type) where
  entries : List (Nat × α)
  deriving Inhabited

namespace Table

variable {α : Type}

/-- The table without entries. -/
def empty : Table α := ⟨[]⟩

/-- The value under a number. -/
def get? (t : Table α) (key : Nat) : Option α := t.entries.lookup key

/-- Whether there is a value under a number. -/
def contains (t : Table α) (key : Nat) : Bool := (t.get? key).isSome

/-- The number of entries. -/
def size (t : Table α) : Nat := t.entries.length

/-- Entries with a value put under a number. -/
def insertIn (key : Nat) (value : α) : List (Nat × α) → List (Nat × α)
  | [] => [(key, value)]
  | e :: es =>
    if key < e.1 then (key, value) :: e :: es
    else if key = e.1 then (key, value) :: es
    else e :: insertIn key value es

/-- Puts a value under a number. -/
def insert (t : Table α) (key : Nat) (value : α) : Table α := ⟨insertIn key value t.entries⟩

/-- Takes the value under a number away. -/
def erase (t : Table α) (key : Nat) : Table α := ⟨t.entries.filter fun e => e.1 ≠ key⟩

/-- Changes the value under a number, if there is one. -/
def modify (t : Table α) (key : Nat) (f : α → α) : Table α :=
  ⟨t.entries.map fun e => if e.1 = key then (e.1, f e.2) else e⟩

@[simp] theorem get?_empty (key : Nat) : (empty : Table α).get? key = none := rfl

theorem lookup_cons (key : Nat) (e : Nat × α) (es : List (Nat × α)) :
    (e :: es).lookup key = if key = e.1 then some e.2 else es.lookup key := by
  obtain ⟨k, v⟩ := e
  rw [List.lookup_cons]
  by_cases h : key = k
  · rw [if_pos h, h, beq_self_eq_true]
  · rw [if_neg h, beq_false_of_ne h]

theorem get?_insert (t : Table α) (key other : Nat) (value : α) :
    (t.insert key value).get? other = if other = key then some value else t.get? other := by
  simp only [get?, insert]
  induction t.entries with
  | nil => simp [insertIn, lookup_cons]
  | cons e es ih =>
    simp only [insertIn]
    split
    · rw [lookup_cons]
    · split
      · next h =>
        rw [lookup_cons, lookup_cons]
        grind
      · rw [lookup_cons, lookup_cons, ih]
        grind

theorem get?_erase (t : Table α) (key other : Nat) :
    (t.erase key).get? other = if other = key then none else t.get? other := by
  simp only [get?, erase]
  induction t.entries with
  | nil => simp
  | cons e es ih =>
    rw [List.filter_cons]
    split
    · rw [lookup_cons, lookup_cons, ih]
      grind
    · rw [lookup_cons, ih]
      grind

theorem get?_modify (t : Table α) (key other : Nat) (f : α → α) :
    (t.modify key f).get? other = if other = key then (t.get? other).map f else t.get? other := by
  simp only [get?, modify]
  induction t.entries with
  | nil => simp
  | cons e es ih =>
    rw [List.map_cons, lookup_cons, lookup_cons, ih]
    grind

end Table

end ScreenFusion
