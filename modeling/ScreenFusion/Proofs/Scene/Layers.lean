import ScreenFusion.Proofs.Device.Holdings
import ScreenFusion.Scene.Selection

/-!
# ScreenFusion.Proofs.Scene.Layers — layers one by one

A set of layers is a word, and a layer is one bit of it.  What the operations on sets do to each bit says all about them.

* `Layers.has`: whether a layer is in a set; `eq_of_has`: a set is known by its layers.
* `Table.retouch`: a table with its values changed, each by its number.
-/

namespace ScreenFusion

namespace Layers

variable {a b : Layers} {i j : Nat}

/-- Whether a layer is in a set. -/
def has (a : Layers) (i : Nat) : Bool := a.bits.toNat.testBit i

theorem eq_of_has (h : ∀ i, a.has i = b.has i) : a = b := by
  have hbits : a.bits = b.bits := UInt32.toNat_inj.1 (Nat.eq_of_testBit_eq h)
  cases a
  cases b
  exact congrArg Layers.mk hbits

@[simp] theorem has_union (a b : Layers) (i : Nat) : (a.union b).has i = (a.has i || b.has i) := by
  simp [has, union]

theorem has_of_le (hi : 32 ≤ i) (a : Layers) : a.has i = false :=
  Nat.testBit_lt_two_pow (Nat.lt_of_lt_of_le a.bits.toNat_lt (Nat.pow_le_pow_right (by decide) hi))

@[simp] theorem has_without (a b : Layers) (i : Nat) : (a.without b).has i = (a.has i && !b.has i) := by
  by_cases hi : i < 32
  · have hnot : (~~~b.bits).toNat = 2 ^ 32 - (b.bits.toNat + 1) := by
      rw [UInt32.toNat_not, Nat.sub_sub, Nat.add_comm 1]
      rfl
    rw [has, without, UInt32.toNat_and, Nat.testBit_and, hnot, Nat.testBit_two_pow_sub_succ b.bits.toNat_lt,
      decide_eq_true hi, Bool.true_and]
    rfl
  · rw [has_of_le (Nat.le_of_not_lt hi), has_of_le (Nat.le_of_not_lt hi) a, Bool.false_and]

theorem toNat_layer (hi : i < 32) : (layer i).bits.toNat = 2 ^ i := by
  have hword : i < 2 ^ 32 := Nat.lt_trans hi (by decide)
  rw [layer, Nat.mod_eq_of_lt hi, UInt32.toNat_shiftLeft, UInt32.toNat_ofNat_of_lt' hword, Nat.mod_eq_of_lt hi,
    Nat.shiftLeft_eq]
  exact (Nat.mod_eq_of_lt (by simpa using Nat.pow_lt_pow_right (by decide) hi)).trans (Nat.one_mul _)

theorem has_layer (hi : i < 32) (j : Nat) : (layer i).has j = decide (j = i) := by
  rw [has, toNat_layer hi, Nat.testBit_two_pow]
  exact decide_eq_decide.2 eq_comm

/-- A set includes a layer iff the layer is in it. -/
theorem includes_layer (hi : i < 32) (a : Layers) : a.includes (layer i) = a.has i := by
  have hbits : a.bits &&& (layer i).bits = (layer i).bits ↔ a.has i = true := by
    rw [← UInt32.toNat_inj, UInt32.toNat_and]
    constructor
    · intro h
      have hi' := congrArg (·.testBit i) h
      have hself : (layer i).has i = true := (has_layer hi i).trans (decide_eq_true rfl)
      rw [Nat.testBit_and, show (layer i).bits.toNat.testBit i = true from hself, Bool.and_true] at hi'
      exact hi'
    · intro h
      refine Nat.eq_of_testBit_eq fun j => ?_
      have hlayer : (layer i).bits.toNat.testBit j = decide (j = i) := has_layer hi j
      rw [Nat.testBit_and, hlayer]
      by_cases hj : j = i
      · rw [hj, show a.bits.toNat.testBit i = true from h, Bool.true_and]
      · rw [decide_eq_false hj, Bool.and_false]
  rw [includes, Bool.eq_iff_iff, beq_iff_eq]
  exact hbits

end Layers

/-! ## Tables whose values are changed by their numbers -/

namespace Table

variable {α : Type} {f g : Nat → α → α} {t : Table α} {key : Nat}

/-- The table with every value changed, each by its number. -/
def retouch (f : Nat → α → α) (t : Table α) : Table α := ⟨t.entries.map fun e => (e.1, f e.1 e.2)⟩

theorem get?_retouch (f : Nat → α → α) (t : Table α) (key : Nat) :
    (t.retouch f).get? key = (t.get? key).map (f key) := by
  simp only [get?, retouch]
  induction t.entries with
  | nil => rfl
  | cons e es ih =>
    rw [List.map_cons, lookup_cons, lookup_cons, ih]
    by_cases h : key = e.1
    · rw [if_pos h, if_pos h, h]
      rfl
    · rw [if_neg h, if_neg h]

theorem contains_retouch (f : Nat → α → α) (t : Table α) (key : Nat) : (t.retouch f).contains key = t.contains key := by
  rw [contains, contains, get?_retouch, Option.isSome_map]

theorem retouch_retouch (f g : Nat → α → α) (t : Table α) :
    (t.retouch f).retouch g = t.retouch fun k v => g k (f k v) := by
  simp only [retouch, List.map_map]
  rfl

/-- A change that leaves all values as they are. -/
theorem retouch_eq_self (h : ∀ k v, t.contains k = true → f k v = v) : t.retouch f = t := by
  have hentries : t.entries.map (fun e => (e.1, f e.1 e.2)) = t.entries.map id := by
    refine List.map_congr_left fun e he => ?_
    have hkey : e.1 ∈ t.keys := List.mem_map_of_mem he
    rw [h e.1 e.2 ((t.contains_iff_mem_keys e.1).2 hkey)]
    rfl
  rw [List.map_id] at hentries
  exact congrArg Table.mk hentries

theorem modify_eq_retouch (t : Table α) (key : Nat) (f : α → α) :
    t.modify key f = t.retouch fun k v => if k = key then f v else v := by
  refine congrArg Table.mk (List.map_congr_left fun e _ => ?_)
  show (if e.1 = key then (e.1, f e.2) else e) = (e.1, if e.1 = key then f e.2 else e.2)
  split <;> rfl

/-- The same change at several numbers, which has no further effect where it is made again. -/
theorem foldl_modify_eq_retouch {f : α → α} (hf : ∀ v, f (f v) = f v) (keys : List Nat) (t : Table α) :
    keys.foldl (fun t k => t.modify k f) t = t.retouch fun k v => if k ∈ keys then f v else v := by
  induction keys generalizing t with
  | nil => exact (retouch_eq_self fun k v _ => if_neg List.not_mem_nil).symm
  | cons key keys ih =>
    rw [List.foldl_cons, ih, modify_eq_retouch, retouch_retouch]
    refine congrArg (retouch · t) (funext fun k => funext fun v => ?_)
    by_cases hkey : k = key
    · by_cases hkeys : k ∈ keys <;> simp [hkey, hf]
    · simp [hkey]

end Table

end ScreenFusion
