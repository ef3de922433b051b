import ScreenFusion.Blend.Mode
import ScreenFusion.Uniform.Slot

/-!
# ScreenFusion.Proofs.Uniform.Block — what a program reads of a uniform block

A program does not know the values that were packed, only its slots and their kinds, and so reads each value at the
widest of its kind.

* `unpackBlock?_packBlock`: a block with a slot for each value is read back, each value widened.
* `slotBytes_packBlock`: the bytes of a slot are those of its value.
* `BlendFunction.ofId?_packed`: a blend function is read back from its value.
-/

namespace ScreenFusion

/-- What a program reads of a value in a slot of a kind. -/
def UniformValue.widened (v : UniformValue) (k : SlotKind) : UniformValue := (Slot.ofValue v).decode k

@[simp] theorem BlendMode.widened_packed (m : BlendMode) : m.packed.widened .float = m.packed := rfl

/-- The function of a mode is read back from its packed value. -/
theorem BlendFunction.ofId?_packed (f : BlendFunction) :
    ofId? (nearestNat 32 (.ofFloat32 (Binary32.ofFloat (UInt32.ofNat f.id).toFloat32).toFloat)) = some f := by
  cases f <;> decide +kernel

/-- Values of one shader type stand in slots of one kind. -/
theorem SlotKind.of_congr {v w : UniformValue} (h : v.kindName = w.kindName) : SlotKind.of v = SlotKind.of w := by
  have hname (v : UniformValue) : SlotKind.of v =
      if v.kindName = "i32" then .int else if v.kindName = "u32" ∨ v.kindName = "bool" then .uint else .float := by
    cases v <;> simp [SlotKind.of, UniformValue.kindName]
  rw [hname v, hname w, h]

/-! ## Reading back -/

theorem packBlock_cons (v : UniformValue) (vs : List UniformValue) :
    packBlock (v :: vs) = (Slot.ofValue v).toBytes ++ packBlock vs := rfl

theorem readBlock_packBlock {kinds : List SlotKind} {values : List UniformValue}
    (h : values.length = kinds.length) :
    readBlock kinds (packBlock values) = List.zipWith UniformValue.widened values kinds := by
  induction kinds generalizing values with
  | nil =>
    rw [List.zipWith_nil_right]
    rfl
  | cons k ks ih =>
    cases values with
    | nil => simp at h
    | cons v vs =>
      have hs : vs.length = ks.length := by simpa using h
      rw [packBlock_cons, readBlock, Slot.ofBytes_toBytes, List.zipWith_cons_cons]
      show (Slot.ofValue v).decode k :: readBlock ks (packBlock vs) = _
      rw [ih hs]
      rfl

theorem unpackBlock?_packBlock {kinds : List SlotKind} {values : List UniformValue}
    (h : values.length = kinds.length) :
    unpackBlock? kinds (packBlock values) = some (List.zipWith UniformValue.widened values kinds) := by
  have hl : (packBlock values).length = 16 * kinds.length := by rw [length_packBlock, h]
  rw [unpackBlock?, if_pos hl, readBlock_packBlock h]

/-! ## Single slots -/

/-- The bytes of a slot of a block. -/
def slotBytes (block : List UInt8) (slot : Nat) : List UInt8 := (block.drop (16 * slot)).take 16

theorem slotBytes_packBlock {values : List UniformValue} {slot : Nat} {v : UniformValue}
    (h : values[slot]? = some v) : slotBytes (packBlock values) slot = (Slot.ofValue v).toBytes := by
  induction values generalizing slot with
  | nil => simp at h
  | cons w ws ih =>
    rw [packBlock_cons, slotBytes]
    cases slot with
    | zero =>
      have hw : w = v := by simpa using h
      rw [hw, Nat.mul_zero, List.drop_zero, List.take_left' (Slot.length_toBytes _)]
    | succ slot =>
      have hs : 16 * (slot + 1) = (Slot.ofValue w).toBytes.length + 16 * slot := by
        rw [Slot.length_toBytes]
        omega
      rw [hs, ← List.drop_drop, List.drop_left]
      exact ih (by simpa using h)

/-- Modes with different functions have different bytes. -/
theorem BlendMode.function_of_ofValue_eq {m m' : BlendMode} (h : Slot.ofValue m.packed = Slot.ofValue m'.packed) :
    m.function = m'.function := by
  have hy : Binary32.ofFloat (UInt32.ofNat m.function.id).toFloat32 =
      Binary32.ofFloat (UInt32.ofNat m'.function.id).toFloat32 := congrArg (fun s => Binary32.mk s.y) h
  have hf := BlendFunction.ofId?_packed m.function
  rw [hy, BlendFunction.ofId?_packed] at hf
  exact (Option.some.inj hf).symm

theorem Slot.toBytes_inj {s t : Slot} (h : s.toBytes = t.toBytes) : s = t := by
  have hs := Slot.ofBytes_toBytes s []
  have ht := Slot.ofBytes_toBytes t []
  rw [h, ht] at hs
  cases hs
  rfl

end ScreenFusion
