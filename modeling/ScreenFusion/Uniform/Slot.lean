import ScreenFusion.Uniform.Value

/-!
# ScreenFusion.Uniform.Slot — the uniform block of a program

A uniform block is a row of slots of four words each, written as bytes with the low byte of a word first.  A program
knows for each slot whether its words are floats or integers.

* `length_pack`: sixteen bytes for each value.
* `ofBytes_toBytes`: a slot is read back as it was written.
-/

namespace ScreenFusion

-- Powers are those of the core library.
attribute [local instance (high)] instPowNat

/-- What the words of a slot are. -/
inductive SlotKind where
  | float
  | int
  | uint
  deriving DecidableEq, Inhabited

namespace SlotKind

/-- The kind of slot that a value is stored in. -/
def of : UniformValue → SlotKind
  | .int _ => int
  | .uint _ | .bool _ => uint
  | _ => float

/-- The shader type of the slot's member of the uniform block. -/
def shaderType : SlotKind → String
  | float => "vec4f"
  | int => "vec4<i32>"
  | uint => "vec4<u32>"

end SlotKind

/-- Four words of a uniform block. -/
structure Slot where
  x : UInt32
  y : UInt32
  z : UInt32
  w : UInt32
  deriving DecidableEq, Inhabited

namespace Slot

/-- The words in order. -/
def words (s : Slot) : List UInt32 := [s.x, s.y, s.z, s.w]

/-- The slot of a value; words that the value does not need are zero. -/
def ofValue : UniformValue → Slot
  | .float x => ⟨x.bits, 0, 0, 0⟩
  | .int n => ⟨n.toUInt32, 0, 0, 0⟩
  | .uint n => ⟨n, 0, 0, 0⟩
  | .bool b => ⟨if b then 1 else 0, 0, 0, 0⟩
  | .vec2 x y => ⟨x.bits, y.bits, 0, 0⟩
  | .vec3 x y z => ⟨x.bits, y.bits, z.bits, 0⟩
  | .vec4 x y z w => ⟨x.bits, y.bits, z.bits, w.bits⟩

/-- The widest value of a kind that the slot holds. -/
def decode (s : Slot) : SlotKind → UniformValue
  | .float => .vec4 ⟨s.x⟩ ⟨s.y⟩ ⟨s.z⟩ ⟨s.w⟩
  | .int => .int s.x.toInt32
  | .uint => .uint s.x

/-- A byte of a word, counted from the lowest. -/
def byteOf (w : UInt32) (i : Nat) : UInt8 := UInt8.ofNat (w.toNat / 2 ^ (8 * i))

/-- The bytes of a word, the lowest first. -/
def wordBytes (w : UInt32) : List UInt8 := [byteOf w 0, byteOf w 1, byteOf w 2, byteOf w 3]

/-- The word of four bytes, the lowest first. -/
def wordOfBytes (a b c d : UInt8) : UInt32 :=
  UInt32.ofNat (a.toNat + 2 ^ (8 : Nat) * b.toNat + 2 ^ (16 : Nat) * c.toNat + 2 ^ (24 : Nat) * d.toNat)

/-- The bytes of a slot. -/
def toBytes (s : Slot) : List UInt8 := s.words.flatMap wordBytes

/-- The slot that the first sixteen bytes are, and the rest. -/
def ofBytes? : List UInt8 → Option (Slot × List UInt8)
  | a :: b :: c :: d :: e :: f :: g :: h :: i :: j :: k :: l :: m :: n :: o :: p :: rest =>
    some (⟨wordOfBytes a b c d, wordOfBytes e f g h, wordOfBytes i j k l, wordOfBytes m n o p⟩, rest)
  | _ => none

theorem wordOfBytes_byteOf (w : UInt32) :
    wordOfBytes (byteOf w 0) (byteOf w 1) (byteOf w 2) (byteOf w 3) = w := by
  apply UInt32.toNat_inj.1
  have h := w.toNat_lt
  simp only [wordOfBytes, byteOf, UInt32.toNat_ofNat', UInt8.toNat_ofNat']
  omega

theorem ofBytes_toBytes (s : Slot) (rest : List UInt8) :
    ofBytes? (s.toBytes ++ rest) = some (s, rest) := by
  simp [toBytes, words, wordBytes, ofBytes?, wordOfBytes_byteOf]

@[simp] theorem length_toBytes (s : Slot) : s.toBytes.length = 16 := rfl

end Slot

/-- The bytes of a uniform block that holds the given values. -/
def packBlock (values : List UniformValue) : List UInt8 :=
  values.flatMap fun v => (Slot.ofValue v).toBytes

/-- The values of a block whose length fits its slots. -/
def readBlock : List SlotKind → List UInt8 → List UniformValue
  | [], _ => []
  | k :: ks, bytes => match Slot.ofBytes? bytes with
    | some (s, rest) => s.decode k :: readBlock ks rest
    | none => []

/-- The values of a block; none if its length does not fit its slots. -/
def unpackBlock? (kinds : List SlotKind) (bytes : List UInt8) : Option (List UniformValue) :=
  if bytes.length = 16 * kinds.length then some (readBlock kinds bytes) else none

theorem length_packBlock (values : List UniformValue) : (packBlock values).length = 16 * values.length := by
  induction values with
  | nil => rfl
  | cons v vs ih =>
    simp only [packBlock, List.flatMap_cons, List.length_append, Slot.length_toBytes, List.length_cons] at ih ⊢
    omega

end ScreenFusion
