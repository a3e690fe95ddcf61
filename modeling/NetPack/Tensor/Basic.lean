import NetPack.Binary32
import NetPack.Outcome
import NetPack.Tensor.Error

/-!
# Tensors

A tensor is a shape and its elements in row-major order. `Tensor.ofArray` and `Tensor.ofBytes` build
only well-formed tensors, whose number of elements is the exact product of the extents.
`Tensor.zeros`, `Tensor.drawn` and `Tensor.reshape` go by the number of elements that the build
computes.
-/

namespace NetPack

/-- A shape and the elements, the last axis running fastest. -/
structure Tensor (α : Type) where
  /-- The extents. -/
  shape : Shape
  /-- The elements in row-major order. -/
  data : Array α
deriving DecidableEq, Inhabited

namespace Tensor

variable {α : Type}

/-- The tensor holds exactly as many elements as its shape says. -/
def WellFormed (t : Tensor α) : Prop := t.shape.numElements? = some t.data.size

/-- The tensor of zeros. -/
def zeros [Build] [Zero α] (shape : Shape) : Option (Tensor α) := do
  return ⟨shape, Array.replicate (← shape.numElements) 0⟩

/-- A tensor of numbers that are drawn one after the other. -/
def drawn [Build] (shape : Shape) (draw : Nat → α) : Option (Tensor α) := do
  return ⟨shape, ((List.range (← shape.numElements)).map draw).toArray⟩

/-- A tensor from its elements. -/
def ofArray (shape : Shape) (data : Array α) : Except TensorError (Tensor α) :=
  match shape.numElements? with
  | none => .error (.overflow shape)
  | some expected =>
    if data.size = expected then .ok ⟨shape, data⟩
    else .error (.bufferSize expected data.size)

/-- A tensor of single-precision numbers from their bytes. -/
def ofBytes (shape : Shape) (t : DType) (bytes : List UInt8) :
    Except TensorError (Tensor Binary32) :=
  if t ≠ .f32 then .error (.dtype "from_le_bytes" t)
  else
    match shape.numBytes? .f32 with
    | none => .error (.overflow shape)
    | some expected =>
      if bytes.length = expected then .ok ⟨shape, (Binary32.listOfBytes bytes).toArray⟩
      else .error (.bufferSize (expected / 4) (bytes.length / 4))

/-- The bytes of the elements. -/
def toBytes (t : Tensor Binary32) : List UInt8 := Binary32.bytesOfList t.data.toList

/-- The number of bytes of the elements. -/
def numBytes (t : Tensor α) : Nat := t.data.size * DType.f32.bytes

/-- The same elements under another shape. -/
def reshape [Build] (t : Tensor α) (shape : Shape) : Outcome TensorError (Tensor α) := do
  if (← Outcome.orCrash shape.numElements) ≠ t.data.size then
    Outcome.report (.shapes "reshape" t.shape shape)
  return { t with shape }

/-- Replaces an element. -/
def set (t : Tensor α) (i : Nat) (a : α) : Tensor α :=
  { t with data := t.data.setIfInBounds i a }

/-- The element at a row-major position. -/
def entry (t : Tensor α) (i : Nat) : Outcome TensorError α := Outcome.entry t.data i

/-- The average of all elements, zero if there are none. -/
def mean [Scalar α] (t : Tensor α) : α :=
  if t.data.isEmpty then 0
  else Scalar.total t.data.toList / Scalar.count t.data.size

/-- Equal shapes and numerically equal elements. -/
def same [Scalar α] (t u : Tensor α) : Bool :=
  t.shape = u.shape && t.data.size = u.data.size &&
    (t.data.toList.zip u.data.toList).all fun (a, b) => Scalar.same a b

theorem ofArray_eq_ok_iff {shape : Shape} {data : Array α} {t : Tensor α} :
    ofArray shape data = .ok t ↔ t = ⟨shape, data⟩ ∧ t.WellFormed := by
  unfold ofArray WellFormed
  split
  · rename_i h
    constructor
    · intro h'; cases h'
    · rintro ⟨rfl, h'⟩; simp [h] at h'
  · rename_i n h
    split
    · rename_i eq
      constructor
      · intro h'; cases h'; exact ⟨rfl, eq ▸ h⟩
      · rintro ⟨rfl, -⟩; rfl
    · rename_i ne
      constructor
      · intro h'; cases h'
      · rintro ⟨rfl, h'⟩
        rw [h, Option.some.injEq] at h'
        exact absurd h'.symm ne

end Tensor

end NetPack
