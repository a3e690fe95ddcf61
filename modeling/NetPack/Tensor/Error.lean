import NetPack.Tensor.Shape

/-!
# Errors of tensor operations
-/

namespace NetPack

/-- Why a tensor operation refuses its operands. -/
inductive TensorError where
  /-- A buffer does not hold as many elements as its shape asks for. -/
  | bufferSize (expected actual : Nat)
  /-- The number of elements, or of their bytes, is no word. -/
  | overflow (shape : Shape)
  /-- Two shapes do not go together. -/
  | shapes (op : String) (lhs rhs : Shape)
  /-- The operation does not handle the element type. -/
  | dtype (op : String) (dtype : DType)
  /-- A hyper-parameter is out of its range. -/
  | parameter (op : String) (detail : String)
deriving DecidableEq

namespace TensorError

/-- The text of an error. -/
def message : TensorError → String
  | bufferSize expected actual =>
    s!"buffer size mismatch: expected {expected} elements, got {actual}"
  | overflow shape => s!"element count of shape {shape.text} overflows"
  | shapes op lhs rhs => s!"incompatible shapes for {op}: {lhs.text} vs {rhs.text}"
  | dtype op t => s!"unsupported dtype {t.name} for operation {op}"
  | parameter op detail => s!"invalid parameter for {op}: {detail}"

end TensorError

end NetPack
