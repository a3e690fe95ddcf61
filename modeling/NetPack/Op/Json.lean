import NetPack.Json.Decode
import NetPack.Json.Writer
import NetPack.Op.Basic

/-!
# Operations in JSON documents

An operation is an object whose member `op` names it and whose other members are its
hyper-parameters.
-/

namespace NetPack

variable {δ : Type} [Document δ]

namespace Axes

/-- Both numbers as an array. -/
def toJson (a : Axes) : Json := .nats a.toList

/-- Reads an array of two words. -/
def read : Decoder δ Axes := fun d => do
  let (vertical, horizontal) ← Document.pair Document.nat d
  return ⟨vertical, horizontal⟩

end Axes

namespace ConvParams

/-- The members of an object. -/
def members (p : ConvParams) : List (String × Json) :=
  [("stride", p.stride.toJson), ("padding", p.padding.toJson), ("groups", .nat p.groups)]

/-- Reads the hyper-parameters from the fields of an operation. -/
def ofContents (fields : Document.Contents δ) : Except DecodeError ConvParams := do
  let r ← fields.record ["stride", "padding", "groups"]
  return ⟨← r.required "stride" Axes.read, ← r.required "padding" Axes.read,
    ← r.required "groups" Document.nat⟩

end ConvParams

namespace PoolParams

/-- The members of an object. -/
def members (p : PoolParams) : List (String × Json) :=
  [("kernel", p.kernel.toJson), ("stride", p.stride.toJson), ("padding", p.padding.toJson)]

/-- Reads the hyper-parameters from the fields of an operation. -/
def ofContents (fields : Document.Contents δ) : Except DecodeError PoolParams := do
  let r ← fields.record ["kernel", "stride", "padding"]
  return ⟨← r.required "kernel" Axes.read, ← r.required "stride" Axes.read,
    ← r.required "padding" Axes.read⟩

end PoolParams

namespace Activation

/-- Reads the name of an activation. -/
def read : Decoder δ Activation := Document.name ofName? "an activation"

end Activation

namespace Op

/-- The name of an operation in documents. -/
def tag : Op Binary32 → String
  | activation _ => "activation"
  | op => op.label

/-- The hyper-parameters as members of an object. -/
def hyperParameters : Op Binary32 → List (String × Json)
  | conv p => p.members
  | batchNorm epsilon => [("epsilon", .single epsilon)]
  | activation kind => [("kind", .string kind.name)]
  | maxPool p => p.members
  | _ => []

/-- The document of an operation. -/
def toJson (op : Op Binary32) : Json := .object (("op", .string op.tag) :: op.hyperParameters)

/-- Reads an operation. -/
def read : Decoder δ (Op Binary32) := fun d => do
  let (tag, fields) ← Document.tagged "op" d
  match tag with
  | "conv2d" => return conv (← ConvParams.ofContents fields)
  | "max_pool2d" => return maxPool (← PoolParams.ofContents fields)
  | "batch_norm" => do
    let r ← fields.record ["epsilon"]
    return batchNorm (← r.required "epsilon" Document.single)
  | "activation" => do
    let r ← fields.record ["kind"]
    return activation (← r.required "kind" Activation.read)
  | "linear" => do fields.noFields; return linear
  | "global_avg_pool" => do fields.noFields; return globalAvgPool
  | "flatten" => do fields.noFields; return flatten
  | "softmax" => do fields.noFields; return softmax
  | _ => throw (.mismatch "the name of an operation")

end Op

end NetPack
