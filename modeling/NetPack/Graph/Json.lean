import NetPack.Graph.Basic
import NetPack.Op.Json

/-!
# Topologies in JSON documents

Bundles and artifacts hold the structure of a graph as a document. Lists that are empty are left
out and read back as empty.
-/

namespace NetPack

variable {δ : Type} [Document δ]

namespace Shape

def toJson (s : Shape) : Json := .nats s.dims

def read : Decoder δ Shape := fun d => return ⟨← Document.list Document.nat d⟩

end Shape

namespace ValueInfo

def toJson (v : ValueInfo) : Json :=
  Json.members
    [("name", some (.string v.name)), ("shape", some v.shape.toJson),
     ("dynamic_axes", if v.dynamicAxes.isEmpty then none else some (.nats v.dynamicAxes))]

def read : Decoder δ ValueInfo := fun d => do
  let r ← Document.record ["name", "shape", "dynamic_axes"] d
  return ⟨← r.required "name" Document.string, ← r.required "shape" Shape.read,
    ← r.withDefault "dynamic_axes" (Document.list Document.nat) []⟩

end ValueInfo

namespace Node

def toJson (n : Node Binary32) : Json :=
  Json.members
    [("name", some (.string n.name)), ("op", some n.op.toJson), ("input", some (.string n.input)),
     ("params", if n.params.isEmpty then none else some (.strings n.params)),
     ("output", some (.string n.output)), ("output_shape", some n.outputShape.toJson)]

def read : Decoder δ (Node Binary32) := fun d => do
  let r ← Document.record ["name", "op", "input", "params", "output", "output_shape"] d
  return ⟨← r.required "name" Document.string, ← r.required "op" Op.read,
    ← r.required "input" Document.string,
    ← r.withDefault "params" (Document.list Document.string) [],
    ← r.required "output" Document.string, ← r.required "output_shape" Shape.read⟩

end Node

namespace Topology

def toJson (t : Topology Binary32) : Json :=
  .object [("name", .string t.name), ("input", t.input.toJson), ("output", t.output.toJson),
    ("nodes", .array (t.nodes.map Node.toJson))]

def read : Decoder δ (Topology Binary32) := fun d => do
  let r ← Document.record ["name", "input", "output", "nodes"] d
  return ⟨← r.required "name" Document.string, ← r.required "input" ValueInfo.read,
    ← r.required "output" ValueInfo.read, ← r.required "nodes" (Document.list Node.read)⟩

end Topology

end NetPack
