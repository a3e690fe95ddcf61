import NetPack.Container.Basic
import NetPack.Graph.Json
import NetPack.Graph.Validate

/-!
# Bundles

A bundle is a container that holds a recorded graph: the topology is its text, the parameters are
its tensors.
-/

namespace NetPack

namespace Bundle

/-- The kind of the text in a bundle. -/
def kind : String := "modelport.frozen_graph"

/-- The version of the format. -/
def version : Nat := 1

variable {δ : Type} [Document δ]

/-- Reads a version number of a format. -/
def readVersion : Decoder δ Nat := fun d => do
  let n ← Document.nat d
  if n < 4294967296 then return n else throw (.mismatch "a version")

/-- The document of a topology. -/
def headerToJson (t : Topology Binary32) : Json :=
  .object [("version", .nat version), ("graph", t.toJson)]

/-- Reads the version and the topology. -/
def readHeader : Decoder δ (Nat × Topology Binary32) := fun d => do
  let r ← Document.record ["version", "graph"] d
  return (← r.required "version" readVersion, ← r.required "graph" Topology.read)

/-- The bytes of a graph. -/
def encode (g : Graph Binary32) : Bytes :=
  Container.encode kind (headerToJson g.toTopology).render g.params

/-- Reads a graph, which is not yet checked. -/
def decode (bytes : Bytes) : Except ModelError (Graph Binary32) := do
  match Container.decode bytes kind with
  | .error cause => throw (.container cause)
  | .ok (text, params) =>
    match Json.decode readHeader text with
    | .error cause => throw (.json cause)
    | .ok (found, topology) =>
      if found ≠ version then throw (.graph (.bundleVersion found version))
      return { topology with params }

end Bundle

end NetPack
