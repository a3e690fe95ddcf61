import NetPack.Artifact.Basic
import NetPack.Container.Bundle

/-!
# Artifacts as files

An artifact is stored in a container: the parameters of its graph are the tensors, and all else is
the text. Reading an artifact checks the graph.
-/

namespace NetPack

variable {δ : Type} [Document δ]

namespace Labels

def toJson (labels : Labels) : Json := .strings labels

def read : Decoder δ Labels := Document.list Document.string

end Labels

namespace Artifact

/-- The kind of the text in an artifact. -/
def kind : String := "modelport.artifact"

/-- The version of the format. -/
def version : Nat := 1

/-- The document of an artifact without its parameters. -/
def headerToJson (a : Artifact) : Json :=
  Json.members
    [("version", some (.nat version)), ("name", some (.string a.name)),
     ("graph", some a.graph.toTopology.toJson), ("input", some a.input.toJson),
     ("labels", a.labels.map Labels.toJson), ("options", some a.options.toJson),
     ("passes", some (.strings a.passes)), ("metadata", a.metadata.map Metadata.toJson)]

/-- Reads the version of an artifact, and the artifact with the given parameters. -/
def readHeader (params : Table (Tensor Binary32)) : Decoder δ (Nat × Artifact) := fun d => do
  let r ← Document.record
    ["version", "name", "graph", "input", "labels", "options", "passes", "metadata"] d
  let found ← r.required "version" Bundle.readVersion
  return (found, {
    name := ← r.required "name" Document.string
    graph := { ← r.required "graph" Topology.read with params }
    input := ← r.required "input" InputSpec.read
    labels := ← r.optional "labels" Labels.read
    options := ← r.required "options" CompileOptions.read
    passes := ← r.withDefault "passes" (Document.list Document.string) []
    metadata := ← r.optional "metadata" Metadata.read })

/-- The bytes of an artifact. -/
def encode (a : Artifact) : Bytes :=
  Container.encode kind a.headerToJson.render a.graph.params

/-- Reads an artifact. -/
def decode (bytes : Bytes) : Outcome ConvertError Artifact := do
  match Container.decode bytes kind with
  | .error cause => Outcome.report (.ofModel (.container cause))
  | .ok (text, params) =>
    match Json.decode (readHeader params) text with
    | .error cause => Outcome.report (.malformed (.artifactHeader cause))
    | .ok (found, a) =>
      if found ≠ version then Outcome.report (.malformed (.artifactVersion found version))
      return { a with graph := ← Outcome.mapError .ofModel a.graph.validate }

end Artifact

end NetPack
