import NetPack.Convert.Error
import NetPack.Decimal.Fixed
import NetPack.Graph.Basic
import NetPack.Labels

/-!
# Artifacts

An artifact is a model that is ready for its platform: the lowered graph, how it is fed, the labels
of its outputs, the options that it was compiled with, the passes that changed the graph, and what
is said about it.
-/

namespace NetPack

/-- A model compiled for a platform. -/
structure Artifact where
  /-- The name of the model. -/
  name : String
  /-- The lowered graph. -/
  graph : Graph Binary32
  /-- How the model is fed. -/
  input : InputSpec
  /-- The labels of a classifier. -/
  labels : Option Labels
  /-- What the artifact is made for. -/
  options : CompileOptions
  /-- The passes that changed the graph, in order. -/
  passes : List String
  /-- What is said about the model, once it has been annotated. -/
  metadata : Option Metadata
deriving Inhabited

namespace Artifact

/-- The extent of the innermost axis of the output. -/
def outputWidth (a : Artifact) : Nat := (a.graph.output.shape.last?).getD 0

/-- Adds metadata, in place of earlier ones. The artifact needs a name and at least one
operation. -/
def annotate (a : Artifact) (m : Metadata) : Except ConvertError Artifact := do
  if Text.allBlank a.name then throw (.precondition .unnamed)
  if a.graph.nodes.isEmpty then throw (.precondition (.noOperations a.name))
  return { a with metadata := some (m.describe a.name) }

/-! ### The text of an artifact -/

/-- How many labels a text shows. -/
def shownLabels : Nat := 5

/-- The input on one line. -/
def inputLine : InputSpec → String
  | .image name shape layout scale bias =>
    s!"  input '{name}' image {shape.text} {layout.title} " ++
      s!"scale={Decimal.fixedSingle 6 scale} bias={Decimal.messageNotation.singles bias}"
  | .tensor name shape dtype => s!"  input '{name}' tensor {shape.text} {dtype.name}"

/-- The labels on one line. -/
def labelLine (labels : Labels) : String :=
  let more := if shownLabels < labels.length then ", ..." else ""
  s!"  labels ({labels.length}): " ++ ", ".intercalate (labels.take shownLabels) ++ more

/-- The metadata on two lines. -/
def metadataLines (m : Metadata) : List String :=
  let license := m.license.getD "-"
  [s!"  metadata: author={m.author} license={license} version={m.version}",
   s!"  description: {m.description}"]

/-- The lines in front of the graph. -/
def headLines (a : Artifact) : List String :=
  let o := a.options
  [s!"Artifact '{a.name}'",
   s!"  target {o.target.name} | compute units {o.units.name} | " ++
     s!"format {o.format.name} | precision {o.precision.name}",
   inputLine a.input,
   s!"  output '{a.graph.output.name}' {a.graph.output.shape.text}"] ++
  a.labels.toList.map labelLine ++
  (if a.passes.isEmpty then [] else ["  passes: " ++ ", ".intercalate a.passes]) ++
  a.metadata.toList.flatMap metadataLines

/-- The text of an artifact. -/
def text (a : Artifact) : String :=
  String.join (a.headLines.map (· ++ "\n")) ++ a.graph.listing

end Artifact

end NetPack
