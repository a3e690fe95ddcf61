import NetPack.Artifact.Basic
import NetPack.Convert.Fold

/-!
# Compiling graphs

`compile` checks that the platform can run the requested options, that the declared input is the
input of the graph and that there is a label for every output; then it lowers the graph.
-/

namespace NetPack

/-- The name of the pass that folds batch normalisations. -/
def foldPass : String := "fold_batch_norm"

/-- Labels, if there are any, have to be as many as a graph has outputs. -/
def checkLabels (g : Graph Binary32) (labels : Option Labels) : Except ConvertError Unit :=
  let outputs := g.output.shape.last?.getD 0
  match labels with
  | some ls => if ls.length ≠ outputs then .error (.labelCount ls.length outputs) else .ok ()
  | none => .ok ()

/-- The declared input has to be the input of the graph. -/
def checkInput (g : Graph Binary32) (input : InputSpec) : Except ConvertError Unit :=
  if input.shape ≠ g.input.shape then
    .error (.shape (.input input.name input.shape g.name g.input.shape))
  else .ok ()

/-- Compiles a graph. The artifact is named after the graph. -/
def compile (g : Graph Binary32) (input : InputSpec) (options : CompileOptions)
    (labels : Option Labels) : Outcome ConvertError Artifact := do
  if let .error cause := options.check then Outcome.report (.target cause)
  checkInput g input
  checkLabels g labels
  let (graph, count) ← g.foldBatchNorms
  return {
    name := graph.name
    graph
    input
    labels
    options
    passes := if 0 < count then [foldPass] else []
    metadata := none }

end NetPack
