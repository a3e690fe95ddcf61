import NetPack.Graph.Basic
import NetPack.Graph.Error

/-!
# Running a graph

`Graph.evaluate` runs the nodes in order on an environment of named tensors and returns the tensor
of the declared output. The input may differ from the recorded shape on dynamic axes only.
-/

namespace NetPack

namespace Graph

variable {α : Type}

/-- Tensors by name, the last one defined first. -/
abbrev Env (α : Type) := List (String × Tensor α)

/-- May a tensor of the given shape be the input? -/
def accepts (input : ValueInfo) (given : Shape) : Bool :=
  input.shape.dims.length == given.dims.length &&
    (input.shape.dims.zip given.dims).zipIdx.all fun ((expected, got), axis) =>
      expected == got || input.dynamicAxes.contains axis

variable [Scalar α]

/-- Runs one node and adds the tensor that it produces. -/
def runNode [Build] (params : Table (Tensor α)) (env : Env α) (n : Node α) :
    Outcome ModelError (Env α) := do
  let some x := env.lookup n.input | Outcome.report (.graph (.valueNotComputed n.input))
  let y ← Outcome.mapError (.shape n.name) (n.op.execute x (n.params.filterMap params.find?))
  return (n.output, y) :: env

/-- Runs a graph on an input. -/
def evaluate [Build] (g : Graph α) (x : Tensor α) : Outcome ModelError (Tensor α) := do
  if !accepts g.input x.shape then
    Outcome.report (.shape g.input.name (.shapes "graph input" g.input.shape x.shape))
  let env ← g.nodes.foldlM (runNode g.params) [(g.input.name, x)]
  match env.lookup g.output.name with
  | some y => return y
  | none => Outcome.report (.graph (.outputNotComputed g.output.name))

end Graph

end NetPack
