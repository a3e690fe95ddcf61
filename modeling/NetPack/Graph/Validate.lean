import NetPack.Graph.Basic
import NetPack.Graph.Error

/-!
# Valid graphs

A graph is valid if it has nodes and a non-empty input, its nodes have names of their own, every
node reads a value that was defined before it and parameters that exist, no value is defined twice,
every recorded shape is the one that the operation gives, and the declared output is defined with
its declared shape. `Graph.validate` checks this node by node and reports the first fault, or breaks
off where the build cannot count elements.
-/

namespace NetPack

namespace Graph

variable {α : Type}

/-- What is known after some of the nodes: the values defined so far, the last one first, with
their shapes, and the names of the nodes. -/
structure Scope where
  /-- Defined values. -/
  values : List (String × Shape)
  /-- Names of nodes. -/
  names : List String

/-- The shapes of the parameters of a node. -/
def paramShapes (params : Table (Tensor α)) (n : Node α) : Except ModelError (List Shape) :=
  n.params.mapM fun p =>
    match params.find? p with
    | some t => .ok t.shape
    | none => .error (.graph (.missingParameter n.name p))

/-- Checks one node and adds what it defines. -/
def checkNode [Build] (params : Table (Tensor α)) (s : Scope) (n : Node α) :
    Outcome ModelError Scope := do
  if s.names.contains n.name then Outcome.report (.graph (.duplicateNode n.name))
  let some input := s.values.lookup n.input
    | Outcome.report (.graph (.undefinedValue n.name n.input))
  let shapes ← paramShapes params n
  let inferred ← Outcome.mapError (.shape n.name) (n.op.inferShape input shapes)
  if inferred ≠ n.outputShape then
    Outcome.report (.layer n.name (.recordedShape n.outputShape inferred))
  if (s.values.lookup n.output).isSome then Outcome.report (.graph (.producedTwice n.output))
  return ⟨(n.output, n.outputShape) :: s.values, n.name :: s.names⟩

/-- Checks the declared output against the defined values. -/
def checkOutput (output : ValueInfo) (s : Scope) : Except ModelError Unit :=
  match s.values.lookup output.name with
  | none => .error (.graph (.outputMissing output.name))
  | some shape =>
    if shape ≠ output.shape then .error (.graph (.outputShape output.shape shape)) else .ok ()

/-- Checks a graph. -/
def check [Build] (g : Graph α) : Outcome ModelError Unit := do
  if g.nodes.isEmpty then Outcome.report (.graph (.noNodes g.name))
  if (← Outcome.orCrash g.input.shape.numElements) = 0 then
    Outcome.report (.graph (.emptyInput g.input.name g.input.shape))
  if let some axis := g.input.dynamicAxes.find? fun a => g.input.shape.rank ≤ a then
    Outcome.report (.graph (.dynamicAxis axis g.input.shape))
  let scope ← g.nodes.foldlM (checkNode g.params) ⟨[(g.input.name, g.input.shape)], []⟩
  checkOutput g.output scope

/-- The graph itself, if it is valid. -/
def validate [Build] (g : Graph α) : Outcome ModelError (Graph α) := do
  g.check
  return g

/-- The graph passes its check. -/
def Valid [Build] (g : Graph α) : Prop := g.check = .ok ()

end Graph

end NetPack
