import NetPack.Graph.Basic
import NetPack.Graph.Error

/-!
# Recording a run as a graph

A `Tracer` executes every operation that it is asked to record on real tensors and adds a node for
it. A model runs on one input, so a branch on activations is resolved to the side taken for that
input and the other side is not recorded. What was recorded before a failure stays recorded:
`Recording` keeps the tracer through errors.

Layers that share a name get nodes with names of their own: the second node of layer `a` is `a_2`,
the third one `a_3`. The value that a node produces is named after the node.
-/

namespace NetPack

/-- A tensor that flows through a recording, with the name of its value in the graph. -/
structure Traced (α : Type) where
  /-- The name of the value. -/
  name : String
  /-- What was computed. -/
  tensor : Tensor α
deriving Inhabited

/-- What has been recorded so far. -/
structure Tracer (α : Type) where
  /-- The name of the graph. -/
  graphName : String
  /-- The input of the graph. -/
  input : ValueInfo
  /-- The nodes in the order of their execution. -/
  nodes : List (Node α)
  /-- The parameters that were bound to names. -/
  params : Table (Tensor α)
  /-- How many nodes each layer name has given so far. -/
  counts : Table Nat
deriving Inhabited

/-- A step of a recording: it may fail, and what it recorded before that stays. -/
abbrev Recording (α β : Type) := ExceptT (Fault ModelError) (StateM (Tracer α)) β

namespace Tracer

variable {α : Type}

/-- Starts a recording whose graph has the given input. -/
def start (graphName inputName : String) (input : Tensor α) : Tracer α × Traced α :=
  (⟨graphName, .fixed inputName input.shape, [], .empty, .empty⟩, ⟨inputName, input⟩)

/-- How an error of an operation is reported: shapes are the fault of the input, all else is the
fault of the layer. -/
def refusal (layer : String) : TensorError → ModelError
  | .shapes op lhs rhs => .shape layer (.shapes op lhs rhs)
  | .bufferSize expected actual => .shape layer (.bufferSize expected actual)
  | cause => .layer layer (.tensor cause)

/-- Lifts a computation without a tracer into a recording. -/
def attempt {β : Type} (r : Outcome ModelError β) : Recording α β := ExceptT.mk (pure r)

/-- Binds a name to a parameter. A name that is bound already has to stand for the same tensor. -/
def bind [Scalar α] (layer : String) (p : String × Tensor α) : Recording α Unit := do
  let tracer ← get
  match tracer.params.find? p.1 with
  | some bound =>
    if bound.same p.2 then pure ()
    else attempt (Outcome.report (.layer layer (.boundElsewhere p.1)))
  | none => set { tracer with params := tracer.params.insert p.1 p.2 }

/-- A node name for the next node of a layer. -/
def nodeName (layer : String) : Recording α String := do
  let tracer ← get
  let count := (tracer.counts.find? layer).getD 0 + 1
  set { tracer with counts := tracer.counts.insert layer count }
  return if count = 1 then layer else s!"{layer}_{count}"

/-- Executes an operation and records it as a node named after a layer. -/
def record [Build] [Scalar α] (layer : String) (op : Op α) (x : Traced α)
    (params : List (String × Tensor α)) : Recording α (Traced α) := do
  let y ← attempt (Outcome.mapError (refusal layer) (op.execute x.tensor (params.map (·.2))))
  params.forM (bind layer)
  let name ← nodeName layer
  let value := name ++ ".out"
  let node : Node α := ⟨name, op, x.name, params.map (·.1), value, y.shape⟩
  modify fun tracer => { tracer with nodes := tracer.nodes ++ [node] }
  return ⟨value, y⟩

/-- Renames a value in a node. -/
def renameValue (old new : String) (n : Node α) : Node α :=
  { n with
    output := if n.output = old then new else n.output
    input := if n.input = old then new else n.input }

/-- Ends a recording. The value `y` becomes the output of the graph and gets the given name. -/
def finish (t : Tracer α) (y : Traced α) (outputName : String) : Except ModelError (Graph α) := do
  if y.name = t.input.name then throw (.graph (.noOperations t.graphName))
  if !t.nodes.any (·.output == y.name) then throw (.graph (.foreignValue y.name))
  return { name := t.graphName
           input := t.input
           output := .fixed outputName y.tensor.shape
           nodes := t.nodes.map (renameValue y.name outputName)
           params := t.params }

end Tracer

end NetPack
