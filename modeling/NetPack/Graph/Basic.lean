import NetPack.Decimal.Fixed
import NetPack.Op.Basic
import NetPack.Table

/-!
# Graphs

A graph is a sequence of operations in execution order. Every operation reads one named value and
produces one; its parameters are named entries of the table that the graph carries. A `Topology` is
a graph without the tensors of its parameters.
-/

namespace NetPack

/-- A named input or output. -/
structure ValueInfo where
  /-- The name of the value. -/
  name : String
  /-- The shape seen while the graph was recorded. -/
  shape : Shape
  /-- Axes whose extent may differ from one use to the next. -/
  dynamicAxes : List Nat
deriving DecidableEq, Inhabited

namespace ValueInfo

/-- A value without dynamic axes. -/
def fixed (name : String) (shape : Shape) : ValueInfo := ⟨name, shape, []⟩

/-- Makes an axis dynamic. -/
def withDynamicAxis (v : ValueInfo) (axis : Nat) : ValueInfo :=
  if v.dynamicAxes.contains axis then v else { v with dynamicAxes := v.dynamicAxes ++ [axis] }

end ValueInfo

/-- One operation of a graph. -/
structure Node (α : Type) where
  /-- The name of the node. -/
  name : String
  /-- What the node computes. -/
  op : Op α
  /-- The value that it reads. -/
  input : String
  /-- The names of its parameters, in the order of the operation. -/
  params : List String
  /-- The value that it produces. -/
  output : String
  /-- The shape of the value that it produces. -/
  outputShape : Shape
deriving DecidableEq, Inhabited

namespace Node

variable {α : Type}

/-- The text of a node on one line. -/
def summary (n : Node α) : String :=
  let operands := String.join (n.params.map (", " ++ ·))
  s!"{n.output} = {n.op.label}({n.input}{operands}) -> {n.outputShape.text}"

end Node

/-- The structure of a graph without the tensors of its parameters. -/
structure Topology (α : Type) where
  /-- The name of the model. -/
  name : String
  /-- The value given from outside. -/
  input : ValueInfo
  /-- The value handed to the outside. -/
  output : ValueInfo
  /-- The operations in execution order. -/
  nodes : List (Node α)
deriving DecidableEq, Inhabited

/-- A graph with the tensors of its parameters. -/
structure Graph (α : Type) extends Topology α where
  /-- The parameters by name. -/
  params : Table (Tensor α)
deriving Inhabited

namespace Graph

variable {α : Type}

/-- The number of scalars in all parameters. -/
def numParameters (g : Graph α) : Nat := Word.sum (g.params.entries.map fun e => e.2.data.size)

/-- The number of bytes of all parameters. -/
def paramBytes (g : Graph α) : Nat :=
  Word.sum (g.params.entries.map fun e => e.2.numBytes)

/-- The sizes of a graph on one line. -/
def summary (g : Graph α) : String :=
  let megabytes := Decimal.fixed 2 g.paramBytes (1024 * 1024)
  s!"Graph '{g.name}': {g.nodes.length} nodes, {g.numParameters} parameters ({megabytes} MB), " ++
    s!"input {g.input.name} {g.input.shape.text}, output {g.output.name} {g.output.shape.text}"

/-- The nodes of a graph, one on a line. -/
def listing (g : Graph α) : String :=
  s!"Graph '{g.name}' ({g.nodes.length} nodes):\n" ++
    String.join (g.nodes.map fun n => "  " ++ n.summary ++ "\n")

end Graph

end NetPack
