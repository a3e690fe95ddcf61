import NetPack.Convert.Error
import NetPack.Exchange.Codec

/-!
# The structure of exchange models

Before shapes are looked at, an exchange model has to have a graph, operators of a version and of
types that are known, and values that are defined before they are read. `Exchange.inspect` checks
this and reports what the file holds.
-/

namespace NetPack

namespace Exchange

/-- What an exchange file holds. -/
structure Report where
  producer : String
  irVersion : Int
  operatorVersion : Int
  operators : Nat
  initializers : Nat
deriving DecidableEq

namespace Report

/-- The report on one line. -/
def text (r : Report) : String :=
  s!"ONNX IR v{r.irVersion} opset {r.operatorVersion} from '{r.producer}': " ++
    s!"{r.operators} nodes, {r.initializers} initializers"

end Report

/-- The types of operators that are read. -/
def knownOperators : List String :=
  ["Conv", "Gemm", "BatchNormalization", "Relu", "Clip", "Sigmoid", "HardSwish", "MaxPool",
   "GlobalAveragePool", "Flatten", "Softmax", "Dropout", "Identity"]

/-- How an operator is called in messages. -/
def labelOf (o : Operator) (index : Nat) : String :=
  if o.name.isEmpty then s!"#{index}" else s!"'{o.name}'"

/-- Checks one operator and adds the values that it defines. -/
def inspectOperator (defined : List String) (o : Operator × Nat) :
    Except ExchangeError (List String) := do
  let (op, index) := o
  if !knownOperators.contains op.type then throw (.unknownOperator (labelOf op index) op.type)
  match op.inputs.find? fun i => !i.isEmpty && !defined.contains i with
  | some missing => throw (.undefinedValue (labelOf op index) missing)
  | none => return op.outputs ++ defined

/-- Checks the structure of an exchange model. -/
def inspect (m : Model) : Except ExchangeError Report := do
  let some g := m.graph | throw .noGraph
  let some operatorSet := m.operatorSets.find? fun s => s.domain == "" || s.domain == "ai.onnx"
    | throw .noOperatorSet
  let version := operatorSet.version
  if version < ExchangeError.versions.1 || ExchangeError.versions.2 < version then
    throw (.operatorSet version)
  let start := g.inputs.map (·.name) ++ g.initializers.map (·.name)
  let defined ← g.operators.zipIdx.foldlM inspectOperator start
  if g.outputs.isEmpty then throw .noOutputs
  match g.outputs.find? fun o => !defined.contains o.name with
  | some output => throw (.outputMissing output.name)
  | none => return ⟨m.producerName, m.irVersion, version, g.operators.length,
      g.initializers.length⟩

end Exchange

end NetPack
