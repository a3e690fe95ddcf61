import NetPack.Exchange.Codec
import NetPack.Graph.Basic

/-!
# Graphs as exchange models

Every node becomes one operator, whose inputs are the value that the node reads and then its
parameters; the parameters become initializers. The bounds of a cut to the range from zero to six
become initializers too, named after the node. A dynamic axis becomes an extent with a name.
-/

namespace NetPack

namespace Exchange

/-- The version of the file format that is written. -/
def writtenIrVersion : Int := 7

/-- The version of the operators that is written. -/
def writtenOperatorVersion : Int := 14

/-- The name of the program that writes. -/
def writtenProducer : String := "modelport"

/-- The version of the program that writes. -/
def writtenProducerVersion : String := "0.1.0"

/-- The number of the element type of single-precision tensors. -/
def singleType : Int := 1

def intAttribute (name : String) (i : Int) : Attribute :=
  { Attribute.named name with int := i, type := 2 }

def intsAttribute (name : String) (ns : List Nat) : Attribute :=
  { Attribute.named name with ints := ns.map Wire.signed, type := 7 }

def singleAttribute (name : String) (x : Binary32) : Attribute :=
  { Attribute.named name with single := x, type := 1 }

/-- A tensor as an initializer. -/
def Initializer.ofTensor (name : String) (t : Tensor Binary32) : Initializer where
  dims := t.shape.dims.map Wire.signed
  dataType := singleType
  singles := []
  name := name
  raw := t.toBytes

/-- An initializer of one number. -/
def Initializer.ofSingle (name : String) (x : Binary32) : Initializer := .ofTensor name ⟨⟨[]⟩, #[x]⟩

/-- The name of a dynamic axis. -/
def axisName (axis : Nat) : String := if axis = 0 then "batch" else s!"dim_{axis}"

/-- The declaration of an input or output. -/
def Value.ofInfo (v : ValueInfo) : Value where
  name := v.name
  type := .tensor singleType <| some <| v.shape.dims.zipIdx.map fun (size, axis) =>
    if v.dynamicAxes.contains axis then .param (axisName axis) else .value (Wire.signed size)

/-- The padding at the start and at the end of both axes. -/
def pads (p : Axes) : List Nat := p.toList ++ p.toList

/-- The type and the attributes of an operator. `filter` is the shape of the first parameter. -/
def operatorOf (op : Op Binary32) (filter : Option Shape) : String × List Attribute :=
  match op with
  | .conv p =>
    ("Conv", (filter.toList.map fun s => intsAttribute "kernel_shape" (s.dims.drop 2)) ++
      [intsAttribute "strides" p.stride.toList, intsAttribute "pads" (pads p.padding),
       intsAttribute "dilations" [1, 1], intAttribute "group" (Wire.signed p.groups)])
  | .linear => ("Gemm", [intAttribute "transB" 1])
  | .batchNorm epsilon => ("BatchNormalization", [singleAttribute "epsilon" epsilon])
  | .activation .relu => ("Relu", [])
  | .activation .relu6 => ("Clip", [])
  | .activation .sigmoid => ("Sigmoid", [])
  | .activation .hardSwish => ("HardSwish", [])
  | .maxPool p =>
    ("MaxPool", [intsAttribute "kernel_shape" p.kernel.toList,
      intsAttribute "strides" p.stride.toList, intsAttribute "pads" (pads p.padding)])
  | .globalAvgPool => ("GlobalAveragePool", [])
  | .flatten => ("Flatten", [intAttribute "axis" 1])
  | .softmax => ("Softmax", [intAttribute "axis" (-1)])

/-- The bounds of a node that cuts to the range from zero to six. -/
def boundsOf (n : Node Binary32) : List Initializer :=
  match n.op with
  | .activation .relu6 =>
    [.ofSingle (n.name ++ ".clip_min") 0, .ofSingle (n.name ++ ".clip_max") (Scalar.count 6)]
  | _ => []

/-- A node as an operator. -/
def Operator.ofNode (params : Table (Tensor Binary32)) (n : Node Binary32) : Operator :=
  let filter := (n.params.head?.bind params.find?).map (·.shape)
  let (type, attributes) := operatorOf n.op filter
  { inputs := n.input :: n.params ++ (boundsOf n).map (·.name)
    outputs := [n.output]
    name := n.name
    type
    attributes }

/-- A graph as an exchange model. -/
def Model.ofGraph (g : NetPack.Graph Binary32) : Model where
  irVersion := writtenIrVersion
  producerName := writtenProducer
  producerVersion := writtenProducerVersion
  operatorSets := [⟨"", writtenOperatorVersion⟩]
  graph := some {
    operators := g.nodes.map (Operator.ofNode g.params)
    name := g.name
    initializers :=
      (g.params.entries.map fun e => .ofTensor e.1 e.2) ++ g.nodes.flatMap boundsOf
    inputs := [.ofInfo g.input]
    outputs := [.ofInfo g.output] }

/-- A graph as an exchange file. -/
def encodeGraph (g : NetPack.Graph Binary32) : Bytes := (Model.ofGraph g).encode

end Exchange

end NetPack
