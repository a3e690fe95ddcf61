import NetPack.Exchange.Structure
import NetPack.Graph.Validate

/-!
# Exchange models as graphs

An exchange model is read operator by operator. Its initializers are the constants; every operator
reads exactly one value that is no constant, and its constants are its parameters. An operator that
changes nothing leaves no node: the value that it produces is another name for the one that it
reads. The leading axis of a declared value may be symbolic and is given a concrete extent.
-/

namespace NetPack

namespace Exchange

/-- The fault of an exchange file as an error of a conversion. -/
def fault (cause : ExchangeError) : ConvertError := .malformed (.exchange cause)

/-- A natural number that an integer is. -/
def natural? : Int → Option Nat
  | .ofNat n => some n
  | .negSucc _ => none

/-- The tensor of an initializer. -/
def Initializer.toTensor (t : Initializer) : Except ExchangeError (Tensor Binary32) := do
  if t.dataType ≠ 1 then throw (.initializerType t.name t.dataType)
  let some dims := t.dims.mapM natural? | throw (.initializerNegative t.name)
  let shape : Shape := ⟨dims⟩
  if (shape.numBytes? .f32).isNone then throw (.initializerSize t.name shape)
  let tensor :=
    if t.raw.isEmpty then Tensor.ofArray shape t.singles.toArray
    else Tensor.ofBytes shape .f32 t.raw
  match tensor with
  | .ok tensor => return tensor
  | .error cause => throw (.initializer t.name cause)

namespace Dimension

/-- How an extent is shown in messages. -/
def text : Dimension → String
  | unset => "None"
  | value n => s!"Some(DimValue({n}))"
  | param name => s!"Some(DimParam({Text.quoted name}))"

end Dimension

/-- The declared extents, with `batch` for a symbolic leading axis, and the dynamic axes. -/
def declaredExtents (value : String) (batch : Nat) (dims : List Dimension) :
    Except ExchangeError (List Nat × List Nat) :=
  dims.zipIdx.foldlM (fun (sizes, dynamic) (dim, axis) =>
    let unsupported := ExchangeError.dimension value axis dim.text
    match dim with
    | .value n => if 0 < n then .ok (sizes ++ [n.toNat], dynamic) else .error unsupported
    | _ => if axis = 0 then .ok (sizes ++ [batch], dynamic ++ [0]) else .error unsupported)
    ([], [])

/-- The declared shape of a value and its dynamic axes. -/
def declaredShape (v : Value) (batch : Nat) : Except ExchangeError (Shape × List Nat) := do
  let .tensor _ declared := v.type | throw (.notTensor v.name)
  let dims := declared.getD []
  if dims.isEmpty then throw (.noShape v.name)
  let (sizes, dynamic) ← declaredExtents v.name batch dims
  let shape : Shape := ⟨sizes⟩
  if (shape.numBytes? .f32).isNone then throw (.valueSize v.name shape)
  return (shape, dynamic)

/-! ### Attributes -/

namespace Operator

/-- The first attribute of a name. -/
def attribute? (o : Operator) (name : String) : Option Attribute :=
  o.attributes.find? fun a => a.name == name

def intAttribute (o : Operator) (name : String) (absent : Int) : Int :=
  ((o.attribute? name).map (·.int)).getD absent

def singleAttribute (o : Operator) (name : String) (absent : Binary32) : Binary32 :=
  ((o.attribute? name).map (·.single)).getD absent

/-- The error for an operator that no operation stands for. -/
def unsupported (o : Operator) (detail : String) : ConvertError := .unsupported o.name detail

/-- Two natural numbers. -/
def axesAttribute (o : Operator) (name : String) (absent : Axes) : Except ConvertError Axes :=
  match o.attribute? name with
  | none => .ok absent
  | some a =>
    match a.ints.mapM natural? with
    | some [h, w] => .ok ⟨h, w⟩
    | _ => .error (o.unsupported s!"{o.type} ({name}={ExchangeError.integers a.ints})")

/-- The padding, which has to be the same at both ends of an axis. -/
def padding (o : Operator) : Except ConvertError Axes := do
  if let some a := o.attribute? "auto_pad" then
    let mode := Bytes.toLossyString a.text
    if !mode.isEmpty && mode ≠ "NOTSET" then
      throw (o.unsupported s!"{o.type} (auto_pad={mode})")
  match o.attribute? "pads" with
  | none => return ⟨0, 0⟩
  | some a =>
    let asymmetric := o.unsupported s!"{o.type} (asymmetric pads {ExchangeError.integers a.ints})"
    match a.ints.mapM natural? with
    | some [t, l, b, r] => if t = b && l = r then return ⟨t, l⟩ else throw asymmetric
    | _ => throw asymmetric

end Operator

/-! ### Operators -/

/-- Constant tensors by name, the last one first. -/
abbrev Constants := List (String × Tensor Binary32)

/-- A declared filter size has to agree with the weight. -/
def checkKernelShape (o : Operator) (constants : Constants) : Except ConvertError Unit :=
  match o.attribute? "kernel_shape", o.inputs[1]?.bind fun i => constants.lookup i with
  | some declared, some weight =>
    if declared.ints = (weight.shape.dims.drop 2).map Int.ofNat then .ok ()
    else .error (fault (.kernelShape o.name declared.ints weight.shape))
  | _, _ => .ok ()

def liftConv (o : Operator) (constants : Constants) : Except ConvertError (Op Binary32) := do
  if (o.attribute? "dilations").any fun d => d.ints.any (· ≠ 1) then
    throw (o.unsupported "Conv (dilation)")
  checkKernelShape o constants
  let stride ← o.axesAttribute "strides" ⟨1, 1⟩
  let padding ← o.padding
  let some groups := natural? (o.intAttribute "group" 1) | throw (fault (.negativeGroup o.name))
  return .conv ⟨stride, padding, groups⟩

def liftGemm (o : Operator) : Except ConvertError (Op Binary32) :=
  let isOne (name : String) := Scalar.same (o.singleAttribute name 1) 1
  if o.intAttribute "transA" 0 = 0 && o.intAttribute "transB" 0 = 1 && isOne "alpha" &&
      isOne "beta" then .ok .linear
  else .error (o.unsupported "Gemm (only x * W^T + b)")

/-- A bound of a cut: a constant operand, or else an attribute. -/
def clipBound (o : Operator) (constants : Constants) (index : Nat) (field : String) :
    Except ConvertError (Option Binary32) :=
  match o.inputs[index]?.filter fun n => !n.isEmpty with
  | none => .ok ((o.attribute? field).map (·.single))
  | some name =>
    match constants.lookup name with
    | none => .error (o.unsupported "Clip (non-constant bound)")
    | some t =>
      match t.data.toList with
      | [x] => .ok (some x)
      | _ => .error (fault (.clipBound name))

/-- How a bound is shown in messages. -/
def boundText : Option Binary32 → String
  | some x => s!"Some({Decimal.messageNotation.single x})"
  | none => "None"

def liftClip (o : Operator) (constants : Constants) : Except ConvertError (Op Binary32) := do
  let low ← clipBound o constants 1 "min"
  let high ← clipBound o constants 2 "max"
  let fromZero := low.any fun x => Scalar.same x 0
  if fromZero && high.any fun x => Scalar.same x (Scalar.count 6) then
    return .activation .relu6
  if fromZero && high.isNone then return .activation .relu
  throw (o.unsupported s!"Clip ({boundText low}, {boundText high})")

def liftMaxPool (o : Operator) : Except ConvertError (Op Binary32) := do
  let kernel ← o.axesAttribute "kernel_shape" ⟨0, 0⟩
  if kernel.hasZero then throw (fault (.noKernelShape o.name))
  if o.intAttribute "ceil_mode" 0 ≠ 0 then throw (o.unsupported "MaxPool (ceil_mode)")
  let stride ← o.axesAttribute "strides" ⟨1, 1⟩
  return .maxPool ⟨kernel, stride, ← o.padding⟩

/-- Added to the variance where an operator says nothing. -/
def defaultEpsilon : Binary32 := LayerSpec.defaultEpsilon

/-- The operation of an operator whose input has `rank` axes; `none` if it changes nothing. -/
def liftOperator (o : Operator) (constants : Constants) (rank : Nat) :
    Except ConvertError (Option (Op Binary32)) := do
  match o.type with
  | "Conv" => return some (← liftConv o constants)
  | "Gemm" => return some (← liftGemm o)
  | "BatchNormalization" => return some (.batchNorm (o.singleAttribute "epsilon" defaultEpsilon))
  | "Relu" => return some (.activation .relu)
  | "Sigmoid" => return some (.activation .sigmoid)
  | "HardSwish" => return some (.activation .hardSwish)
  | "Clip" => return some (← liftClip o constants)
  | "MaxPool" => return some (← liftMaxPool o)
  | "GlobalAveragePool" => return some .globalAvgPool
  | "Flatten" =>
    if o.intAttribute "axis" 1 ≠ 1 then throw (o.unsupported "Flatten (axis != 1)")
    return some .flatten
  | "Softmax" =>
    let axis := o.intAttribute "axis" (-1)
    if axis ≠ -1 && axis ≠ Int.ofNat rank - 1 then
      throw (o.unsupported s!"Softmax (axis={axis})")
    return some .softmax
  | "Dropout" | "Identity" => return none
  | other => throw (o.unsupported other)

/-! ### Graphs -/

/-- What is known after some of the operators. -/
structure Lifting where
  /-- For every value that was defined its name in the graph and its shape, the last one first. -/
  values : List (String × String × Shape)
  /-- The nodes in their order. -/
  nodes : List (Node Binary32)
  /-- The parameters that nodes read. -/
  params : Table (Tensor Binary32)

/-- The name of a node: its own, or its type in small letters and its position. -/
def nodeName (o : Operator) (index : Nat) : String :=
  if o.name.isEmpty then s!"{Text.lowercase o.type}_{index}" else o.name

/-- The parameters of an operator, as far as they are no part of the operation. -/
def parametersOf (op : Op Binary32) (constants : List String) : List String :=
  match op with
  | .activation _ => []
  | _ => constants

/-- Reads one operator. -/
def liftNode (constants : Constants) (s : Lifting) (o : Operator × Nat) :
    Outcome ConvertError Lifting := do
  let (operator, index) := o
  let name := nodeName operator index
  let operator := { operator with name }
  let operands := operator.inputs.filter fun i => !i.isEmpty
  let (constantOperands, data) := operands.partition fun i => (constants.lookup i).isSome
  let [source] := data
    | Outcome.report
        (.unsupported name s!"{operator.type} with {data.length} activation inputs")
  let some (input, inputShape) := s.values.lookup source
    | Outcome.report (fault (.undefinedValue s!"'{name}'" source))
  let some output := operator.outputs.head?.filter fun v => !v.isEmpty
    | Outcome.report (fault (.noOutput name))
  match ← liftOperator operator constants inputShape.rank with
  | none => return { s with values := (output, input, inputShape) :: s.values }
  | some op =>
    let names := parametersOf op constantOperands
    let tensors := names.filterMap fun p => (constants.lookup p).map (p, ·)
    let outputShape ← Outcome.mapError (fun cause => fault (.node name operator.type cause))
      (op.inferShape inputShape (tensors.map (·.2.shape)))
    return {
      values := (output, output, outputShape) :: s.values
      nodes := s.nodes ++ [⟨name, op, input, names, output, outputShape⟩]
      params := tensors.foldl (fun t (p, tensor) => t.insert p tensor) s.params }

/-- The constants of a graph. -/
def constantsOf (g : Graph) : Except ConvertError Constants :=
  g.initializers.foldlM (fun constants t =>
    match t.toTensor with
    | .ok tensor => .ok ((t.name, tensor) :: constants)
    | .error cause => .error (fault cause)) []

/-- Gives a value another name in a node. -/
def renameIn (old new : String) (n : Node Binary32) : Node Binary32 :=
  { n with
    output := if n.output = old then new else n.output
    input := if n.input = old then new else n.input }

/-- The graph of an exchange model, which is not yet checked. -/
def toGraph (m : Model) (batch : Nat) : Outcome ConvertError (NetPack.Graph Binary32) := do
  let some g := m.graph | Outcome.report (fault .noGraph)
  let constants ← constantsOf g
  let data := g.inputs.filter fun v => (constants.lookup v.name).isNone
  let [input] := data | Outcome.report (fault (.inputCount data.length))
  let [output] := g.outputs | Outcome.report (fault (.outputCount g.outputs.length))
  let shapeOf (v : Value) : Except ConvertError (Shape × List Nat) :=
    match declaredShape v batch with
    | .ok declared => .ok declared
    | .error cause => .error (fault cause)
  let (inputShape, inputDynamic) ← shapeOf input
  let start : Lifting := ⟨[(input.name, input.name, inputShape)], [], .empty⟩
  let s ← g.operators.zipIdx.foldlM (liftNode constants) start
  let some (value, produced) := s.values.lookup output.name
    | Outcome.report (fault (.outputMissing output.name))
  let (declared, outputDynamic) ← shapeOf output
  if declared ≠ produced then Outcome.report (fault (.outputShape declared produced))
  return {
    name := if g.name.isEmpty then "onnx" else g.name
    input := ⟨input.name, inputShape, inputDynamic⟩
    output := ⟨output.name, produced, outputDynamic⟩
    nodes := s.nodes.map (renameIn value output.name)
    params := s.params }

/-- An error as the fault of an exchange file. -/
def asMalformed : ConvertError → ConvertError
  | .malformed cause => .malformed cause
  | other => .malformed (.refused other.message)

/-- Reads an exchange model. -/
def decode (bytes : Bytes) : Except ConvertError Model :=
  match Model.decode? bytes with
  | some m => .ok m
  | none => .error (fault .notModel)

/-- The valid graph of an exchange model. -/
def toValidGraph (m : Model) (batch : Nat) : Outcome ConvertError (NetPack.Graph Binary32) := do
  Outcome.mapError .ofModel (← toGraph m batch).validate

/-- Checks an exchange file: its structure, its shapes and the graph that it gives. Every error is
a fault of the file. -/
def validate (bytes : Bytes) (batch : Nat) :
    Outcome ConvertError (NetPack.Graph Binary32 × Report) := do
  let m ← decode bytes
  match inspect m with
  | .error cause => Outcome.report (fault cause)
  | .ok report => return (← Outcome.mapError asMalformed (toValidGraph m batch), report)

end Exchange

end NetPack
