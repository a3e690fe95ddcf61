import NetPack.Tensor.Error

/-!
# Errors of exchange files
-/

namespace NetPack

/-- What is wrong with an exchange file. -/
inductive ExchangeError where
  | notModel
  | noGraph
  | noOperatorSet
  | operatorSet (version : Int)
  | unknownOperator (label operator : String)
  | undefinedValue (label value : String)
  | noOutputs
  | outputMissing (output : String)
  | initializerType (name : String) (dataType : Int)
  | initializerNegative (name : String)
  | initializerSize (name : String) (shape : Shape)
  | initializer (name : String) (cause : TensorError)
  | notTensor (value : String)
  | noShape (value : String)
  | dimension (value : String) (axis : Nat) (dimension : String)
  | valueSize (value : String) (shape : Shape)
  | inputCount (count : Nat)
  | outputCount (count : Nat)
  | noOutput (node : String)
  | kernelShape (node : String) (declared : List Int) (weight : Shape)
  | negativeGroup (node : String)
  | clipBound (value : String)
  | noKernelShape (node : String)
  | node (name operator : String) (cause : TensorError)
  | outputShape (declared produced : Shape)
deriving DecidableEq

namespace ExchangeError

/-- Integers in square brackets. -/
def integers (is : List Int) : String := "[" ++ ", ".intercalate (is.map Int.repr) ++ "]"

/-- The least and the greatest version of the operators that is read. -/
def versions : Nat × Nat := (7, 18)

/-- The text of an error. -/
def message : ExchangeError → String
  | notModel => "not an ONNX model: the bytes are no exchange file"
  | noGraph => "model contains no graph"
  | noOperatorSet => "no default-domain opset imported"
  | operatorSet version =>
    s!"opset {version} outside supported range {versions.1}..={versions.2}"
  | unknownOperator label operator => s!"node {label} uses unknown operator '{operator}'"
  | undefinedValue label value => s!"node {label} reads undefined value '{value}'"
  | noOutputs => "graph declares no outputs"
  | outputMissing output => s!"declared output '{output}' is never produced"
  | initializerType name dataType =>
    s!"initializer '{name}' has data type {dataType}, only float is supported"
  | initializerNegative name => s!"initializer '{name}' has a negative dimension"
  | initializerSize name shape => s!"initializer '{name}' dimensions {shape.text} are too large"
  | initializer name cause => s!"initializer '{name}': {cause.message}"
  | notTensor value => s!"value '{value}' is not a tensor"
  | noShape value => s!"value '{value}' declares no shape"
  | dimension value axis d => s!"value '{value}' axis {axis} has unsupported dimension {d}"
  | valueSize value shape => s!"value '{value}' dimensions {shape.text} are too large"
  | inputCount count => s!"expected exactly one graph input, found {count}"
  | outputCount count => s!"expected exactly one graph output, found {count}"
  | noOutput name => s!"node '{name}' has no output"
  | kernelShape name declared weight =>
    s!"Conv '{name}' kernel_shape {integers declared} disagrees with weight {weight.text}"
  | negativeGroup name => s!"node '{name}' has a negative group"
  | clipBound value => s!"Clip bound '{value}' is not a scalar"
  | noKernelShape name => s!"MaxPool '{name}' has no kernel_shape"
  | node name operator cause => s!"node '{name}' ({operator}): {cause.message}"
  | outputShape declared produced =>
    s!"declared output shape {declared.text} but graph produces {produced.text}"

end ExchangeError

end NetPack
