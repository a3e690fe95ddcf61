import NetPack.Container.Error
import NetPack.Files.Error
import NetPack.Json.Decode
import NetPack.Op.Basic

/-!
# Errors of models and graphs

`GraphError` says what is wrong with the structure of a graph, `LayerError` what is wrong with one
layer, and `ModelError` collects everything that can go wrong while a model is read, recorded or
run. Every cause is a constructor, and the text is made in one place.
-/

namespace NetPack

/-- What is wrong with the structure of a graph. -/
inductive GraphError where
  | noNodes (graph : String)
  | noLayers
  | emptyInput (name : String) (shape : Shape)
  | dynamicAxis (axis : Nat) (shape : Shape)
  | duplicateNode (node : String)
  | undefinedValue (node value : String)
  | missingParameter (node parameter : String)
  | producedTwice (value : String)
  | outputMissing (output : String)
  | outputShape (declared produced : Shape)
  | valueNotComputed (value : String)
  | outputNotComputed (output : String)
  | noOperations (graph : String)
  | foreignValue (value : String)
  | bundleVersion (found expected : Nat)
deriving DecidableEq

namespace GraphError

/-- The text of an error. -/
def message : GraphError → String
  | noNodes graph => s!"graph '{graph}' contains no nodes"
  | noLayers => "manifest contains no layers"
  | emptyInput name shape => s!"input '{name}' has zero elements ({shape.text})"
  | dynamicAxis axis shape => s!"dynamic axis {axis} out of range for input shape {shape.text}"
  | duplicateNode node => s!"duplicate node name '{node}'"
  | undefinedValue node value => s!"node '{node}' reads undefined value '{value}'"
  | missingParameter node parameter =>
    s!"node '{node}' references missing parameter '{parameter}'"
  | producedTwice value => s!"value '{value}' is produced more than once"
  | outputMissing output => s!"declared output '{output}' is never produced"
  | outputShape declared produced =>
    s!"declared output shape {declared.text} but graph produces {produced.text}"
  | valueNotComputed value => s!"value '{value}' not computed"
  | outputNotComputed output => s!"output '{output}' not computed"
  | noOperations graph => s!"model '{graph}' records no operations"
  | foreignValue value => s!"value '{value}' was not produced by this trace"
  | bundleVersion found expected => s!"unsupported bundle version {found} (expected {expected})"

end GraphError

/-- What is wrong with a layer or a node. -/
inductive LayerError where
  /-- The operation refuses its hyper-parameters or parameters. -/
  | tensor (cause : TensorError)
  | boundElsewhere (parameter : String)
  | recordedShape (recorded inferred : Shape)
  | noKernelSize
  | checkpointType (dtype : String)
  | duplicateLayer
  | listedWeights (layerType : String) (arity : Arity) (listed : Nat)
  | givenWeights (layerType : String) (given : Nat)
deriving DecidableEq

namespace LayerError

/-- The text of an error. -/
def message : LayerError → String
  | tensor cause => cause.message
  | boundElsewhere parameter => s!"parameter '{parameter}' already bound to a different tensor"
  | recordedShape recorded inferred =>
    s!"recorded output shape {recorded.text} but inferred {inferred.text}"
  | noKernelSize => "max pooling requires 'kernel_size'"
  | checkpointType dtype => s!"unsupported checkpoint dtype '{dtype}'"
  | duplicateLayer => "duplicate layer name"
  | listedWeights layerType arity listed =>
    s!"{layerType} takes {arity.text} weight tensors, manifest lists {listed}"
  | givenWeights layerType given => s!"{layerType} cannot take {given} weight tensors"

end LayerError

/-- What can go wrong while a model is read, recorded or run. -/
inductive ModelError where
  | file (path : String) (cause : FileError)
  | json (cause : DecodeError)
  | weightNotFound (name : String)
  | container (cause : ContainerError)
  | layer (layer : String) (cause : LayerError)
  | graph (cause : GraphError)
  | unsupported (layer op : String)
  | shape (layer : String) (cause : TensorError)
deriving DecidableEq

namespace ModelError

/-- The text of an error. -/
def message : ModelError → String
  | file path cause => s!"failed to read '{path}': {cause.message}"
  | json cause => s!"failed to parse JSON: {cause.message}"
  | weightNotFound name => s!"weight tensor not found: {name}"
  | container cause => s!"SafeTensors error: {cause.message}"
  | layer name cause => s!"invalid layer '{name}': {cause.message}"
  | graph cause => s!"invalid model graph: {cause.message}"
  | unsupported name op =>
    s!"layer '{name}' uses operation '{op}' which has no traceable equivalent"
  | shape name cause => s!"layer '{name}' rejected its input: {cause.message}"

end ModelError

end NetPack
