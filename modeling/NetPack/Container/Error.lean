import NetPack.Tensor.Error
import NetPack.Text.Quoted

/-!
# Errors of tensor containers
-/

namespace NetPack

/-- Why bytes are no tensor container of the wanted kind. -/
inductive ContainerError where
  | headerTooSmall
  | headerTooLarge
  | headerLength
  | headerText
  | headerDocument
  /-- A tensor does not start where the one before it ends. -/
  | offset (tensor : String)
  /-- The size of a tensor is no word. -/
  | sizeOverflow
  /-- A tensor has another size than its shape and element type ask for. -/
  | tensorSize
  /-- The tensors do not fill the container. -/
  | incomplete
  /-- The container holds no header of the wanted kind. -/
  | noHeader (kind : String)
  /-- A tensor cannot be read. -/
  | tensor (name : String) (cause : TensorError)
  /-- An element type that is never read. -/
  | elementType (name : String)
  /-- An error in a certain file. -/
  | inFile (path : String) (cause : ContainerError)
deriving DecidableEq

namespace ContainerError

/-- The text of an error. -/
def message : ContainerError → String
  | headerTooSmall => "HeaderTooSmall"
  | headerTooLarge => "HeaderTooLarge"
  | headerLength => "InvalidHeaderLength"
  | headerText => "InvalidHeader"
  | headerDocument => "InvalidHeaderDeserialization"
  | offset name => s!"InvalidOffset({Text.quoted name})"
  | sizeOverflow => "ValidationOverflow"
  | tensorSize => "TensorInvalidInfo"
  | incomplete => "MetadataIncompleteBuffer"
  | noHeader kind => s!"no '{kind}' header present"
  | tensor name cause => s!"tensor '{name}': {cause.message}"
  | elementType name => s!"unsupported SafeTensors dtype: {name}"
  | inFile path cause => s!"{path}: {cause.message}"

end ContainerError

end NetPack
