import NetPack.Decimal.Notation
import NetPack.Exchange.Error
import NetPack.Graph.Error
import NetPack.Input.Spec
import NetPack.Metadata
import NetPack.Model.Basic

/-!
# Errors of conversions

`ConvertError` collects everything that can end a conversion. Each of its kinds carries a cause of a
type of its own. A `Failure` adds the model and the stage of the conversion.
-/

namespace NetPack

/-- Which declared shape does not fit. -/
inductive ShapeConflict where
  /-- A layer refuses its input. -/
  | model (layer : String) (cause : TensorError)
  /-- The declared input does not fit itself or the pixels. -/
  | channels (layout : ColorLayout) (declared : Nat)
  | pixels (expected given : Shape)
  /-- The declared input is not the input of the graph. -/
  | input (name : String) (declared : Shape) (graph : String) (taken : Shape)
  /-- A folded bias does not fit. -/
  | bias (cause : TensorError)
deriving DecidableEq

/-- What is wrong with a graph that was read. -/
inductive Malformed where
  | graph (cause : GraphError)
  | exchange (cause : ExchangeError)
  /-- An error of another kind that came up while an exchange file was checked. -/
  | refused (text : String)
  | artifactHeader (cause : DecodeError)
  | artifactVersion (found expected : Nat)
  | incomplete (conv norm : String)
deriving DecidableEq

/-- What a conversion needs before it can start. -/
inductive Precondition where
  | inputRank (dims : List Nat)
  | zeroDimension (shape : Shape)
  | training (model : String) (mode : Mode)
  | notFile (path : String)
  | unnamed
  | noOperations (artifact : String)
deriving DecidableEq

/-- What is wrong with a configuration. -/
inductive ConfigError where
  | std (values : List Binary32)
  | preset (text : String)
  | unreadable (path : String) (cause : FileError)
  | document (cause : DecodeError)
  | unwritable
  | emptyName
  | repeatedName (model : String)
  | bothLabels (model : String)
  | routeShape (model route : String)
  | noShape (model : String)
  | url (url : String)
  | scheme (scheme url : String)
  | noFileName (url : String)
deriving DecidableEq

/-- What can end a conversion. -/
inductive ConvertError where
  | unsupported (layer op : String)
  | shape (cause : ShapeConflict)
  | malformed (cause : Malformed)
  | labelCount (labels outputs : Nat)
  | target (cause : TargetError)
  | file (path : String) (cause : FileError)
  | precondition (cause : Precondition)
  | config (cause : ConfigError)
  | model (cause : ModelError)
deriving DecidableEq

namespace ShapeConflict

/-- The text of a conflict. -/
def message : ShapeConflict → String
  | model layer cause => (ModelError.shape layer cause).message
  | channels layout declared =>
    s!"{layout.title} image input needs {layout.channels} channels, " ++
      s!"descriptor declares {declared}"
  | pixels expected given => s!"expected pixels of shape {expected.text}, got {given.text}"
  | input name declared graph taken =>
    s!"input '{name}' declares {declared.text} but graph '{graph}' takes {taken.text}"
  | bias cause => cause.message

end ShapeConflict

namespace Malformed

/-- The text of a fault. -/
def message : Malformed → String
  | graph cause => cause.message
  | exchange cause => cause.message
  | refused text => text
  | artifactHeader cause => s!"artifact header: {cause.message}"
  | artifactVersion found expected =>
    s!"unsupported artifact version {found} (expected {expected})"
  | incomplete conv norm => s!"parameters of '{conv}' + '{norm}' are incomplete"

end Malformed

namespace Precondition

/-- The text of a violated precondition. -/
def message : Precondition → String
  | inputRank dims =>
    s!"input shape must have four dimensions (N, C, H, W), got {Shape.bracketed dims}"
  | zeroDimension shape => s!"input shape {shape.text} has a zero dimension"
  | training model mode =>
    s!"model '{model}' is in {mode.name} mode; call eval() before exporting"
  | notFile path => s!"'{path}' does not name a file"
  | unnamed => "cannot annotate an artifact without a model name"
  | noOperations artifact => s!"artifact '{artifact}' has no compiled operations"

end Precondition

namespace ConfigError

/-- The text of an error. -/
def message : ConfigError → String
  | std values =>
    s!"normalization std must be positive, got {Decimal.messageNotation.singles values}"
  | preset text => s!"unknown preset '{text}'; expected 'classifier' or 'portable'"
  | unreadable path cause => s!"cannot read config '{path}': {cause.message}"
  | document cause => s!"TOML parse error: {cause.message}"
  | unwritable => "TOML serialise error: out-of-range value for u64 type"
  | emptyName => "model with an empty name"
  | repeatedName model => s!"model '{model}' is listed more than once"
  | bothLabels model => s!"model '{model}' sets both 'labels' and 'labels_file'"
  | routeShape model route => s!"model '{model}' needs 'input_shape' for the {route} route"
  | noShape model => s!"model '{model}' needs 'input_shape'"
  | url text => s!"invalid URL '{text}': it cannot be read"
  | scheme name text => s!"unsupported URL scheme '{name}' in '{text}'"
  | noFileName text => s!"URL '{text}' does not end in a file name"

end ConfigError

namespace ConvertError

/-- The text of an error. -/
def message : ConvertError → String
  | unsupported layer op => s!"unsupported operation '{op}' in layer '{layer}'"
  | shape cause => s!"shape mismatch: {cause.message}"
  | malformed cause => s!"malformed graph: {cause.message}"
  | labelCount labels outputs =>
    s!"{labels} class labels given but the model produces {outputs} outputs"
  | target cause => s!"unsupported target: {cause.message}"
  | file path cause => s!"I/O error on '{path}': {cause.message}"
  | precondition cause => s!"precondition failed: {cause.message}"
  | config cause => s!"configuration error: {cause.message}"
  | model cause => s!"model error: {cause.message}"

/-- An error of a model as an error of a conversion. -/
def ofModel : ModelError → ConvertError
  | .unsupported layer op => unsupported layer op
  | .shape layer cause => shape (.model layer cause)
  | .graph cause => malformed (.graph cause)
  | .file path cause => file path cause
  | cause => model cause

/-- An error of an input as an error of a conversion. -/
def ofInput : InputError → ConvertError
  | .std values => config (.std values)
  | .channels layout declared => shape (.channels layout declared)
  | .pixels expected given => shape (.pixels expected given)

end ConvertError

/-- A stage of a conversion. -/
inductive Stage where
  | load
  | «export»
  | validate
  | compile
  | annotate
  | persist
deriving DecidableEq

namespace Stage

/-- The name used in every text. -/
def name : Stage → String
  | load => "load"
  | «export» => "export"
  | validate => "validate"
  | compile => "compile"
  | annotate => "annotate"
  | persist => "persist"

end Stage

/-- A conversion that failed: which model, in which stage and why. -/
structure Failure where
  model : String
  stage : Stage
  cause : ConvertError
deriving DecidableEq

namespace Failure

/-- The text of a failure. -/
def message (f : Failure) : String :=
  s!"converting '{f.model}' failed during {f.stage.name}: {f.cause.message}"

end Failure

end NetPack
