import NetPack.Artifact.Codec
import NetPack.Config.Basic
import NetPack.Files.Replace
import NetPack.Toml.Decode

/-!
# Reading batch configurations

A configuration is read from a document of any format; in files it is written in TOML.
-/

namespace NetPack

variable {δ : Type} [Document δ]

namespace Route

/-- Reads the name of a route. -/
def read : Decoder δ Route := Document.name ofName? "a route"

end Route

namespace InputKind

/-- Reads the kind of an input. -/
def read : Decoder δ InputKind := Document.name ofName? "the kind of an input"

end InputKind

namespace Defaults

/-- Reads defaults, all of which may be left open. -/
def read : Decoder δ Defaults := fun d => do
  let r ← Document.record
    ["preset", "target", "compute_units", "format", "precision", "output_dir"] d
  return {
    preset := ← r.withDefault "preset" Preset.read .classifier
    target := ← r.optional "target" Target.read
    units := ← r.optional "compute_units" ComputeUnits.read
    format := ← r.optional "format" ModelFormat.read
    precision := ← r.optional "precision" ComputePrecision.read
    outputDirectory := ← r.optional "output_dir" Document.string }

end Defaults

namespace Job

/-- Reads a job. -/
def read : Decoder δ Job := fun d => do
  let r ← Document.record ["name", "route", "source", "input_shape", "preset", "input",
    "color_layout", "labels", "labels_file", "output", "exchange_path"] d
  return {
    name := ← r.required "name" Document.string
    route := ← r.withDefault "route" Route.read .direct
    source := ← r.required "source" Document.string
    inputShape := ← r.optional "input_shape" (Document.list Document.nat)
    preset := ← r.optional "preset" Preset.read
    input := ← r.withDefault "input" InputKind.read .image
    layout := ← r.withDefault "color_layout" ColorLayout.read .rgb
    labels := ← r.optional "labels" Labels.read
    labelsFile := ← r.optional "labels_file" Document.string
    output := ← r.optional "output" Document.string
    exchange := ← r.optional "exchange_path" Document.string }

end Job

namespace BatchConfig

/-- Reads a configuration, which is not yet checked. -/
def read : Decoder δ BatchConfig := fun d => do
  let r ← Document.record ["defaults", "metadata", "normalization", "model"] d
  return {
    defaults := ← r.withDefault "defaults" Defaults.read .standard
    metadata := ← r.optional "metadata" Metadata.read
    normalization := ← r.withDefault "normalization" Normalization.read .standard
    jobs := ← r.withDefault "model" (Document.list Job.read) [] }

/-- Reads and checks a configuration from its document. -/
def ofDocument (d : δ) : Except ConfigError BatchConfig :=
  match read d with
  | .error cause => .error (.document cause)
  | .ok c => do
    c.check
    return c

/-- Reads and checks a configuration from its text. -/
def parse (text : String) : Except ConfigError BatchConfig :=
  match Toml.parse? text with
  | none => .error (.document .malformed)
  | some d => ofDocument d

/-- Loads a configuration from a file. -/
def load {m : Type → Type} [Monad m] [FileStore m] (path : String) :
    ExceptT ConfigError m BatchConfig := do
  let text ← ExceptT.adapt (.unreadable path) (FileStore.text path)
  ExceptT.mk (pure (parse text))

end BatchConfig

end NetPack
