import NetPack.Convert.Error
import NetPack.Files.Path
import NetPack.Labels

/-!
# Batch configurations

A configuration lists the models of a batch and what they have in common. A job says where its model
comes from, how it is fed and where its artifact goes; what it leaves open is taken from the
defaults of the batch, and what those leave open from a preset. `BatchConfig.check` refuses what no
reader of single fields can see: names that are used twice, and fields that exclude or need each
other.
-/

namespace NetPack

/-- How a job obtains its graph. -/
inductive Route where
  /-- The model of a checkpoint is recorded. -/
  | direct
  /-- The recorded model goes through an exchange file. -/
  | exchange
  /-- The graph is loaded from a bundle. -/
  | bundle
deriving DecidableEq, Inhabited

namespace Route

/-- The name in documents. -/
def name : Route → String
  | direct => "direct"
  | exchange => "exchange"
  | bundle => "bundle"

/-- The name in messages. -/
def title : Route → String
  | direct => "Direct"
  | exchange => "Exchange"
  | bundle => "Bundle"

/-- The route of a name. -/
def ofName? (s : String) : Option Route := [direct, exchange, bundle].find? fun r => r.name == s

end Route

/-- What a compiled model is fed with. -/
inductive InputKind where
  | image
  | tensor
deriving DecidableEq, Inhabited

namespace InputKind

/-- The name in documents. -/
def name : InputKind → String
  | image => "image"
  | tensor => "tensor"

/-- The kind of a name. -/
def ofName? (s : String) : Option InputKind := [image, tensor].find? fun k => k.name == s

end InputKind

/-- What the jobs of a batch have in common. Options that are given count more than those of a
preset. -/
structure Defaults where
  preset : Preset
  target : Option Target
  units : Option ComputeUnits
  format : Option ModelFormat
  precision : Option ComputePrecision
  /-- Where artifacts go that have no path of their own. -/
  outputDirectory : Option String
deriving DecidableEq, Inhabited

/-- A model of a batch. -/
structure Job where
  name : String
  route : Route
  /-- A checkpoint, or a bundle on the route of that name. -/
  source : String
  /-- The extents of the input; a bundle has its own. -/
  inputShape : Option (List Nat)
  preset : Option Preset
  input : InputKind
  layout : ColorLayout
  labels : Option Labels
  labelsFile : Option String
  output : Option String
  /-- Where the exchange file goes. -/
  exchange : Option String
deriving DecidableEq, Inhabited

/-- A batch of conversions. -/
structure BatchConfig where
  defaults : Defaults
  /-- What is said about every model, in place of the metadata of presets. -/
  metadata : Option Metadata
  normalization : Normalization
  jobs : List Job
deriving DecidableEq

namespace Defaults

/-- Nothing but a preset. -/
def standard : Defaults := ⟨.classifier, none, none, none, none, none⟩

end Defaults

namespace BatchConfig

/-- A batch without jobs. -/
def empty : BatchConfig := ⟨.standard, none, .standard, []⟩

instance : Inhabited BatchConfig := ⟨empty⟩

end BatchConfig

/-- The name of the artifact of a model. -/
def defaultArtifactName (model : String) : String := model ++ ".mlpack"

namespace Job

/-- A job with a name and a source, and everything else left open. -/
def ofSource (name source : String) : Job :=
  ⟨name, .direct, source, none, none, .image, .rgb, none, none, none, none⟩

/-- Where the artifact goes. -/
def outputPath (job : Job) (d : Defaults) : String :=
  match job.output, d.outputDirectory with
  | some path, _ => path
  | none, some directory => Path.join directory (defaultArtifactName job.name)
  | none, none => defaultArtifactName job.name

/-- Where the exchange file goes: beside the artifact if nothing else is said. -/
def exchangePath (job : Job) (d : Defaults) : String :=
  job.exchange.getD (Path.withExtension (job.outputPath d) "onnx")

/-- Does the job give labels in two ways? -/
def hasBothLabels (job : Job) : Bool := job.labels.isSome && job.labelsFile.isSome

end Job

namespace BatchConfig

/-- The preset of a job. -/
def presetFor (c : BatchConfig) (job : Job) : Preset := job.preset.getD c.defaults.preset

/-- The options of a job. -/
def optionsFor (c : BatchConfig) (job : Job) : CompileOptions :=
  let base := (c.presetFor job).options
  let d := c.defaults
  ⟨d.target.getD base.target, d.units.getD base.units, d.format.getD base.format,
    d.precision.getD base.precision⟩

/-- The metadata of a job. -/
def metadataFor (c : BatchConfig) (job : Job) : Metadata :=
  c.metadata.getD (c.presetFor job).metadata

/-! ### Checking -/

/-- Checks a job; `seen` holds the names of the jobs before it. -/
def checkJob (seen : List String) (job : Job) : Except ConfigError (List String) := do
  if Text.allBlank job.name then throw .emptyName
  if seen.contains job.name then throw (.repeatedName job.name)
  if job.hasBothLabels then throw (.bothLabels job.name)
  if job.inputShape.isNone && job.route ≠ .bundle then
    throw (.routeShape job.name job.route.title)
  return job.name :: seen

/-- Checks what concerns several fields. -/
def check (c : BatchConfig) : Except ConfigError Unit := do
  if !c.normalization.valid then throw (.std c.normalization.std.toList)
  let _ ← c.jobs.foldlM checkJob []

/-- Equal configurations; statistics are compared as numbers. -/
def same (c d : BatchConfig) : Bool :=
  c.defaults = d.defaults && c.metadata = d.metadata && c.jobs = d.jobs &&
    c.normalization.same d.normalization

end BatchConfig

end NetPack
