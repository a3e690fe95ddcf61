import NetPack.Config.Basic
import NetPack.Convert.Stages

/-!
# Running batches

The jobs of a batch run one after another. A job that fails is reported, and the next one runs all
the same; only a computation that breaks off ends the batch.
-/

namespace NetPack

open Converting

variable {m : Type → Type} [Monad m] [FileStore m] [NumberSource]

namespace Job

/-- The labels of a job, from its list or its file. -/
def loadLabels (job : Job) : ExceptT ConvertError m (Option Labels) :=
  match job.labels, job.labelsFile with
  | some _, some _ => throw (.config (.bothLabels job.name))
  | some labels, none => return some labels
  | none, some path => some <$> Labels.load path
  | none, none => return none

/-- The declared input of a job. -/
def descriptor (job : Job) : Except ConvertError (Option Descriptor) :=
  job.inputShape.mapM Descriptor.ofDims

/-- How the graph of a job gets to the compiler. -/
def exportRoute (job : Job) (d : Defaults) : ExportRoute :=
  if job.route = .exchange then .exchange (job.exchangePath d) else .direct

/-- How the compiled model is fed: as declared, or else as the graph is. -/
def inputSpec (job : Job) (n : Normalization) (declared : Option Descriptor)
    (g : Graph Binary32) : Except ConvertError InputSpec := do
  let name := g.input.name
  let image (d : Descriptor) : Except ConvertError InputSpec :=
    match InputSpec.ofImage name d n job.layout with
    | .ok spec => .ok spec
    | .error cause => .error (.ofInput cause)
  match job.input, declared with
  | .image, some d => image d
  | .tensor, some d => return .ofTensor name d
  | .image, none => image (← Descriptor.ofDims g.input.shape.dims)
  | .tensor, none => return .tensor name g.input.shape .f32

/-- Obtains the graph of a job. -/
def exportGraph (job : Job) (d : Defaults) (declared : Option Descriptor) :
    Converting m Exported := do
  if job.route = .bundle then Exported.ofBundle job.name job.source
  else
    let some descriptor := declared | fail job.name .load (.config (.noShape job.name))
    let model ← during job.name .load (ExceptT.adapt .ofModel (SequentialModel.load job.source))
    Exported.ofModel job.name model.toModel descriptor (job.exportRoute d)

end Job

namespace BatchConfig

/-- Runs a job, and gives the path of its artifact. -/
def runJob (c : BatchConfig) (job : Job) : Converting m String := do
  let labels ← during job.name .load job.loadLabels
  let declared ← during job.name .load (ofResult job.descriptor)
  let exported ← job.exportGraph c.defaults declared
  let input ← during job.name .compile
    (ofResult (job.inputSpec c.normalization declared exported.graph))
  exported.finish input (c.optionsFor job) labels (c.metadataFor job) (job.outputPath c.defaults)

end BatchConfig

/-- How a job ended. -/
structure JobOutcome where
  model : String
  /-- The path of the artifact, or why there is none. -/
  result : Outcome Failure String

/-- How the jobs of a batch ended, in their order. One that broke off is the last one. -/
structure BatchReport where
  outcomes : List JobOutcome

namespace BatchReport

/-- The models that were converted, with the paths of their artifacts. -/
def succeeded (r : BatchReport) : List (String × String) :=
  r.outcomes.filterMap fun o =>
    match o.result with
    | .ok path => some (o.model, path)
    | .error _ => none

/-- The failures. -/
def failed (r : BatchReport) : List Failure :=
  r.outcomes.filterMap fun o =>
    match o.result with
    | .error (.reported f) => some f
    | _ => none

/-- Did a job break off? -/
def crashed (r : BatchReport) : Bool :=
  r.outcomes.any fun o =>
    match o.result with
    | .error .crash => true
    | _ => false

/-- Did no job fail? -/
def isSuccess (r : BatchReport) : Bool := r.failed.isEmpty

end BatchReport

namespace BatchConfig

/-- Runs jobs one after another. -/
def runJobs (c : BatchConfig) : List Job → m (List JobOutcome)
  | [] => return []
  | job :: rest => do
    let result ← (c.runJob job).run
    match result with
    | .error .crash => return [⟨job.name, result⟩]
    | _ => return ⟨job.name, result⟩ :: (← runJobs c rest)

/-- Runs all jobs of a batch. -/
def run (c : BatchConfig) : m BatchReport := do
  return ⟨← c.runJobs c.jobs⟩

end BatchConfig

end NetPack
