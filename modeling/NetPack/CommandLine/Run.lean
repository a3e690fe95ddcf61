import NetPack.CommandLine.Command
import NetPack.Config.Read
import NetPack.Convert.Batch
import NetPack.Url.Source

/-!
# Running commands

A command prints texts, reports errors and ends with a code: zero for success, one for an error, two
for wrong arguments, and one hundred and one if the computation broke off.
-/

namespace NetPack

namespace CommandLine

/-- What a command leaves behind. -/
structure Report where
  /-- Zero means success. -/
  code : Nat
  /-- What was printed. -/
  printed : String
  /-- The errors. -/
  errors : String
deriving DecidableEq

namespace Report

/-- A success. -/
def success (printed : String) : Report := ⟨0, printed, ""⟩

/-- An error that ends a command after something was printed. -/
def failure (printed text : String) : Report := ⟨1, printed, s!"Error: {text}\n"⟩

/-- The computation broke off after something was printed. -/
def crash (printed : String) : Report := ⟨101, printed, ""⟩

end Report

/-- A computation that ends a command with a text when it fails. -/
abbrev Running (m : Type → Type) (α : Type) := ExceptT (Fault String) m α

variable {m : Type → Type} [Monad m]

namespace Running

/-- A computation whose errors are shown by `text`. -/
def showing {ε α : Type} (text : ε → String) (x : ExceptT ε m α) : Running m α :=
  ExceptT.adapt (fun e => .reported (text e)) x

/-- A computation that may break off, and whose errors are shown by `text`. -/
def within {ε α : Type} (text : ε → String) (x : ExceptT (Fault ε) m α) : Running m α :=
  ExceptT.adapt (Fault.map text) x

/-- A result whose error is shown by `text`. -/
def result {ε α : Type} (text : ε → String) (r : Except ε α) : Running m α :=
  showing text (ExceptT.mk (pure r))

/-- A result that may break off, and whose error is shown by `text`. -/
def outcome {ε α : Type} (text : ε → String) (r : Outcome ε α) : Running m α :=
  ExceptT.mk (pure (r.mapError text))

/-- Reports how a command ended that had printed something before. -/
def report (printed : String) (x : Running m String) : m Report := do
  match ← x.run with
  | .ok more => return .success (printed ++ more)
  | .error (.reported text) => return .failure printed text
  | .error .crash => return .crash printed

end Running

/-! ### Layout -/

/-- The text with blanks around it. -/
def centred (width : Nat) (s : String) : String :=
  let blanks := width - s.length
  "".pushn ' ' (blanks / 2) ++ s ++ "".pushn ' ' (blanks - blanks / 2)

/-- The text with blanks after it. -/
def padded (width : Nat) (s : String) : String := s.pushn ' ' (width - s.length)

/-- The text, or its start and three points if it is too long. -/
def truncated (width : Nat) (s : String) : String :=
  if s.length ≤ width then s else (s.take (width - 3)).toString ++ "..."

/-- Lines with an end after each. -/
def lines (ls : List String) : String := String.join (ls.map (· ++ "\n"))

/-- A title in a box, and an empty line. -/
def banner (title : String) : String :=
  let rule := "".pushn '═' 54
  lines ["╔" ++ rule ++ "╗", "║" ++ centred 54 title ++ "║", "╚" ++ rule ++ "╝", ""]

/-! ### Converting -/

/-- The text of an error of a configuration. -/
def configText (e : ConfigError) : String := (ConvertError.config e).message

/-- The configuration of a single checkpoint. -/
def singleConfig (a : ConvertArguments) (model : String) : Except String BatchConfig := do
  let some name := a.name <|> Path.fileName? model
    | throw s!"cannot derive a model name from '{model}'"
  let dims ←
    match readShape a.shape with
    | .ok dims => pure dims
    | .error fault => throw fault.message
  let preset ←
    match Preset.parse a.preset with
    | .ok preset => pure preset
    | .error unknown => throw (configText (.preset unknown))
  let job := { Job.ofSource name model with
    route := if a.exchange then .exchange else .direct
    inputShape := some dims
    preset := some preset
    labelsFile := a.labels
    output := a.output }
  let config := { BatchConfig.empty with jobs := [job] }
  match config.check with
  | .ok _ => return config
  | .error cause => throw (configText cause)

/-- The report of a batch. -/
def batchReport (r : BatchReport) : Report :=
  let printed := r.succeeded.map fun (model, path) => s!"Successfully converted {model} to {path}"
  let failures := r.failed.map fun f =>
    s!"Error converting {f.model} ({f.stage.name} stage): {f.cause.message}"
  if r.crashed then .crash ""
  else if r.failed.isEmpty then .success (lines printed)
  else
    let total := s!"Error: {r.failed.length} of {r.outcomes.length} conversions failed"
    ⟨1, lines printed, lines (failures ++ [total])⟩

variable [FileStore m] [NumberSource]

/-- The configuration that a conversion is told. -/
def configFor (a : ConvertArguments) : Running m BatchConfig := do
  let config ←
    match a.config, a.model with
    | some path, _ => Running.showing configText (BatchConfig.load path)
    | none, some model => Running.result id (singleConfig a model)
    | none, none => Running.result id (.error "either --config or --model is required")
  match a.outputDirectory with
  | some directory =>
    return { config with defaults := { config.defaults with outputDirectory := some directory } }
  | none => return config

/-- Converts the models that were told. -/
def runConvert (a : ConvertArguments) : m Report := do
  match ← (configFor a).run with
  | .error (.reported text) => return .failure "" text
  | .error .crash => return .crash ""
  | .ok config => return batchReport (← config.run)

/-! ### The other commands -/

/-- Writes a checkpoint as an exchange file. -/
def runExport (model shape out : String) : m Report :=
  Running.report "" do
    let dims ← Running.result ShapeFault.message (readShape shape)
    let d ← Running.result ConvertError.message (Descriptor.ofDims dims)
    let source ← Running.showing
      (fun e => s!"failed to load model from '{model}': {ModelError.message e}")
      (SequentialModel.load model)
    let g ← Running.outcome ConvertError.message (Export.exportGraph source.toModel d)
    Running.showing ConvertError.message (Exchange.write g out)
    return lines
      [s!"Exported {source.name} ({g.nodes.length} nodes, {g.numParameters} parameters) to {out}",
       s!"  input  '{g.input.name}' {g.input.shape.text} (batch axis dynamic)",
       s!"  output '{g.output.name}' {g.output.shape.text}"]

/-- Checks an exchange file. -/
def runValidate (path : String) (batch : Nat) : m Report :=
  Running.report (banner "modelport · Exchange Validator") do
    let (g, r) ← Running.within ConvertError.message (Exchange.load path batch)
    return lines
      [s!"  File:     {path}", s!"  Producer: {r.producer}", s!"  IR:       v{r.irVersion}",
       s!"  Opset:    {r.operatorVersion}",
       s!"  Nodes:    {r.operators} ({r.initializers} initializers)", "", g.summary, "", "  OK"]

/-- A row of the table of nodes. -/
def tableRow (index node op output : String) : String :=
  s!"  {padded 4 index} {padded 28 (truncated 28 node)} {padded 20 op} {padded 20 output}"

/-- The lines about the nodes of an artifact. -/
def nodeTable (g : Graph Binary32) : String :=
  lines ([tableRow "Idx" "Node" "Op" "Output", "  " ++ "".pushn '-' 74] ++
    g.nodes.zipIdx.map fun (n, i) => tableRow i.repr n.name n.op.label n.outputShape.text)

/-- What is printed about an artifact. -/
def artifactText (a : Artifact) : String :=
  let megabytes := Decimal.fixed 2 a.graph.paramBytes (1024 * 1024)
  lines [a.text, "", s!"  Parameters: {a.graph.numParameters} ({megabytes} MB)", ""] ++
    nodeTable a.graph ++ "\n"

/-- Shows an artifact. -/
def runInspect (path : String) : m Report :=
  Running.report (banner "modelport · Artifact Inspector") do
    let a ← Running.within
      (fun e => s!"failed to load artifact '{path}': {ConvertError.message e}")
      (Artifact.load path)
    return artifactText a

/-- Makes sure that weights are there. -/
def runFetch (url directory : String) : m Report :=
  Running.report "" do
    let source ← Running.result configText (WeightSource.inDirectory url directory)
    let path ← Running.showing ConvertError.message source.fetch
    return lines [s!"Weights available at {path}"]

/-- Runs a command. -/
def Command.run : Command → m Report
  | .convert arguments => runConvert arguments
  | .export model shape out => runExport model shape out
  | .validate path batch => runValidate path batch
  | .inspect path => runInspect path
  | .fetch url directory => runFetch url directory

/-! ### The program -/

/-- What is printed when the version is asked for. -/
def versionText : String := "modelport 0.1.0\n"

/-- What is printed when an explanation is asked for. -/
def helpText : String :=
  lines (["Convert trained image classifiers into compiled deployment artifacts", "",
    "Usage: modelport [OPTIONS] <COMMAND>", "", "Commands:"] ++
    commands.map fun (name, _) => "  " ++ name)

/-- The report of a reading that ended without a command. -/
def Halt.report : Halt → Report
  | .usage => ⟨2, "", "error: the arguments cannot be understood\n"⟩
  | .help => .success helpText
  | .version => .success versionText

/-- Does what the arguments say. -/
def run (arguments : List String) : m Report :=
  match readCommand arguments with
  | .ok command => command.run
  | .error halt => pure halt.report

end CommandLine

end NetPack
