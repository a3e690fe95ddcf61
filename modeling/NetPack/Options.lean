import NetPack.Document
import NetPack.Json.Writer
import NetPack.Text.Blank
import NetPack.Text.Lowercase

/-!
# Compile options

What an artifact is made for: the oldest platform that has to run it, the engines it prefers, the
form of its program and the precision it computes in. Not every platform can run every combination;
`CompileOptions.check` says which part does not fit.
-/

namespace NetPack

variable {δ : Type} [Document δ]

/-- The oldest platform that has to run an artifact. -/
inductive Target where
  | iOS13
  | iOS14
  | iOS15
  | iOS16
  | iOS17
  | macOS10
  | macOS11
  | macOS12
  | macOS13
  | macOS14
deriving DecidableEq, Inhabited

/-- Why a platform cannot be served. -/
inductive TargetError where
  | unknown (text : String)
  | format (format target : String)
  | units (units target : String)
  | precision (precision format : String)
deriving DecidableEq

namespace TargetError

/-- The text of an error. -/
def message : TargetError → String
  | unknown text => s!"unknown deployment target '{text}'"
  | format f t => s!"{f} requires iOS15 / macOS12 or later, target is {t}"
  | units u t => s!"compute units {u} require iOS15 / macOS12 or later, target is {t}"
  | precision p f => s!"{p} compute precision requires ml_program, format is {f}"

end TargetError

namespace Target

/-- All platforms. -/
def all : List Target :=
  [iOS13, iOS14, iOS15, iOS16, iOS17, macOS10, macOS11, macOS12, macOS13, macOS14]

/-- The name used in every text. -/
def name : Target → String
  | iOS13 => "iOS13"
  | iOS14 => "iOS14"
  | iOS15 => "iOS15"
  | iOS16 => "iOS16"
  | iOS17 => "iOS17"
  | macOS10 => "macOS10.15"
  | macOS11 => "macOS11"
  | macOS12 => "macOS12"
  | macOS13 => "macOS13"
  | macOS14 => "macOS14"

/-- Can the platform run programs, and place them on the neural engine? -/
def runsPrograms : Target → Bool
  | iOS15 | iOS16 | iOS17 | macOS12 | macOS13 | macOS14 => true
  | _ => false

/-- Reads a name in any mixture of small and capital letters, with blanks around it. -/
def parse (s : String) : Except TargetError Target :=
  let lower := Text.asciiLowercase (Text.trim s)
  match all.find? fun t => Text.asciiLowercase t.name == lower with
  | some t => .ok t
  | none => .error (.unknown s)

/-- Reads the name of a platform. -/
def read : Decoder δ Target := fun d => do
  match parse (← Document.string d) with
  | .ok t => return t
  | .error _ => throw (.mismatch "a deployment target")

end Target

/-- The engines that an artifact prefers. -/
inductive ComputeUnits where
  | all
  | cpuOnly
  | cpuAndGpu
  | cpuAndNeuralEngine
deriving DecidableEq, Inhabited

namespace ComputeUnits

/-- The name used in every text. -/
def name : ComputeUnits → String
  | all => "all"
  | cpuOnly => "cpu_only"
  | cpuAndGpu => "cpu_and_gpu"
  | cpuAndNeuralEngine => "cpu_and_neural_engine"

/-- The units of a name. -/
def ofName? (s : String) : Option ComputeUnits :=
  [all, cpuOnly, cpuAndGpu, cpuAndNeuralEngine].find? fun u => u.name == s

/-- Reads the name of compute units. -/
def read : Decoder δ ComputeUnits := Document.name ofName? "compute units"

end ComputeUnits

/-- The form of the program in an artifact. -/
inductive ModelFormat where
  | mlProgram
  | neuralNetwork
deriving DecidableEq, Inhabited

namespace ModelFormat

/-- The name used in every text. -/
def name : ModelFormat → String
  | mlProgram => "ml_program"
  | neuralNetwork => "neural_network"

/-- The format of a name. -/
def ofName? (s : String) : Option ModelFormat :=
  [mlProgram, neuralNetwork].find? fun f => f.name == s

/-- Reads the name of a format. -/
def read : Decoder δ ModelFormat := Document.name ofName? "a format"

end ModelFormat

/-- The precision that an artifact computes in. -/
inductive ComputePrecision where
  | float16
  | float32
deriving DecidableEq, Inhabited

namespace ComputePrecision

/-- The name used in every text. -/
def name : ComputePrecision → String
  | float16 => "float16"
  | float32 => "float32"

/-- The precision of a name. -/
def ofName? (s : String) : Option ComputePrecision :=
  [float16, float32].find? fun p => p.name == s

/-- Reads the name of a precision. -/
def read : Decoder δ ComputePrecision := Document.name ofName? "a precision"

end ComputePrecision

/-- What an artifact is made for. -/
structure CompileOptions where
  target : Target
  units : ComputeUnits
  format : ModelFormat
  precision : ComputePrecision
deriving DecidableEq, Inhabited

namespace CompileOptions

/-- Refuses combinations that the platform cannot run. -/
def check (o : CompileOptions) : Except TargetError Unit := do
  if o.format = .mlProgram && !o.target.runsPrograms then
    throw (.format o.format.name o.target.name)
  if o.units = .cpuAndNeuralEngine && !o.target.runsPrograms then
    throw (.units o.units.name o.target.name)
  if o.precision = .float16 && o.format ≠ .mlProgram then
    throw (.precision o.precision.name o.format.name)

/-- The document of the options. -/
def toJson (o : CompileOptions) : Json :=
  .object [("target", .string o.target.name), ("compute_units", .string o.units.name),
    ("format", .string o.format.name), ("precision", .string o.precision.name)]

/-- Reads options. -/
def read : Decoder δ CompileOptions := fun d => do
  let r ← Document.record ["target", "compute_units", "format", "precision"] d
  return ⟨← r.required "target" Target.read, ← r.required "compute_units" ComputeUnits.read,
    ← r.required "format" ModelFormat.read, ← r.required "precision" ComputePrecision.read⟩

end CompileOptions

end NetPack
