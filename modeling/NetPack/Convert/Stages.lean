import NetPack.Convert.Compile
import NetPack.Convert.Export
import NetPack.Files.Formats

/-!
# The stages of a conversion

A conversion takes a model through four stages: its graph is exported, compiled, annotated and
stored. Every stage is a value of a type of its own that only the stage before it gives, so none can
be left out. A failure says of which model and in which stage.
-/

namespace NetPack

/-- A step of a conversion: it works with files, and it can fail or break off. -/
abbrev Converting (m : Type → Type) (α : Type) := ExceptT (Fault Failure) m α

namespace Converting

variable {m : Type → Type} [Monad m] {α : Type}

/-- The failure of a model in a stage. -/
def fail (model : String) (stage : Stage) (cause : ConvertError) : Converting m α :=
  throw (.reported ⟨model, stage, cause⟩)

/-- A computation that belongs to a stage. -/
def during (model : String) (stage : Stage) (x : ExceptT ConvertError m α) : Converting m α :=
  ExceptT.adapt (fun cause => .reported ⟨model, stage, cause⟩) x

/-- A computation that belongs to a stage and may break off. -/
def within (model : String) (stage : Stage) (x : ExceptT (Fault ConvertError) m α) :
    Converting m α :=
  ExceptT.adapt (Fault.map fun cause => ⟨model, stage, cause⟩) x

/-- A result that belongs to a stage. -/
def settle (model : String) (stage : Stage) (r : Outcome ConvertError α) : Converting m α :=
  ExceptT.mk (pure (r.mapError fun cause => ⟨model, stage, cause⟩))

end Converting

/-- How a recorded graph gets to the compiler. -/
inductive ExportRoute where
  /-- As it is. -/
  | direct
  /-- Through an exchange file, which has to pass its check. -/
  | exchange (path : String)
deriving DecidableEq

/-- A conversion whose graph is there. -/
structure Exported where
  model : String
  graph : Graph Binary32

/-- A conversion whose graph is compiled. -/
structure Compiled where
  model : String
  artifact : Artifact

/-- A conversion that is ready to be stored. -/
structure Annotated where
  model : String
  artifact : Artifact

open Converting

namespace Exported

variable {m : Type → Type} [Monad m] [FileStore m]

/-- Records a model; on the route through an exchange file the graph is the one in that file. -/
def ofModel [NumberSource] (name : String) (model : Model Binary32) (d : Descriptor)
    (route : ExportRoute) :
    Converting m Exported := do
  let graph ← settle name .export (Export.exportGraph model d)
  match route with
  | .direct => return ⟨name, graph⟩
  | .exchange path =>
    during name .export (Exchange.write graph path)
    let (graph, _) ← within name .validate (Exchange.load path d.batch)
    return ⟨name, graph⟩

/-- Loads the graph of a bundle. -/
def ofBundle (name path : String) : Converting m Exported := do
  return ⟨name, ← within name .load (ExceptT.adapt (Fault.map .ofModel) (Bundle.load path))⟩

/-- Compiles the graph, which takes the name of the model. -/
def compile (e : Exported) (input : InputSpec) (options : CompileOptions)
    (labels : Option Labels) : Outcome Failure Compiled :=
  let graph := { e.graph with name := e.model }
  match NetPack.compile graph input options labels with
  | .ok artifact => .ok ⟨e.model, artifact⟩
  | .error fault => .error (fault.map fun cause => ⟨e.model, .compile, cause⟩)

end Exported

namespace Compiled

/-- Adds metadata. -/
def annotate (c : Compiled) (metadata : Metadata) : Except Failure Annotated :=
  match c.artifact.annotate metadata with
  | .ok artifact => .ok ⟨c.model, artifact⟩
  | .error cause => .error ⟨c.model, .annotate, cause⟩

end Compiled

namespace Annotated

variable {m : Type → Type} [Monad m] [FileStore m]

/-- Stores the artifact, and gives its path. -/
def persist (a : Annotated) (path : String) : Converting m String := do
  during a.model .persist (a.artifact.save path)
  return path

end Annotated

namespace Exported

variable {m : Type → Type} [Monad m] [FileStore m]

/-- Takes a conversion through all stages that are left. -/
def finish (e : Exported) (input : InputSpec) (options : CompileOptions)
    (labels : Option Labels) (metadata : Metadata) (path : String) : Converting m String := do
  let compiled ← ExceptT.mk (pure (e.compile input options labels))
  let annotated ← ExceptT.mk (pure (Outcome.ofExcept (compiled.annotate metadata)))
  annotated.persist path

end Exported

end NetPack
