import NetPack.Config.Basic
import NetPack.Convert.Stages

/-!
# Converting a single model

A request says how a model that is at hand is converted: its input is an image, and options and
metadata come from a preset.
-/

namespace NetPack

/-- What is needed to convert a model. -/
structure Request where
  name : String
  descriptor : Descriptor
  route : ExportRoute
  preset : Preset
  normalization : Normalization
  layout : ColorLayout
  labels : Option Labels
  output : Option String

namespace Request

/-- Where the artifact goes. -/
def outputPath (r : Request) : String := r.output.getD (defaultArtifactName r.name)

/-- The input of a recorded model as an image. -/
def input (r : Request) : Except ConvertError InputSpec :=
  match InputSpec.ofImage Export.inputName r.descriptor r.normalization r.layout with
  | .ok spec => .ok spec
  | .error cause => .error (.ofInput cause)

end Request

/-- Converts a model, and gives the path of its artifact. -/
def convert {m : Type → Type} [Monad m] [FileStore m] [NumberSource] (model : Model Binary32)
    (r : Request) :
    Converting m String := do
  let input ← Converting.during r.name .compile (ofResult r.input)
  let exported ← Exported.ofModel r.name model r.descriptor r.route
  exported.finish input r.preset.options r.labels r.preset.metadata r.outputPath

end NetPack
