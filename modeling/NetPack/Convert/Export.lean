import NetPack.Convert.Error
import NetPack.Graph.Validate
import NetPack.Model.Basic

/-!
# Exporting models

`exportGraph` runs a model once on a synthetic input of the declared shape and turns what was
recorded into a valid graph, whose batch axis is dynamic. A branch on activations is frozen to the
side that the synthetic input takes. Where the numbers of this input come from is left open: they
are drawn from a `NumberSource`, which gives the same numbers every time.
-/

namespace NetPack

/-- Where synthetic inputs draw their numbers from. -/
class NumberSource where
  /-- The numbers in the order in which they are drawn. -/
  number : Nat → Binary32

namespace Descriptor

/-- The descriptor of a list of four extents. -/
def ofDims (dims : List Nat) : Except ConvertError Descriptor := do
  let [batch, channels, height, width] := dims | throw (.precondition (.inputRank dims))
  let d : Descriptor := ⟨batch, channels, height, width, .f32⟩
  if dims.contains 0 then throw (.precondition (.zeroDimension d.shape))
  return d

/-- No extent is zero. -/
def check (d : Descriptor) : Except ConvertError Unit :=
  if d.dims.contains 0 then .error (.precondition (.zeroDimension d.shape)) else .ok ()

end Descriptor

namespace Export

/-- The name of the input of an exported graph. -/
def inputName : String := "input"

/-- The name of the output of an exported graph. -/
def outputName : String := "output"

/-- Makes the batch axis of a value dynamic. -/
def batchDynamic (v : ValueInfo) : ValueInfo := v.withDynamicAxis 0

variable [NumberSource]

/-- A tensor of the declared shape with drawn numbers, always the same. -/
def syntheticInput (d : Descriptor) : Option (Tensor Binary32) :=
  Tensor.drawn d.shape NumberSource.number

/-- Records a model on the synthetic input. -/
def recordGraph (model : Model Binary32) (d : Descriptor) :
    Outcome ModelError (Graph Binary32) := do
  let input ← Outcome.orCrash (syntheticInput d)
  let (tracer, x) := Tracer.start model.name inputName input
  let (result, tracer) := (model.forward x).run.run tracer
  let g ← tracer.finish (← result) outputName
  Graph.validate { g with input := batchDynamic g.input, output := batchDynamic g.output }

/-- The valid graph of a model, which has to be in evaluation mode. -/
def exportGraph (model : Model Binary32) (d : Descriptor) :
    Outcome ConvertError (Graph Binary32) := do
  if model.mode ≠ .eval then
    Outcome.report (.precondition (.training model.name model.mode))
  d.check
  Outcome.mapError .ofModel (recordGraph model d)

end Export

end NetPack
