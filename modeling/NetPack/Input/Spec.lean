import NetPack.Graph.Json
import NetPack.Input.Descriptor
import NetPack.Outcome

/-!
# Input specifications

How the runtime feeds a compiled model: with an image, whose pixels are scaled and shifted per
channel, or with a tensor as it is. `InputSpec.preprocess` does to an image what the runtime does.
-/

namespace NetPack

variable {δ : Type} [Document δ]

/-- How a model receives its input. -/
inductive InputSpec where
  /-- An image of bytes: every pixel is multiplied by `scale` and added to the `bias` of its
  channel. -/
  | image (name : String) (shape : Shape) (layout : ColorLayout) (scale : Binary32)
    (bias : List Binary32)
  /-- A tensor that is fed unchanged. -/
  | tensor (name : String) (shape : Shape) (dtype : DType)
deriving DecidableEq, Inhabited

/-- Why an input does not fit. -/
inductive InputError where
  /-- The deviations of a normalisation have to be positive. -/
  | std (values : List Binary32)
  /-- An image has as many channels as its colour layout. -/
  | channels (layout : ColorLayout) (declared : Nat)
  /-- Pixels have the declared shape. -/
  | pixels (expected given : Shape)
deriving DecidableEq

namespace InputSpec

/-- The name of the input. -/
def name : InputSpec → String
  | image name .. => name
  | tensor name .. => name

/-- The declared shape. -/
def shape : InputSpec → Shape
  | image _ shape .. => shape
  | tensor _ shape _ => shape

/-- What is added to a pixel of each colour. -/
def colourBias (n : Normalization) : List Binary32 :=
  (n.mean.toList.zip n.std.toList).map fun (mean, std) => -mean / std

/-- What is added to a pixel of each channel. -/
def channelBias (n : Normalization) : ColorLayout → List Binary32
  | .rgb => colourBias n
  | .bgr => (colourBias n).reverse
  | .grayscale => [Scalar.total (colourBias n) / Scalar.count 3]

/-- An image whose normalisation is part of scale and bias. -/
def ofImage (name : String) (d : Descriptor) (n : Normalization) (layout : ColorLayout) :
    Except InputError InputSpec := do
  if !n.valid then throw (.std n.std.toList)
  if d.channels ≠ layout.channels then throw (.channels layout d.channels)
  return image name d.shape layout (1 / Scalar.count 255) (channelBias n layout)

/-- A plain tensor. -/
def ofTensor (name : String) (d : Descriptor) : InputSpec := tensor name d.shape d.dtype

/-- What the runtime does to its input. The shape of an image has at least two axes, and its pixels
need at least one bias. -/
def preprocess [Build] (spec : InputSpec) (pixels : Tensor Binary32) :
    Outcome InputError (Tensor Binary32) :=
  match spec with
  | tensor .. => return pixels
  | image _ shape _ scale bias => do
    if pixels.shape ≠ shape then Outcome.report (.pixels shape pixels.shape)
    let _ :: _ :: plane := shape.dims | Outcome.crash
    let area := Nat.max (← Outcome.orCrash (Shape.product plane)) 1
    let elements ← pixels.data.toList.zipIdx.mapM fun (v, i) => do
      return v * scale + (← Outcome.entry bias.toArray (i / area % bias.length))
    return { pixels with data := elements.toArray }

/-- The document of a specification. -/
def toJson : InputSpec → Json
  | image name shape layout scale bias =>
    .object [("kind", .string "image"), ("name", .string name), ("shape", shape.toJson),
      ("color_layout", .string layout.name), ("scale", .single scale),
      ("bias", .array (bias.map .single))]
  | tensor name shape dtype =>
    .object [("kind", .string "tensor"), ("name", .string name), ("shape", shape.toJson),
      ("dtype", .string dtype.name)]

/-- Reads a specification. -/
def read : Decoder δ InputSpec := fun d => do
  let (kind, fields) ← Document.tagged "kind" d
  match kind with
  | "image" => do
    let r ← fields.record ["name", "shape", "color_layout", "scale", "bias"]
    return image (← r.required "name" Document.string) (← r.required "shape" Shape.read)
      (← r.required "color_layout" ColorLayout.read) (← r.required "scale" Document.single)
      (← r.required "bias" (Document.list Document.single))
  | "tensor" => do
    let r ← fields.record ["name", "shape", "dtype"]
    return tensor (← r.required "name" Document.string) (← r.required "shape" Shape.read)
      (← r.required "dtype" DType.read)
  | _ => throw (.mismatch "the kind of an input")

end InputSpec

end NetPack
