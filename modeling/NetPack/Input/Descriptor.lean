import NetPack.Document
import NetPack.Json.Writer
import NetPack.Tensor.Basic

/-!
# Descriptors of image inputs

What a conversion has to be told about the input of a model: its shape, the element type, the order
of the colours and the statistics that the pixels were normalised with during training.
-/

namespace NetPack

variable {δ : Type} [Document δ]

namespace DType

/-- Reads the name of an element type. -/
def read : Decoder δ DType := Document.name ofName? "an element type"

end DType

/-- The declared shape and element type of an input. -/
structure Descriptor where
  batch : Nat
  channels : Nat
  height : Nat
  width : Nat
  dtype : DType
deriving DecidableEq, Inhabited

namespace Descriptor

/-- The extents, outermost first. -/
def dims (d : Descriptor) : List Nat := [d.batch, d.channels, d.height, d.width]

/-- The declared shape. -/
def shape (d : Descriptor) : Shape := ⟨d.dims⟩

/-- The shape and the element type on one line. -/
def text (d : Descriptor) : String :=
  "x".intercalate (d.dims.map Nat.repr) ++ s!" ({d.dtype.name})"

/-- The document of a descriptor. -/
def toJson (d : Descriptor) : Json :=
  .object [("batch", .nat d.batch), ("channels", .nat d.channels), ("height", .nat d.height),
    ("width", .nat d.width), ("dtype", .string d.dtype.name)]

/-- Reads a descriptor. -/
def read : Decoder δ Descriptor := fun d => do
  let r ← Document.record ["batch", "channels", "height", "width", "dtype"] d
  return ⟨← r.required "batch" Document.nat, ← r.required "channels" Document.nat,
    ← r.required "height" Document.nat, ← r.required "width" Document.nat,
    ← r.withDefault "dtype" DType.read .f32⟩

end Descriptor

/-- The statistics of the three colours, in the order red, green, blue. -/
structure Colours (α : Type) where
  red : α
  green : α
  blue : α
deriving DecidableEq, Inhabited

namespace Colours

variable {α : Type}

/-- The three values in their order. -/
def toList (c : Colours α) : List α := [c.red, c.green, c.blue]

/-- Reads three numbers. -/
def read : Decoder δ (Colours Binary32) := fun d => do
  let (red, green, blue) ← Document.triple Document.single d
  return ⟨red, green, blue⟩

end Colours

/-- The normalisation that a model was trained with: mean and standard deviation per colour. -/
structure Normalization where
  mean : Colours Binary32
  std : Colours Binary32
deriving DecidableEq

namespace Normalization

/-- The statistics of the usual training images: means 0.485, 0.456, 0.406 and deviations 0.229,
0.224, 0.225. -/
def standard : Normalization where
  mean := ⟨⟨0x3ef851ec⟩, ⟨0x3ee978d5⟩, ⟨0x3ecfdf3b⟩⟩
  std := ⟨⟨0x3e6a7efa⟩, ⟨0x3e656042⟩, ⟨0x3e666666⟩⟩

instance : Inhabited Normalization := ⟨standard⟩

/-- A deviation has to be finite and positive. -/
def validStd (s : Binary32) : Bool := s.isFinite && Scalar.lt 0 s

/-- All deviations are finite and positive. -/
def valid (n : Normalization) : Bool := n.std.toList.all validStd

/-- Numerically equal statistics. -/
def same (n m : Normalization) : Bool :=
  let agree (a b : Colours Binary32) := (a.toList.zip b.toList).all fun (x, y) => Scalar.same x y
  agree n.mean m.mean && agree n.std m.std

/-- Reads a normalisation. -/
def read : Decoder δ Normalization := fun d => do
  let r ← Document.record ["mean", "std"] d
  return ⟨← r.required "mean" Colours.read, ← r.required "std" Colours.read⟩

end Normalization

/-- The order of the channels of an image. -/
inductive ColorLayout where
  | rgb
  | bgr
  | grayscale
deriving DecidableEq, Inhabited

namespace ColorLayout

/-- The name in documents. -/
def name : ColorLayout → String
  | rgb => "rgb"
  | bgr => "bgr"
  | grayscale => "grayscale"

/-- The name in messages and descriptions. -/
def title : ColorLayout → String
  | rgb => "Rgb"
  | bgr => "Bgr"
  | grayscale => "Grayscale"

/-- All layouts. -/
def all : List ColorLayout := [rgb, bgr, grayscale]

/-- The layout of a name. -/
def ofName? (s : String) : Option ColorLayout := all.find? fun l => l.name == s

/-- Reads the name of a layout. -/
def read : Decoder δ ColorLayout := Document.name ofName? "a color layout"

/-- The number of channels. -/
def channels : ColorLayout → Nat
  | grayscale => 1
  | _ => 3

end ColorLayout

end NetPack
