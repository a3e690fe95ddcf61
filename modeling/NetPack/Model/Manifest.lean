import NetPack.Graph.Error
import NetPack.Json.Writer
import NetPack.Op.Json

/-!
# Architecture manifests

A manifest lists the layers of a model in execution order and names the checkpoint tensors that each
of them reads. Hyper-parameters are optional; every layer type takes those that it needs and has
defaults for the others. A layer type that is not known is kept, and is no error before the model
runs.
-/

namespace NetPack

variable {δ : Type} [Document δ]

/-- What a layer does. -/
inductive LayerKind (α : Type) where
  /-- The layer is an operation. -/
  | op (op : Op α)
  /-- The layer does nothing once training is over. -/
  | dropout
  /-- The layer cannot be recorded. -/
  | custom (layerType : String)
deriving DecidableEq

namespace LayerKind

variable {α : Type}

/-- The name used in every text. -/
def label : LayerKind α → String
  | op o => o.label
  | dropout => "dropout"
  | custom layerType => layerType

/-- How many checkpoint tensors the layer reads. -/
def arity : LayerKind α → Arity
  | op o => o.arity
  | dropout => ⟨0, 0⟩
  | custom _ => ⟨0, Word.modulus - 1⟩

end LayerKind

/-- A layer as a manifest lists it. -/
structure LayerSpec where
  /-- The name of the layer. -/
  name : String
  /-- The type, in any mixture of small and capital letters. -/
  layerType : String
  /-- The checkpoint tensors in the order of the layer. -/
  weights : List String
  kernelSize : Option Axes
  stride : Option Axes
  padding : Option Axes
  groups : Option Nat
  /-- Added to the variance in a batch normalisation. -/
  epsilon : Option Binary32
deriving DecidableEq, Inhabited

/-- The architecture of a model. -/
structure Manifest where
  /-- The name of the model. -/
  name : String
  /-- The family that the model belongs to. -/
  architecture : String
  /-- The element type of the checkpoint. -/
  dtype : String
  /-- The layers in execution order. -/
  layers : List LayerSpec
deriving DecidableEq, Inhabited

namespace LayerSpec

/-- Added to the variance where a manifest says nothing: one hundred-thousandth. -/
def defaultEpsilon : Binary32 := ⟨0x3727c5ac⟩

/-- The error of a layer. -/
def fault (l : LayerSpec) (cause : LayerError) : ModelError := .layer l.name cause

/-- What the layer does. -/
def kind (l : LayerSpec) : Except ModelError (LayerKind Binary32) :=
  let none := Axes.mk 0 0
  match Text.lowercase l.layerType with
  | "conv2d" | "conv" =>
    .ok (.op (.conv ⟨l.stride.getD ⟨1, 1⟩, l.padding.getD none, l.groups.getD 1⟩))
  | "linear" | "fc" | "dense" => .ok (.op .linear)
  | "batch_norm" | "batchnorm" | "batchnorm2d" | "bn" =>
    .ok (.op (.batchNorm (l.epsilon.getD defaultEpsilon)))
  | "relu" => .ok (.op (.activation .relu))
  | "relu6" => .ok (.op (.activation .relu6))
  | "sigmoid" => .ok (.op (.activation .sigmoid))
  | "hard_swish" | "hardswish" => .ok (.op (.activation .hardSwish))
  | "max_pool2d" | "maxpool2d" | "maxpool" =>
    match l.kernelSize with
    | some kernel => .ok (.op (.maxPool ⟨kernel, l.stride.getD kernel, l.padding.getD none⟩))
    | Option.none => .error (l.fault .noKernelSize)
  | "adaptive_avg_pool" | "global_avg_pool" | "avgpool" => .ok (.op .globalAvgPool)
  | "flatten" => .ok (.op .flatten)
  | "softmax" => .ok (.op .softmax)
  | "dropout" => .ok .dropout
  | _ => .ok (.custom l.layerType)

def toJson (l : LayerSpec) : Json :=
  Json.members
    [("name", some (.string l.name)), ("layer_type", some (.string l.layerType)),
     ("weights", some (.strings l.weights)), ("kernel_size", l.kernelSize.map Axes.toJson),
     ("stride", l.stride.map Axes.toJson), ("padding", l.padding.map Axes.toJson),
     ("groups", l.groups.map .nat), ("eps", l.epsilon.map .single)]

def read : Decoder δ LayerSpec := fun d => do
  let r ← Document.record
    ["name", "layer_type", "weights", "kernel_size", "stride", "padding", "groups", "eps"] d
  return {
    name := ← r.required "name" Document.string
    layerType := ← r.required "layer_type" Document.string
    weights := ← r.withDefault "weights" (Document.list Document.string) []
    kernelSize := ← r.optional "kernel_size" Axes.read
    stride := ← r.optional "stride" Axes.read
    padding := ← r.optional "padding" Axes.read
    groups := ← r.optional "groups" Document.nat
    epsilon := ← r.optional "eps" Document.single }

end LayerSpec

namespace Manifest

def toJson (m : Manifest) : Json :=
  .object [("name", .string m.name), ("architecture", .string m.architecture),
    ("dtype", .string m.dtype), ("layers", .array (m.layers.map LayerSpec.toJson))]

def read : Decoder δ Manifest := fun d => do
  let r ← Document.record ["name", "architecture", "dtype", "layers"] d
  return ⟨← r.required "name" Document.string, ← r.withDefault "architecture" Document.string "",
    ← r.withDefault "dtype" Document.string "f32",
    ← r.required "layers" (Document.list LayerSpec.read)⟩

/-- Reads a manifest from its text. -/
def parse (text : String) : Except ModelError Manifest :=
  match Json.decode read text with
  | .ok m => .ok m
  | .error cause => .error (.json cause)

/-- Checks a layer; `seen` holds the names of the layers before it. -/
def checkLayer (seen : List String) (l : LayerSpec) : Except ModelError (List String) := do
  if seen.contains l.name then throw (l.fault .duplicateLayer)
  let kind ← l.kind
  if !kind.arity.allows l.weights.length then
    throw (l.fault (.listedWeights kind.label kind.arity l.weights.length))
  return l.name :: seen

/-- Checks that a manifest is consistent: it has layers, single-precision weights, different names
and as many weights per layer as its type takes. -/
def validate (m : Manifest) : Except ModelError Unit := do
  if m.layers.isEmpty then throw (.graph .noLayers)
  if DType.ofLooseName? m.dtype ≠ some .f32 then throw (.layer m.name (.checkpointType m.dtype))
  let _ ← m.layers.foldlM checkLayer []

end Manifest

end NetPack
