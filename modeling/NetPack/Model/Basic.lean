import NetPack.Model.Manifest
import NetPack.Trace

/-!
# Models

A model is something that runs its forward pass through a tracer. `SequentialModel` applies the
layers of a manifest one after another. A model that was just built is in training mode; it has to
be put into evaluation mode before it is exported.
-/

namespace NetPack

/-- Whether a model is set up for training or for evaluation. -/
inductive Mode where
  | train
  | eval
deriving DecidableEq, Inhabited

namespace Mode

/-- The name used in every text. -/
def name : Mode → String
  | train => "train"
  | eval => "eval"

end Mode

/-- Anything that can be recorded. -/
structure Model (α : Type) where
  /-- The name of the model. -/
  name : String
  /-- What the model is set up for. -/
  mode : Mode
  /-- The forward pass. -/
  forward : Traced α → Recording α (Traced α)

/-- A layer with its weights. -/
structure Layer (α : Type) where
  /-- The name of the layer. -/
  name : String
  /-- What the layer does. -/
  kind : LayerKind α
  /-- The weights by name, in the order of the layer. -/
  weights : List (String × Tensor α)

namespace Layer

variable {α : Type}

/-- A layer with the given weights, if it takes that many. -/
def make (name : String) (kind : LayerKind α) (weights : List (String × Tensor α)) :
    Except ModelError (Layer α) :=
  if kind.arity.allows weights.length then .ok ⟨name, kind, weights⟩
  else .error (.layer name (.givenWeights kind.label weights.length))

/-- The number of scalars in the weights. -/
def numParameters (l : Layer α) : Nat := Word.sum (l.weights.map fun w => w.2.data.size)

/-- A layer on one line. -/
def describe (name : String) (kind : LayerKind α) (weights : Nat) : String :=
  s!"{name} ({kind.label}), {weights} weight tensors"

/-- The layer on one line. -/
def summary (l : Layer α) : String := describe l.name l.kind l.weights.length

/-- Records the layer; one that does nothing leaves no node. -/
def forward [Scalar α] (l : Layer α) (x : Traced α) : Recording α (Traced α) :=
  match l.kind with
  | .op op => Tracer.record l.name op x l.weights
  | .dropout => return x
  | .custom layerType => Tracer.attempt (Outcome.report (.unsupported l.name layerType))

end Layer

/-- A model made of layers that are applied one after another. -/
structure SequentialModel (α : Type) where
  /-- The name of the model. -/
  name : String
  /-- The layers in execution order. -/
  layers : List (Layer α)
  /-- What the model is set up for. -/
  mode : Mode

namespace SequentialModel

variable {α : Type}

/-- The number of scalars in all weights. -/
def numParameters (m : SequentialModel α) : Nat :=
  Word.sum (m.layers.map Layer.numParameters)

/-- The forward pass. -/
def forward [Scalar α] (m : SequentialModel α) (x : Traced α) : Recording α (Traced α) :=
  m.layers.foldlM (fun x l => l.forward x) x

/-- The model as something that can be recorded. -/
def toModel [Scalar α] (m : SequentialModel α) : Model α := ⟨m.name, m.mode, m.forward⟩

/-- The named weights of a layer. -/
def layerWeights (weights : Table (Tensor α)) (names : List String) :
    Except ModelError (List (String × Tensor α)) :=
  names.mapM fun name =>
    match weights.find? name with
    | some t => .ok (name, t)
    | none => .error (.weightNotFound name)

/-- The model of a manifest, in evaluation mode. -/
def build (m : Manifest) (weights : Table (Tensor Binary32)) :
    Except ModelError (SequentialModel Binary32) := do
  m.validate
  let layers ← m.layers.mapM fun l => do
    let kind ← l.kind
    Layer.make l.name kind (← layerWeights weights l.weights)
  return ⟨m.name, layers, .eval⟩

end SequentialModel

end NetPack
