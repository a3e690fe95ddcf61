import NetPack.Convert.Error
import NetPack.Graph.Validate

/-!
# Folding batch normalisations into convolutions

At inference a batch normalisation is an affine map of every channel. Where it directly follows a
convolution and nothing else reads what the convolution produces, both are one convolution with
other weights: with the factor `s = scale / sqrt (variance + epsilon)` of a channel, its weights are
multiplied by `s` and its bias `b` becomes `(b - mean) * s + shift`.

`foldBatchNorms` folds every such pair in one pass over the nodes, drops the parameters that are no
longer read and checks the result.
-/

namespace NetPack

namespace Graph

variable {α : Type}

/-- What is added to the variance, if the operation is a batch normalisation. -/
def epsilonOf? : Op α → Option α
  | .batchNorm epsilon => some epsilon
  | _ => none

/-- Is the operation a convolution? -/
def isConv : Op α → Bool
  | .conv _ => true
  | _ => false

/-- How many nodes read a value. -/
def numReaders (nodes : List (Node α)) (value : String) : Nat :=
  nodes.countP fun n => n.input == value

/-- What is added to the variance, if two neighbouring nodes can be folded: a convolution whose
value is read once, by the batch normalisation after it, and is not the output of the graph. -/
def foldable? (g : Graph α) (conv norm : Node α) : Option α :=
  if isConv conv.op && conv.output != g.output.name && numReaders g.nodes conv.output == 1 &&
      norm.input == conv.output then epsilonOf? norm.op
  else none

/-- The name of a folded weight. -/
def foldedWeight (conv : Node α) : String := conv.name ++ ".folded.weight"

/-- The name of a folded bias. -/
def foldedBias (conv : Node α) : String := conv.name ++ ".folded.bias"

variable [Scalar α]

/-- The factor and the new bias of a channel. -/
def foldChannel (epsilon : α) (gamma beta mean var : Tensor α) (bias : Option (Tensor α))
    (channel : Nat) : Outcome ConvertError (α × α) := do
  let variance ← Outcome.entry var.data channel
  let factor := (← Outcome.entry gamma.data channel) / Scalar.sqrt (variance + epsilon)
  let b ←
    match bias with
    | some t => Outcome.entry t.data channel
    | none => pure 0
  let m ← Outcome.entry mean.data channel
  return (factor, (b - m) * factor + (← Outcome.entry beta.data channel))

/-- Multiplies the elements of every channel, which lie one after the other, by its factor. The
weight has `count` elements. -/
def scaleChannels (factors : Array α) (count : Nat) (weight : Tensor α) : Tensor α :=
  let area := count / Nat.max factors.size 1
  { weight with data := weight.data.mapIdx fun i w =>
      match factors[i / area]? with
      | some factor => w * factor
      | none => w }

/-- The parameter at a position of a node. -/
def paramAt? (params : Table (Tensor α)) (n : Node α) (i : Nat) : Option (Tensor α) :=
  n.params[i]?.bind params.find?

/-- Folds a batch normalisation into the convolution before it. -/
def foldPair [Build] (epsilon : α) (params : Table (Tensor α)) (conv norm : Node α) :
    Outcome ConvertError (Node α × Table (Tensor α)) := do
  let incomplete := ConvertError.malformed (.incomplete conv.name norm.name)
  let some weight := paramAt? params conv 0 | Outcome.report incomplete
  let some gamma := paramAt? params norm 0 | Outcome.report incomplete
  let some beta := paramAt? params norm 1 | Outcome.report incomplete
  let some mean := paramAt? params norm 2 | Outcome.report incomplete
  let some var := paramAt? params norm 3 | Outcome.report incomplete
  let channels := (weight.shape.dim? 0).getD 0
  let count ← Outcome.orCrash weight.shape.numElements
  let folded ← (List.range channels).mapM
    (foldChannel epsilon gamma beta mean var (paramAt? params conv 1))
  let scaled := scaleChannels (folded.map (·.1)).toArray count weight
  match Tensor.ofArray (.vector channels) (folded.map (·.2)).toArray with
  | .error cause => Outcome.report (.shape (.bias cause))
  | .ok bias =>
    let node := { conv with
      params := [foldedWeight conv, foldedBias conv]
      output := norm.output
      outputShape := norm.outputShape }
    return (node, (params.insert (foldedWeight conv) scaled).insert (foldedBias conv) bias)

/-- Nodes after folding, with the parameters and the number of folds. -/
structure Folded (α : Type) where
  nodes : List (Node α)
  params : Table (Tensor α)
  count : Nat

/-- Folds the pairs in a list of nodes of a graph from left to right. -/
def foldNodes [Build] (g : Graph α) : Table (Tensor α) → List (Node α) →
    Outcome ConvertError (Folded α)
  | params, [] => return ⟨[], params, 0⟩
  | params, [last] => return ⟨[last], params, 0⟩
  | params, conv :: norm :: rest =>
    match foldable? g conv norm with
    | some epsilon => do
      let (node, params) ← foldPair epsilon params conv norm
      let f ← foldNodes g params rest
      return ⟨node :: f.nodes, f.params, f.count + 1⟩
    | none => do
      let f ← foldNodes g params (norm :: rest)
      return { f with nodes := conv :: f.nodes }

/-- Folds every batch normalisation that can be folded, and counts them. -/
def foldBatchNorms [Build] (g : Graph α) : Outcome ConvertError (Graph α × Nat) := do
  let f ← foldNodes g g.params g.nodes
  let used := f.params.filter fun name _ => f.nodes.any fun n => n.params.contains name
  let folded ← Outcome.mapError .ofModel
    (Graph.validate { g with nodes := f.nodes, params := used })
  return (folded, f.count)

end Graph

end NetPack
