import NetPack.Kernel.Activation
import NetPack.Kernel.BatchNorm
import NetPack.Kernel.Conv
import NetPack.Kernel.Linear
import NetPack.Kernel.Pool
import NetPack.Kernel.Softmax

/-!
# Operations

An operation is one step of a network with its hyper-parameters. Its parameters (weights, biases,
statistics) are no part of it and are given in a fixed order:

| operation           | parameters                                 |
|---------------------|--------------------------------------------|
| convolution         | weight `[O, C / g, KH, KW]`, bias `[O]`?   |
| fully connected     | weight `[O, K]`, bias `[O]`?               |
| batch normalisation | scale, shift, mean and variance, `[C]` each |

`Op.inferShape` computes the shape of the result from shapes alone; `Op.execute` computes the
result.
-/

namespace NetPack

/-- An operation with its hyper-parameters. -/
inductive Op (α : Type) where
  | conv (params : ConvParams)
  | linear
  | batchNorm (epsilon : α)
  | activation (kind : Activation)
  | maxPool (params : PoolParams)
  | globalAvgPool
  | flatten
  | softmax
deriving DecidableEq, Inhabited

/-- The least and the greatest number of parameters. -/
structure Arity where
  least : Nat
  greatest : Nat
deriving DecidableEq

namespace Arity

/-- Is the number of parameters allowed? -/
def allows (a : Arity) (n : Nat) : Bool := a.least ≤ n && n ≤ a.greatest

/-- The text of both bounds. -/
def text (a : Arity) : String := s!"{a.least}..={a.greatest}"

end Arity

namespace Op

variable {α : Type}

/-- The name used in every text. -/
def label : Op α → String
  | conv _ => "conv2d"
  | linear => "linear"
  | batchNorm _ => "batch_norm"
  | activation kind => kind.name
  | maxPool _ => "max_pool2d"
  | globalAvgPool => "global_avg_pool"
  | flatten => "flatten"
  | softmax => "softmax"

/-- How many parameters the operation takes. -/
def arity : Op α → Arity
  | conv _ => ⟨1, 2⟩
  | linear => ⟨1, 2⟩
  | batchNorm _ => ⟨4, 4⟩
  | _ => ⟨0, 0⟩

/-- The error for a wrong number of parameters. -/
def arityError (op : Op α) (given : Nat) : TensorError :=
  .parameter op.label s!"expects {op.arity.text} parameters, got {given}"

/-- The shape of the result for an input and parameters of the given shapes. -/
def inferShape [Build] (op : Op α) (input : Shape) (params : List Shape) :
    Outcome TensorError Shape :=
  match op, params with
  | conv p, weight :: bias => do
    if bias.length > 1 then Outcome.report (op.arityError params.length)
    let out ← p.outputShape input weight
    if let b :: _ := bias then
      if some (← Outcome.orCrash b.numElements) ≠ out.dim? 1 then
        Outcome.report (.shapes "conv2d (bias)" input b)
    return out
  | linear, weight :: bias => do
    if bias.length > 1 then Outcome.report (op.arityError params.length)
    let mismatch := TensorError.shapes "linear" input weight
    let [n, k] := input.dims | Outcome.report mismatch
    let [o, k'] := weight.dims | Outcome.report mismatch
    if k ≠ k' then Outcome.report mismatch
    if let b :: _ := bias then
      if (← Outcome.orCrash b.numElements) ≠ o then
        Outcome.report (.shapes "linear (bias)" input b)
    return .matrix n o
  | batchNorm _, [gamma, beta, mean, var] => do
    let some channels := input.dim? 1
      | Outcome.report (.shapes "batch_norm (rank < 2)" input gamma)
    if let some stat ← Shape.firstMisfit channels [gamma, beta, mean, var] then
      Outcome.report (.shapes "batch_norm (statistics)" input stat)
    return input
  | activation _, [] => return input
  | softmax, [] =>
    if input.rank = 0 then Outcome.report (.shapes "softmax (scalar input)" input (.vector 1))
    else return input
  | maxPool p, [] => p.outputShape input
  | globalAvgPool, [] =>
    match input.nchw? with
    | some (n, c, _, _) => return ⟨[n, c, 1, 1]⟩
    | none => Outcome.report (.shapes "global_avg_pool (input rank)" input ⟨[0, 0, 0, 0]⟩)
  | flatten, [] => do
    let n :: rest := input.dims
      | Outcome.report (.shapes "flatten (scalar input)" input (.vector 1))
    return .matrix n (← Outcome.orCrash (Shape.product rest))
  | _, _ => Outcome.report (op.arityError params.length)

/-- The result for an input and parameters. -/
def execute [Build] [Scalar α] (op : Op α) (x : Tensor α) (params : List (Tensor α)) :
    Outcome TensorError (Tensor α) :=
  match op, params with
  | conv p, [weight] => Kernel.conv x weight none p
  | conv p, [weight, bias] => Kernel.conv x weight (some bias) p
  | linear, [weight] => Kernel.linear x weight none
  | linear, [weight, bias] => Kernel.linear x weight (some bias)
  | batchNorm epsilon, [gamma, beta, mean, var] =>
    do Kernel.batchNorm x gamma beta mean var epsilon (← Outcome.orCrash (Tensor.zeros x.shape))
  | activation kind, [] => do Kernel.activation kind x (← Outcome.orCrash (Tensor.zeros x.shape))
  | softmax, [] => do Kernel.softmax x (← Outcome.orCrash (Tensor.zeros x.shape))
  | maxPool p, [] => Kernel.maxPool x p
  | globalAvgPool, [] => Kernel.globalAvgPool x
  | flatten, [] => Kernel.flatten x
  | _, _ => Outcome.report (op.arityError params.length)

end Op

end NetPack
