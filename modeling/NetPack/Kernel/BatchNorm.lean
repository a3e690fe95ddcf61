import NetPack.Kernel.Window

/-!
# Batch normalisation

`Kernel.batchNorm` normalises every channel with statistics that were fixed beforehand. The channel
of an element is found from its row-major position: the second coordinate of `[N, C, …]`.
-/

namespace NetPack

namespace Kernel

variable {α : Type} [Scalar α]

/-- One element `x` of a channel with the given statistics. -/
def batchNormCell (gamma beta mean var epsilon x : α) : α :=
  gamma * (x - mean) * (1 / Scalar.sqrt (var + epsilon)) + beta

/-- Normalises `x` into a tensor of the shape of `output`. All checks come before the first
element is written. -/
def batchNorm [Build] (x gamma beta mean var : Tensor α) (epsilon : α) (output : Tensor α) :
    Outcome TensorError (Tensor α) := do
  if x.shape ≠ output.shape then
    Outcome.report (.shapes "batch_norm (input vs output)" x.shape output.shape)
  let _ :: channels :: trailing := x.shape.dims
    | Outcome.report (.shapes "batch_norm (rank < 2)" x.shape gamma.shape)
  let stats := [gamma, beta, mean, var].map (·.shape)
  if let some stat ← Shape.firstMisfit channels stats then
    Outcome.report (.shapes "batch_norm (statistics)" x.shape stat)
  let inner := Nat.max (← Outcome.orCrash (Shape.product trailing)) 1
  let elements ← x.data.toList.zipIdx.mapM fun (v, i) => do
    let channel := i / inner % channels
    return batchNormCell (← gamma.entry channel) (← beta.entry channel) (← mean.entry channel)
      (← var.entry channel) epsilon v
  return { output with data := elements.toArray }

end Kernel

end NetPack
