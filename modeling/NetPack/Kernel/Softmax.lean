import NetPack.Kernel.Window

/-!
# Softmax

`Kernel.softmax` turns each row of the last axis into weights that add up to one. The largest score
of a row is subtracted first, so that the exponentials stay finite.
-/

namespace NetPack

namespace Kernel

variable {α : Type} [Scalar α]

/-- The weights of one row of scores. -/
def softmaxRow (scores : List α) : List α :=
  let top := scores.foldl Scalar.max Scalar.lowest
  let weights := scores.map fun s => Scalar.exp (s - top)
  let total := Scalar.total weights
  if Scalar.lt 0 total then weights.map (· / total) else weights

/-- Softmax along the last axis, into a tensor of the shape of `output`; a tensor without axes is
one row of one element. Rows of no element are left alone, and so is what follows the full rows. -/
def softmax (x output : Tensor α) : Except TensorError (Tensor α) :=
  if x.shape ≠ output.shape then .error (.shapes "softmax" x.shape output.shape)
  else
    let width := x.shape.last?.getD 1
    if width = 0 then .ok output
    else
      let weights := ((x.rows width).flatMap softmaxRow).toArray
      .ok { output with data := weights ++ output.data.extract weights.size output.data.size }

end Kernel

end NetPack
