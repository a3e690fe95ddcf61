import NetPack.Kernel.Window

/-!
# Fully connected layer

`Kernel.linear` multiplies rows of inputs `[N, K]` with rows of weights `[O, K]`. Rows without
elements cannot be told apart, so `K = 0` is a crash, and so is adding a bias to rows of no output.
The rows are those that the operands hold, so operands that hold fewer than their shapes say give
fewer products than a result of shape `[N, O]` takes.
-/

namespace NetPack

namespace Kernel

variable {α : Type} [Scalar α]

/-- The dot product of two rows, from left to right and from the negative zero on. -/
def dot (sample unit : List α) : α :=
  (sample.zip unit).foldl (fun acc p => acc + p.1 * p.2) (-0)

/-- `x` times the transpose of `weight`, plus a bias per output. -/
def linear [Build] (x weight : Tensor α) (bias : Option (Tensor α)) :
    Outcome TensorError (Tensor α) := do
  let mismatch := TensorError.shapes "linear" x.shape weight.shape
  let [n, k] := x.shape.dims | Outcome.report mismatch
  let [o, k'] := weight.shape.dims | Outcome.report mismatch
  if k ≠ k' then Outcome.report mismatch
  -- The size of the result is computed first, to make room for it.
  let _ ← Outcome.orCrash (Word.settle (n * o))
  if k = 0 then Outcome.crash
  let units := weight.rows k
  let products := ((x.rows k).take n).flatMap fun sample => units.map (dot sample)
  let out ← Tensor.ofArray (.matrix n o) products.toArray
  match bias with
  | none => return out
  | some b =>
    if (← Outcome.orCrash b.shape.numElements) ≠ o then
      Outcome.report (.shapes "linear (bias)" (.vector o) b.shape)
    if o = 0 then Outcome.crash
    let sums := out.data.mapIdx fun i y =>
      match b.data[i % o]? with
      | some c => y + c
      | none => y
    return { out with data := sums }

end Kernel

end NetPack
