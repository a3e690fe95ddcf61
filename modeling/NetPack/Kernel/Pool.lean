import NetPack.Kernel.Window

/-!
# Pooling and flattening

`Kernel.maxPool` takes the largest cell under each position of a window, `Kernel.globalAvgPool` the
average of each plane, and `Kernel.flatten` joins all axes but the first.
-/

namespace NetPack

/-- Hyper-parameters of a pooling window. -/
structure PoolParams where
  /-- Size of the window. -/
  kernel : Axes
  /-- Step of the window. -/
  stride : Axes
  /-- Cells added to each side, which never win. -/
  padding : Axes
deriving DecidableEq, Inhabited

namespace PoolParams

/-- The shape of the result for images `[N, C, H, W]`. -/
def outputShape [Build] (p : PoolParams) (input : Shape) : Outcome TensorError Shape := do
  let some (n, c, h, w) := input.nchw?
    | Outcome.report (.shapes "max_pool2d (input rank)" input ⟨p.kernel.toList⟩)
  if p.kernel.hasZero || p.stride.hasZero then
    Outcome.report (.parameter "max_pool2d"
      s!"kernel {p.kernel.text} and stride {p.stride.text} must be non-zero")
  let (some paddedH, some paddedW) :=
      (Window.padded? p.padding.vertical h, Window.padded? p.padding.horizontal w)
    | Outcome.report (.parameter "max_pool2d" s!"padding {p.padding.text} is too large")
  if paddedH < p.kernel.vertical || paddedW < p.kernel.horizontal then
    Outcome.report (.shapes "max_pool2d (window larger than input)" input ⟨p.kernel.toList⟩)
  let outH ← Outcome.orCrash
    ((Window.mk p.kernel.vertical p.stride.vertical p.padding.vertical).positions paddedH)
  let outW ← Outcome.orCrash
    ((Window.mk p.kernel.horizontal p.stride.horizontal p.padding.horizontal).positions paddedW)
  let out : Shape := ⟨[n, c, outH, outW]⟩
  if (out.numBytes? .f32).isNone then Outcome.report (.overflow out)
  return out

end PoolParams

namespace Kernel

variable {α : Type} [Scalar α]

/-- The largest cell among `rows` × `cols` of a plane that starts at position `start`. -/
def maxPoolCell (x : Tensor α) (start w : Nat) (rows cols : Option (List (Nat × Nat))) :
    Outcome TensorError α := do
  (← Outcome.orCrash rows).foldlM (fun best (_, iy) => do
    (← Outcome.orCrash cols).foldlM (fun best (_, ix) => do
      return Scalar.max best (← x.entry (start + (iy * w + ix)))) best) Scalar.lowest

/-- Max pooling over each channel on its own. -/
def maxPool [Build] (x : Tensor α) (p : PoolParams) : Outcome TensorError (Tensor α) := do
  let out ← p.outputShape x.shape
  let some (n, c, h, w) := x.shape.nchw? | Outcome.crash
  let some (_, _, outH, outW) := out.nchw? | Outcome.crash
  let rowWindow : Window := ⟨p.kernel.vertical, p.stride.vertical, p.padding.vertical⟩
  let colWindow : Window := ⟨p.kernel.horizontal, p.stride.horizontal, p.padding.horizontal⟩
  let data ← Tensor.cells n c outH outW fun image channel oy ox =>
    maxPoolCell x ((image * c + channel) * h * w) w (rowWindow.taps? h oy) (colWindow.taps? w ox)
  return ⟨out, data⟩

/-- The average of each plane, as a tensor `[N, C, 1, 1]`. -/
def globalAvgPool [Build] (x : Tensor α) : Outcome TensorError (Tensor α) := do
  let some (n, c, h, w) := x.shape.nchw?
    | Outcome.report (.shapes "global_avg_pool (input rank)" x.shape ⟨[0, 0, 0, 0]⟩)
  let area ← Outcome.orCrash (Word.settle (h * w))
  if area = 0 then Outcome.report (.parameter "global_avg_pool" "empty spatial plane")
  let planes := (x.chunks area).take (← Outcome.orCrash (Word.settle (n * c)))
  Tensor.ofArray ⟨[n, c, 1, 1]⟩
    (planes.map fun plane => Scalar.total plane / Scalar.count area).toArray

/-- Joins every axis after the first. -/
def flatten [Build] (x : Tensor α) : Outcome TensorError (Tensor α) := do
  let n :: rest := x.shape.dims
    | Outcome.report (.shapes "flatten (scalar input)" x.shape (.vector 1))
  Tensor.ofArray (.matrix n (← Outcome.orCrash (Shape.product rest))) x.data

end Kernel

end NetPack
