import NetPack.Kernel.Window

/-!
# Convolution

`Kernel.conv` slides grouped filters over images. Output channel `o` belongs to a group; it reads
the input channels of that group only. Each output cell starts at the bias of its channel and adds
the products over the filter from left to right: input channels outermost, then rows, then columns.
Rows are only placed if there is a channel, and columns only if a row lies on the image.
-/

namespace NetPack

/-- Hyper-parameters of a convolution. -/
structure ConvParams where
  /-- Step between applications of the filter. -/
  stride : Axes
  /-- Zeros added to each side. -/
  padding : Axes
  /-- Number of channel groups. -/
  groups : Nat
deriving DecidableEq, Inhabited

namespace ConvParams

/-- The shape of the result for images `[N, C, H, W]` and filters `[O, C / groups, KH, KW]`. -/
def outputShape [Build] (p : ConvParams) (input weight : Shape) : Outcome TensorError Shape := do
  let some (n, c, h, w) := input.nchw? | Outcome.report (.shapes "conv2d (input rank)" input weight)
  let some (o, perGroup, kh, kw) := weight.nchw?
    | Outcome.report (.shapes "conv2d (weight rank)" input weight)
  if p.groups = 0 || p.stride.hasZero then
    Outcome.report (.parameter "conv2d"
      s!"stride {p.stride.text} and groups {p.groups} must be non-zero")
  if c % p.groups ≠ 0 || o % p.groups ≠ 0 || c / p.groups ≠ perGroup then
    Outcome.report (.shapes "conv2d (channels)" input weight)
  let (some paddedH, some paddedW) :=
      (Window.padded? p.padding.vertical h, Window.padded? p.padding.horizontal w)
    | Outcome.report (.parameter "conv2d" s!"padding {p.padding.text} is too large")
  if paddedH < kh || paddedW < kw then
    Outcome.report (.shapes "conv2d (kernel larger than input)" input weight)
  let outH ← Outcome.orCrash
    ((Window.mk kh p.stride.vertical p.padding.vertical).positions paddedH)
  let outW ← Outcome.orCrash
    ((Window.mk kw p.stride.horizontal p.padding.horizontal).positions paddedW)
  let out : Shape := ⟨[n, o, outH, outW]⟩
  if (out.numBytes? .f32).isNone then Outcome.report (.overflow out)
  return out

end ConvParams

namespace Kernel

variable {α : Type} [Scalar α]

/-- The sum over one application of a filter: `taps` of rows and columns, on the input channels
`firstChannel`, `firstChannel + 1`, … of image `n`, for the filter of output channel `o`. -/
def convCell (x k : Tensor α) (inDims filterDims : Nat × Nat × Nat)
    (n o firstChannel : Nat) (rows cols : Option (List (Nat × Nat))) (start : α) :
    Outcome TensorError α :=
  let (c, h, w) := inDims
  let (perGroup, kh, kw) := filterDims
  (List.range perGroup).foldlM (fun acc i => do
    (← Outcome.orCrash rows).foldlM (fun acc (ky, iy) => do
      (← Outcome.orCrash cols).foldlM (fun acc (kx, ix) => do
        let a ← x.entry (((n * c + (firstChannel + i)) * h + iy) * w + ix)
        let b ← k.entry (((o * perGroup + i) * kh + ky) * kw + kx)
        return acc + a * b) acc) acc) start

/-- Grouped convolution with an optional bias per output channel. -/
def conv [Build] (x weight : Tensor α) (bias : Option (Tensor α)) (p : ConvParams) :
    Outcome TensorError (Tensor α) := do
  let out ← p.outputShape x.shape weight.shape
  let some (n, c, h, w) := x.shape.nchw? | Outcome.crash
  let some (o, perGroup, kh, kw) := weight.shape.nchw? | Outcome.crash
  let some (_, _, outH, outW) := out.nchw? | Outcome.crash
  if let some b := bias then
    if (← Outcome.orCrash b.shape.numElements) ≠ o then
      Outcome.report (.shapes "conv2d (bias)" (.vector o) b.shape)
  let rowWindow : Window := ⟨kh, p.stride.vertical, p.padding.vertical⟩
  let colWindow : Window := ⟨kw, p.stride.horizontal, p.padding.horizontal⟩
  let data ← Tensor.cells n o outH outW fun image channel oy ox => do
    let start ← match bias with
      | some b => b.entry channel
      | none => pure 0
    let group := channel / (o / p.groups)
    convCell x weight (c, h, w) (perGroup, kh, kw) image channel (group * perGroup)
      (rowWindow.taps? h oy) (colWindow.taps? w ox) start
  return ⟨out, data⟩

end Kernel

end NetPack
