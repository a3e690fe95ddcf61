import NetPack.Tensor.Basic

/-!
# Sliding windows

A convolution and a pooling both move a window over an image whose border is padded. `Window` places
it along one axis; `Window.taps` lists, for one position of the window, the cells of the window that
lie on the image, each with the row or column of the image that it meets. Padding is never met.

The place of a cell is taken relative to the padding, as a difference of signed words. A place of
`2 ^ 63` or more is negative as a signed word, so that the difference wraps around although its
exact value fits; `Window.taps?` breaks off there in a checked build.
-/

namespace NetPack

/-- A number for the vertical axis and one for the horizontal axis. -/
structure Axes where
  /-- Along the height. -/
  vertical : Nat
  /-- Along the width. -/
  horizontal : Nat
deriving DecidableEq, Inhabited

namespace Axes

/-- Both numbers, the vertical one first. -/
def toList (a : Axes) : List Nat := [a.vertical, a.horizontal]

/-- The text of both numbers. -/
def text (a : Axes) : String := Shape.bracketed a.toList

/-- One of the numbers is zero. -/
def hasZero (a : Axes) : Bool := a.vertical == 0 || a.horizontal == 0

end Axes

/-- The placement of a window along one axis. -/
structure Window where
  /-- Cells of the window. -/
  size : Nat
  /-- Cells between two positions. -/
  stride : Nat
  /-- Cells added at each end of the axis. -/
  padding : Nat

namespace Window

/-- The length of the axis with its padding, if it is a word. -/
def padded? (padding extent : Nat) : Option Nat := do
  Word.add? (← Word.mul? padding 2) extent

/-- The number of positions along an axis of the given padded length. -/
def positions [Build] (w : Window) (padded : Nat) : Option Nat :=
  Word.settle ((padded - w.size) / w.stride + 1)

/-- The cells of the window that lie on the axis when the window is at position `pos`: pairs of
the cell and the place where it lies. -/
def taps (w : Window) (extent pos : Nat) : List (Nat × Nat) :=
  (List.range w.size).filterMap fun k =>
    let place := pos * w.stride + k
    if w.padding ≤ place ∧ place - w.padding < extent then some (k, place - w.padding) else none

/-- Does the difference of a place and the padding wrap around as a signed word? -/
def wrapsAt (w : Window) (place : Nat) : Bool :=
  Word.signBit ≤ place && place < Word.signBit + w.padding

/-- The cells of the window that lie on the axis, unless the build breaks off while it places
them. -/
def taps? [Build] (w : Window) (extent pos : Nat) : Option (List (Nat × Nat)) :=
  if Build.checks && (List.range w.size).any fun k => w.wrapsAt (pos * w.stride + k) then none
  else some (w.taps extent pos)

theorem mem_taps {w : Window} {extent pos k i : Nat} :
    (k, i) ∈ w.taps extent pos ↔
      k < w.size ∧ i < extent ∧ pos * w.stride + k = i + w.padding := by
  simp only [taps, List.mem_filterMap, List.mem_range, Option.ite_none_right_eq_some,
    Option.some.injEq, Prod.mk.injEq]
  constructor
  · rintro ⟨_, hk, ⟨h₁, h₂⟩, rfl, rfl⟩
    exact ⟨hk, h₂, by omega⟩
  · rintro ⟨hk, hi, h⟩
    exact ⟨k, hk, ⟨by omega, by omega⟩, rfl, by omega⟩

end Window

namespace Tensor

variable {α ε : Type}

/-- The elements of a tensor with four axes, computed cell by cell in row-major order. -/
def cells (n c h w : Nat) (cell : Nat → Nat → Nat → Nat → Outcome ε α) :
    Outcome ε (Array α) := do
  let elements ← (List.range (n * c * h * w)).mapM fun i =>
    cell (i / (c * h * w)) (i / (h * w) % c) (i / w % h) (i % w)
  return elements.toArray

/-- The full rows of the given width, in order. -/
def rows (t : Tensor α) (width : Nat) : List (List α) :=
  (List.range (t.data.size / width)).map fun r =>
    (t.data.extract (r * width) ((r + 1) * width)).toList

/-- All rows of the given width, in order; the last one may be shorter. -/
def chunks (t : Tensor α) (width : Nat) : List (List α) :=
  (List.range ((t.data.size + width - 1) / width)).map fun r =>
    (t.data.extract (r * width) ((r + 1) * width)).toList

end Tensor

end NetPack
