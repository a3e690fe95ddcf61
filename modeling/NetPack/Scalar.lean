/-!
# The numbers a tensor holds

Kernels, operations and graphs are written once for every type of number that has the operations
of `Scalar`. Programs run them on `Binary32`; statements about exact arithmetic read the same
definitions over a field.
-/

namespace NetPack

/-- The operations that kernels use on tensor elements. -/
class Scalar (α : Type) extends Zero α, One α, Add α, Sub α, Mul α, Div α, Neg α where
  /-- The square root. -/
  sqrt : α → α
  /-- The exponential. -/
  exp : α → α
  /-- The larger of two numbers. -/
  max : α → α → α
  /-- The start of a search for a maximum: no number is below it. -/
  lowest : α
  /-- A count as a number. -/
  count : Nat → α
  /-- The strict order. -/
  lt : α → α → Bool
  /-- Numerical equality, which need not be reflexive. -/
  same : α → α → Bool

namespace Scalar

variable {α : Type} [Scalar α]

/-- The nearest number between `lo` and `hi`; a value that compares with neither stays. -/
def clamp (lo hi x : α) : α :=
  if lt x lo then lo else if lt hi x then hi else x

/-- Adds up from left to right. The start is the negative zero: adding it to a number gives that
number, even if it is a zero with a sign. -/
def total (xs : List α) : α := xs.foldl (· + ·) (-0)

end Scalar

end NetPack
