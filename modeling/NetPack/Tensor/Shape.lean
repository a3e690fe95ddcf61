import NetPack.Outcome
import NetPack.Tensor.DType
import NetPack.Word

/-!
# Shapes

A shape is the list of a tensor's extents, outermost first. Its number of elements has two forms,
both of which multiply from the left. `Shape.numElements` does it with the plain operator of the
build, `Shape.numElements?` gives up at the first product that is no word. They agree wherever the
second has a value.
-/

namespace NetPack

/-- The extents of a tensor. -/
structure Shape where
  /-- Extents, outermost first. -/
  dims : List Nat
deriving DecidableEq, Inhabited

namespace Shape

/-- The shape with one axis. -/
def vector (n : Nat) : Shape := ⟨[n]⟩

/-- The shape with two axes. -/
def matrix (rows cols : Nat) : Shape := ⟨[rows, cols]⟩

/-- The number of axes. -/
def rank (s : Shape) : Nat := s.dims.length

/-- The extent of an axis. -/
def dim? (s : Shape) (axis : Nat) : Option Nat := s.dims[axis]?

/-- The extent of the innermost axis. -/
def last? (s : Shape) : Option Nat := s.dims.getLast?

/-- The product of extents as the build computes it. -/
def product [Build] (dims : List Nat) : Option Nat :=
  dims.foldlM (fun acc d => Word.settle (acc * d)) 1

/-- The number of elements as the build computes it. -/
def numElements [Build] (s : Shape) : Option Nat := product s.dims

/-- The first shape whose number of elements is not the given one. -/
def firstMisfit [Build] {ε : Type} (count : Nat) : List Shape → Outcome ε (Option Shape)
  | [] => return none
  | s :: rest => do
    if (← Outcome.orCrash s.numElements) ≠ count then return some s
    firstMisfit count rest

/-- The number of elements, if every product from the left is a word. -/
def numElements? (s : Shape) : Option Nat := s.dims.foldlM Word.mul? 1

/-- The number of bytes of a buffer of this shape, if it is a word. -/
def numBytes? (s : Shape) (t : DType) : Option Nat := do
  Word.mul? (← s.numElements?) t.bytes

/-- Batch size, channels, height and width of a shape with four axes. -/
def nchw? (s : Shape) : Option (Nat × Nat × Nat × Nat) :=
  match s.dims with
  | [n, c, h, w] => some (n, c, h, w)
  | _ => none

/-- A list of numbers in square brackets. -/
def bracketed (ns : List Nat) : String :=
  "[" ++ ", ".intercalate (ns.map Nat.repr) ++ "]"

/-- The text of a shape. -/
def text (s : Shape) : String := bracketed s.dims

theorem foldlM_mul?_eq_some {dims : List Nat} {start n : Nat}
    (h : dims.foldlM Word.mul? start = some n) : n = start * Word.product dims := by
  induction dims generalizing start with
  | nil => simpa [Word.product] using h.symm
  | cons d ds ih =>
    rw [List.foldlM_cons, Option.bind_eq_bind, Option.bind_eq_some_iff] at h
    obtain ⟨m, hm, h⟩ := h
    rw [ih h, ← (Word.mul?_eq_some_iff.1 hm).1, Nat.mul_assoc]
    rfl

theorem foldlM_settle_of_foldlM_mul? [Build] {dims : List Nat} {start n : Nat}
    (h : dims.foldlM Word.mul? start = some n) :
    dims.foldlM (fun acc d => Word.settle (acc * d)) start = some n := by
  induction dims generalizing start with
  | nil => exact h
  | cons d ds ih =>
    rw [List.foldlM_cons, Option.bind_eq_bind, Option.bind_eq_some_iff] at h
    obtain ⟨m, hm, h⟩ := h
    obtain ⟨rfl, hlt⟩ := Word.mul?_eq_some_iff.1 hm
    rw [List.foldlM_cons, Word.settle_of_lt hlt]
    exact ih h

/-- Where every product is a word, both counts of elements agree. -/
theorem numElements_of_numElements? [Build] {s : Shape} {n : Nat} (h : s.numElements? = some n) :
    s.numElements = some n := foldlM_settle_of_foldlM_mul? h

end Shape

end NetPack
