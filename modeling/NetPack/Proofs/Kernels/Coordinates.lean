import NetPack.Proofs.Kernels.Rows

/-!
# Coordinates

An element of a tensor has one coordinate per axis. `Shape.rowMajor` is the position of coordinates
in the list of all elements, for any number of axes: the last axis runs fastest, so the coordinate
of an axis counts blocks of as many elements as the axes behind it have together.

Kernels that treat channels alike find the channel of an element from its position alone. What they
find is the second coordinate, whatever axes stand behind it (`Shape.channel_rowMajor`), and kernels
that work on rows find the rows of the last axis (`Shape.rowMajor_row`).
-/

namespace NetPack

namespace Shape

variable {dims dims' coords coords' : List Nat}

/-- There is one coordinate per axis, and each of them is less than the extent of its axis. -/
def Within (coords dims : List Nat) : Prop := List.Forall₂ (· < ·) coords dims

/-- The row-major position of coordinates. -/
def rowMajor : List Nat → List Nat → Nat
  | _ :: dims, k :: coords => k * Word.product dims + rowMajor dims coords
  | _, _ => 0

theorem rowMajor_lt (h : Within coords dims) : rowMajor dims coords < Word.product dims := by
  induction h with
  | nil => exact Nat.one_pos
  | cons hk _ ih => exact mul_add_lt_mul hk ih

theorem Within.product_pos (h : Within coords dims) : 0 < Word.product dims :=
  Nat.zero_lt_of_lt (rowMajor_lt h)

/-- The coordinates of further axes count the elements of a block. -/
theorem rowMajor_append (h : Within coords dims) :
    rowMajor (dims ++ dims') (coords ++ coords') =
      rowMajor dims coords * Word.product dims' + rowMajor dims' coords' := by
  induction h with
  | nil => simp [rowMajor]
  | cons hk _ ih =>
    simp only [List.cons_append, rowMajor, ih, Word.product_append]
    ring

/-- In the list of all elements the rows of the last axis follow each other. A shape without axes
has one row of one element. -/
theorem rowMajor_row {lead : List Nat} {j : Nat} (h : Within lead dims.dropLast)
    (hj : j < dims.getLast?.getD 1) :
    rowMajor dims (lead ++ [j]) = rowMajor dims.dropLast lead * dims.getLast?.getD 1 + j := by
  rcases List.eq_nil_or_concat dims with rfl | ⟨init, width, rfl⟩
  · obtain rfl := List.forall₂_nil_right_iff.1 h
    obtain rfl := Nat.lt_one_iff.1 hj
    rfl
  · rw [List.concat_eq_append, List.dropLast_concat] at h ⊢
    rw [rowMajor_append h, List.getLast?_concat]
    simp [rowMajor]

theorem product_eq_dropLast (dims : List Nat) :
    Word.product dims = Word.product dims.dropLast * dims.getLast?.getD 1 := by
  rcases List.eq_nil_or_concat dims with rfl | ⟨init, width, rfl⟩
  · rfl
  · rw [List.concat_eq_append, List.dropLast_concat, List.getLast?_concat, Word.product_append]
    simp

variable {n channels inner i c : Nat} {trailing ks : List Nat}

/-- **The channel of an element can be told from its position.** -/
theorem channel_rowMajor [Build] (hcount : product trailing = some inner)
    (h : Within (i :: c :: ks) (n :: channels :: trailing))
    (hword : Word.product (n :: channels :: trailing) < Word.modulus) :
    rowMajor (n :: channels :: trailing) (i :: c :: ks) / Nat.max inner 1 % channels = c := by
  obtain ⟨hi, h'⟩ := List.forall₂_cons.1 h
  obtain ⟨hc, hks⟩ := List.forall₂_cons.1 h'
  -- There is an element, so no extent is zero and the size of a block is not cut to a word.
  have hinner : Nat.max inner 1 = Word.product trailing := by
    refine max_of_product hcount (Within.product_pos hks) (lt_of_le_of_lt ?_ hword)
    rw [Word.product_cons, Word.product_cons, ← Nat.mul_assoc]
    exact Nat.le_mul_of_pos_left _ (Nat.mul_pos (by omega) (by omega))
  have hposition : rowMajor (n :: channels :: trailing) (i :: c :: ks) =
      (i * channels + c) * Word.product trailing + rowMajor trailing ks := by
    simp only [rowMajor, Word.product_cons]
    ring
  rw [hinner, hposition, Tensor.mul_add_div_of_lt (rowMajor_lt hks), Tensor.mul_add_mod_of_lt hc]

end Shape

namespace Tensor

variable {α : Type} [Zero α] {t : Tensor α} {coords : List Nat}

/-- The element at coordinates. -/
def elementAt (t : Tensor α) (coords : List Nat) : α :=
  t.data.getD (Shape.rowMajor t.shape.dims coords) 0

omit [Zero α] in
theorem Exact.rowMajor_lt (ht : t.Exact) (h : Shape.Within coords t.shape.dims) :
    Shape.rowMajor t.shape.dims coords < t.data.size := by
  rw [ht.size_eq]
  exact Shape.rowMajor_lt h

theorem elementAt_eq (h : Shape.rowMajor t.shape.dims coords < t.data.size) :
    t.elementAt coords = t.data[Shape.rowMajor t.shape.dims coords] :=
  (Array.getElem_eq_getD 0).symm

/-- The elements of the row of the last axis that has the given coordinates on all other axes. -/
def rowAt (t : Tensor α) (lead : List Nat) : List α :=
  (List.range (t.shape.last?.getD 1)).map fun j => t.elementAt (lead ++ [j])

/-- The rows come in the order of their coordinates. -/
theorem Exact.getElem?_rows (ht : t.Exact) {lead : List Nat}
    (h : Shape.Within lead t.shape.dims.dropLast) (hwidth : 0 < t.shape.last?.getD 1) :
    (t.rows (t.shape.last?.getD 1))[Shape.rowMajor t.shape.dims.dropLast lead]? =
      some (t.rowAt lead) := by
  have hr := Shape.rowMajor_lt h
  have hsize : t.data.size = Word.product t.shape.dims.dropLast * t.shape.last?.getD 1 := by
    rw [ht.size_eq]
    exact Shape.product_eq_dropLast _
  have hcount : t.data.size / t.shape.last?.getD 1 = Word.product t.shape.dims.dropLast := by
    rw [hsize, Nat.mul_div_cancel _ hwidth]
  rw [rows, List.getElem?_map, hcount, List.getElem?_range hr, Option.map_some,
    Kernel.extract_row (hsize ▸ Nat.mul_le_mul_right _ hr), rowAt]
  refine congrArg some (List.map_congr_left fun j hj => ?_)
  rw [elementAt, Shape.rowMajor_row h (List.mem_range.1 hj)]
  rfl

end Tensor

end NetPack
