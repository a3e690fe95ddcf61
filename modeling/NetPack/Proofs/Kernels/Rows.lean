import NetPack.Kernel.Activation
import NetPack.Kernel.Linear
import NetPack.Kernel.Softmax
import NetPack.Proofs.Kernels.Cells

/-!
# Fully connected layers, activations and softmax

A fully connected layer multiplies every row of its input with every row of its weight.
`Kernel.rowProducts` are these products and `Kernel.biased` adds the bias to them;
`Kernel.linear_eq_ok` says when the layer has a result, and that this is it.

The kernels that work on rows or on single elements have a result for well-formed tensors whose
shapes go together (`Kernel.exists_linear`, `Kernel.activation_eq_ok`, `Kernel.exists_softmax`).
-/

namespace NetPack

namespace Kernel

variable {α : Type} {x weight output y : Tensor α} {bias : Option (Tensor α)} {n k o : Nat}

/-! ### Rows -/

theorem length_rows (width : Nat) : (x.rows width).length = x.data.size / width := by
  simp [Tensor.rows]

theorem length_of_mem_rows {width : Nat} {row : List α} (h : row ∈ x.rows width) :
    row.length = width := by
  obtain ⟨r, hr, rfl⟩ := List.mem_map.1 h
  have hle : (r + 1) * width ≤ x.data.size :=
    (Nat.mul_le_mul_right _ (List.mem_range.1 hr)).trans (Nat.div_mul_le_self _ _)
  simp only [Array.length_toList, Array.size_extract, Nat.min_eq_left hle]
  rw [Nat.succ_mul, Nat.add_sub_cancel_left]

/-- A matrix has as many rows as its shape says. -/
theorem length_rows_matrix (hx : x.shape = .matrix n k)
    (hxs : x.data.size = Word.product x.shape.dims) (hk : k ≠ 0) : (x.rows k).length = n := by
  rw [length_rows, hxs, hx, Shape.matrix]
  simp [Nat.mul_div_cancel _ (Nat.pos_of_ne_zero hk)]

/-- The elements of a full row. -/
theorem extract_row [Zero α] {a : Array α} {r width : Nat} (h : (r + 1) * width ≤ a.size) :
    (a.extract (r * width) ((r + 1) * width)).toList =
      (List.range width).map fun j => a.getD (r * width + j) 0 := by
  have hlen : (a.extract (r * width) ((r + 1) * width)).toList.length = width := by
    rw [Array.length_toList, Array.size_extract, Nat.min_eq_left h, Nat.succ_mul,
      Nat.add_sub_cancel_left]
  refine List.ext_getElem (by rw [hlen, List.length_map, List.length_range]) fun j hj _ => ?_
  rw [Array.getElem_toList, Array.getElem_extract, Array.getElem_eq_getD 0, List.getElem_map,
    List.getElem_range]

/-! ### Fully connected layers -/

variable [Scalar α]

/-- The products of the first `n` rows of the input with all rows of the weight. -/
def rowProducts (x weight : Tensor α) (n k : Nat) : List α :=
  ((x.rows k).take n).flatMap fun sample => (weight.rows k).map (dot sample)

/-- The bias of each column, added to a matrix with `o` columns. -/
def biased (bias : Option (Tensor α)) (o : Nat) (products : Array α) : Array α :=
  match bias with
  | none => products
  | some b => products.mapIdx fun i y =>
      match b.data[i % o]? with
      | some c => y + c
      | none => y

/-- The operands are `n` rows of `k` numbers and `o` rows of weights whose products fill a matrix,
and the bias, if there is one, has a number for each of its columns. -/
structure IsLinear [Build] (x weight : Tensor α) (bias : Option (Tensor α)) (n k o : Nat) :
    Prop where
  rows : x.shape = .matrix n k
  weights : weight.shape = .matrix o k
  inner : k ≠ 0
  biases : ∀ b ∈ bias, b.shape.numElements = some o ∧ o ≠ 0
  wellFormed : Tensor.WellFormed ⟨.matrix n o, (rowProducts x weight n k).toArray⟩

theorem size_biased (products : Array α) : (biased bias o products).size = products.size := by
  cases bias <;> simp [biased]

omit [Scalar α] in
/-- The size of a matrix that is there is a word. -/
theorem lt_of_wellFormed_matrix {data : Array α} (h : Tensor.WellFormed ⟨.matrix n o, data⟩) :
    n * o < Word.modulus := by
  simpa [Shape.matrix] using h.product_lt

namespace IsLinear

variable [Build] (h : IsLinear x weight bias n k o)

include h

theorem linear_eq :
    linear x weight bias = .ok ⟨.matrix n o, biased bias o (rowProducts x weight n k).toArray⟩ := by
  have hx : x.shape.dims = [n, k] := congrArg Shape.dims h.rows
  have hw : weight.shape.dims = [o, k] := congrArg Shape.dims h.weights
  have hroom := Word.settle_of_lt (lt_of_wellFormed_matrix h.wellFormed)
  have hout := Tensor.ofArray_eq_ok_iff.2 ⟨rfl, h.wellFormed⟩
  rw [rowProducts] at hout
  simp only [linear, hx, hw, ne_eq, not_true_eq_false, if_false, hroom, Outcome.orCrash_some,
    Outcome.ok_bind, if_neg h.inner, hout, Outcome.liftM_eq_ofExcept, Outcome.ofExcept_ok]
  cases bias with
  | none => rfl
  | some b =>
    obtain ⟨hb, ho⟩ := h.biases b rfl
    simp only [hb, Outcome.orCrash_some, Outcome.ok_bind, not_true_eq_false, if_false, if_neg ho]
    rfl

theorem wellFormed_biased :
    Tensor.WellFormed ⟨.matrix n o, biased bias o (rowProducts x weight n k).toArray⟩ := by
  have hwell := h.wellFormed
  rw [Tensor.WellFormed] at hwell ⊢
  rw [hwell, size_biased]

end IsLinear

/-- **When a fully connected layer has a result, and which one.** -/
theorem linear_eq_ok [Build] :
    linear x weight bias = .ok y ↔ ∃ n k o, IsLinear x weight bias n k o ∧
      y = ⟨.matrix n o, biased bias o (rowProducts x weight n k).toArray⟩ := by
  constructor
  · intro h
    have hy := h
    obtain ⟨⟨xdims⟩, xdata⟩ := x
    obtain ⟨⟨wdims⟩, wdata⟩ := weight
    simp only [linear, Outcome.report_bind, Outcome.crash_bind] at h
    split at h
    · rename_i n k
      split at h
      · rename_i o k'
        rw [Outcome.ite_eq_ok (by simp), not_not] at h
        obtain ⟨rfl, h⟩ := h
        obtain ⟨_, -, h⟩ := Outcome.bind_eq_ok.1 h
        rw [Outcome.ite_eq_ok (by simp)] at h
        obtain ⟨hk, h⟩ := h
        obtain ⟨out, hout, h⟩ := Outcome.bind_eq_ok.1 h
        obtain ⟨rfl, hwell⟩ := Tensor.ofArray_eq_ok_iff.1 (Outcome.ofExcept_eq_ok.1 hout)
        have hlinear : IsLinear ⟨⟨[n, k]⟩, xdata⟩ ⟨⟨[o, k]⟩, wdata⟩ bias n k o := by
          refine ⟨rfl, rfl, hk, ?_, hwell⟩
          rintro b rfl
          obtain ⟨count, hcount, h⟩ := Outcome.bind_eq_ok.1 h
          rw [Outcome.ite_eq_ok (by simp), Outcome.ite_eq_ok (by simp), not_not] at h
          exact ⟨h.1 ▸ Outcome.orCrash_eq_ok.1 hcount, h.2.1⟩
        exact ⟨n, k, o, hlinear, Except.ok.inj (hy.symm.trans hlinear.linear_eq)⟩
      · cases h
    · cases h
  · rintro ⟨n, k, o, h, rfl⟩
    exact h.linear_eq

/-- There is a product for each row of the input and each row of the weight. -/
theorem length_rowProducts (hx : x.shape = .matrix n k) (hw : weight.shape = .matrix o k)
    (hk : k ≠ 0) (hxs : x.WellFormed) (hws : weight.WellFormed) :
    (rowProducts x weight n k).length = n * o := by
  have hn := length_rows_matrix hx hxs.size_eq hk
  have ho := length_rows_matrix hw hws.size_eq hk
  rw [rowProducts, List.take_of_length_le hn.le, List.length_flatMap]
  simp [ho, hn]

/-- A fully connected layer has a result if the rows have elements. -/
theorem exists_linear [Build] (bias : Option (Tensor α)) (hx : x.shape = .matrix n k)
    (hw : weight.shape = .matrix o k) (hk : 0 < k) (ho : 0 < o) (hxs : x.WellFormed)
    (hws : weight.WellFormed) (hb : ∀ b ∈ bias, b.shape.numElements = some o)
    (hbytes : ((Shape.matrix n o).numBytes? .f32).isSome) :
    ∃ y, linear x weight bias = .ok y ∧ y.shape = .matrix n o ∧ y.WellFormed := by
  have hlen := length_rowProducts hx hw hk.ne' hxs hws
  have h : IsLinear x weight bias n k o :=
    ⟨hx, hw, hk.ne', fun b hb' => ⟨hb b hb', ho.ne'⟩,
      Tensor.wellFormed_of_numBytes? hbytes (by simpa [Shape.matrix] using hlen)⟩
  exact ⟨_, h.linear_eq, rfl, h.wellFormed_biased⟩

/-! ### Activations and softmax -/

/-- Activations of a tensor of the right shape have a result. -/
theorem activation_eq_ok (kind : Activation) (hout : output.shape = x.shape) :
    activation kind x output = .ok ⟨x.shape, x.data.map kind.apply⟩ := by
  rw [activation, if_neg (not_not.2 hout.symm)]
  rw [← hout]

theorem length_softmaxRow (scores : List α) : (softmaxRow scores).length = scores.length := by
  simp only [softmaxRow]
  split <;> simp

/-- There are as many weights as elements in full rows. -/
theorem length_softmaxRows (width : Nat) :
    ((x.rows width).flatMap softmaxRow).length = x.data.size / width * width := by
  rw [List.length_flatMap, List.map_congr_left fun row hrow => by
    rw [length_softmaxRow, length_of_mem_rows hrow]]
  rw [List.map_const', List.sum_replicate_nat, Tensor.rows, List.length_map, List.length_range]

theorem shape_eq_of_softmax {y : Tensor α} (h : softmax x output = .ok y) :
    y.shape = x.shape := by
  simp only [softmax] at h
  rw [Outcome.ite_eq_ok (by simp), not_not] at h
  obtain ⟨hout, h⟩ := h
  split at h
  · obtain rfl := Except.ok.inj h
    exact hout.symm
  · obtain rfl := Except.ok.inj h
    exact hout.symm

/-- Softmax of a tensor into one of its shape and size has a result of that shape and size. -/
theorem exists_softmax (hout : output.shape = x.shape) (hsize : output.data.size = x.data.size) :
    ∃ y, softmax x output = .ok y ∧ y.shape = x.shape ∧ y.data.size = x.data.size := by
  rw [softmax, if_neg (not_not.2 hout.symm)]
  dsimp only
  split
  · exact ⟨output, rfl, hout, hsize⟩
  · refine ⟨_, rfl, hout, ?_⟩
    have hrows := Nat.div_mul_le_self x.data.size (x.shape.last?.getD 1)
    rw [Array.size_append, Array.size_extract, List.size_toArray, length_softmaxRows, hsize]
    omega

end Kernel

end NetPack
