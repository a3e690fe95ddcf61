import NetPack.Proofs.Kernels.Samples

/-!
# Products of matrices

A fully connected layer multiplies a matrix `[N, K]` with the transpose of a matrix `[O, K]` and
adds a bias to every row. `Kernel.affine` is an element of the result, said with rows and columns:
the products of a row of the input and a row of the weight, added from left to right, and the bias
of the column behind them.

For well-formed operands whose shapes go together the layer gives the matrix of these elements,
unless it breaks off (`Kernel.linear_products`). Shape inference admits empty matrices, but the
layer walks through its operands in pieces of a whole row, and there are no pieces without elements:
it breaks off where `K` is zero, although the sums are empty then and the result would hold their
start value, and where `O` is zero and there is a bias, although there is nothing to add it to
(`Kernel.not_forall_linear`). Without images or, if there is no bias, without outputs the result is
an empty matrix.
-/

namespace NetPack

namespace Tensor

variable {α : Type} [Zero α]

/-- The element at a row and a column of a matrix. -/
def entryAt (t : Tensor α) (i j : Nat) : α :=
  match t.shape.dims with
  | [_, cols] => t.data.getD (i * cols + j) 0
  | _ => 0

/-- The matrix of the given elements. -/
def tabulate (rows cols : Nat) (f : Nat → Nat → α) : Tensor α :=
  ⟨.matrix rows cols, ((List.range (rows * cols)).map fun q => f (q / cols) (q % cols)).toArray⟩

omit [Zero α] in
theorem size_tabulate (rows cols : Nat) (f : Nat → Nat → α) :
    (tabulate rows cols f).data.size = rows * cols := by
  simp [tabulate]

theorem entryAt_tabulate {rows cols i j : Nat} (f : Nat → Nat → α) (hi : i < rows) (hj : j < cols) :
    (tabulate rows cols f).entryAt i j = f i j := by
  have hlt : i * cols + j < (tabulate rows cols f).data.size := by
    rw [size_tabulate]
    exact mul_add_lt_mul hi hj
  have hget : (tabulate rows cols f).data[i * cols + j] = f i j := by
    simp only [tabulate, List.getElem_toArray, List.getElem_map, List.getElem_range]
    rw [mul_add_div_of_lt hj, mul_add_mod_of_lt hj]
  rw [← hget, Array.getElem_eq_getD 0]
  rfl

end Tensor

namespace Shape

/-- The bytes of a matrix, some of whose rows may be empty, have a number. -/
theorem numBytes?_matrix_isSome {n o : Nat} (hn : n < Word.modulus)
    (hbytes : n * o * 4 < Word.modulus) : ((matrix n o).numBytes? .f32).isSome := by
  have hrows : Word.mul? 1 n = some n := Word.mul?_eq_some_iff.2 ⟨Nat.one_mul n, hn⟩
  have hall : Word.mul? n o = some (n * o) := Word.mul?_eq_some_iff.2 ⟨rfl, by omega⟩
  have hfour : Word.mul? (n * o) DType.f32.bytes = some (n * o * 4) :=
    Word.mul?_eq_some_iff.2 ⟨rfl, hbytes⟩
  simp [numBytes?, numElements?, matrix, hrows, hall, hfour]

end Shape

namespace Kernel

variable {α : Type} [Scalar α] {x weight : Tensor α} {bias : Option (Tensor α)} {n k o : Nat}

/-- The products of a row of the input and a row of the weight, added from left to right. -/
def rowProduct (x weight : Tensor α) (k i j : Nat) : α :=
  Scalar.total ((List.range k).map fun t => x.entryAt i t * weight.entryAt j t)

/-- An element of the result: the product of two rows and, behind it, the bias of the column. -/
def affine (x weight : Tensor α) (bias : Option (Tensor α)) (k i j : Nat) : α :=
  match bias with
  | none => rowProduct x weight k i j
  | some b => rowProduct x weight k i j + b.data.getD j 0

/-- Pairs of rows and columns, one behind the other. -/
theorem flatMap_range_map {β : Type} (n o : Nat) (f : Nat → Nat → β) :
    (List.range n).flatMap (fun i => (List.range o).map (f i)) =
      (List.range (n * o)).map fun q => f (q / o) (q % o) := by
  induction n with
  | zero => simp
  | succ n ih =>
    rw [List.range_succ, List.flatMap_append, ih, Nat.succ_mul, List.range_add, List.map_append,
      List.map_map, List.flatMap_singleton]
    refine congrArg _ (List.map_congr_left fun j hj => ?_)
    rw [List.mem_range] at hj
    simp only [Function.comp_apply, Tensor.mul_add_div_of_lt hj, Tensor.mul_add_mod_of_lt hj]

/-- The operands of a fully connected layer: `n` rows of `k` numbers, `o` rows of weights and, if
there is a bias, a number per output. -/
structure Operands (x weight : Tensor α) (bias : Option (Tensor α)) (n k o : Nat) : Prop where
  input : x.WellFormed
  factor : weight.WellFormed
  rows : x.shape = .matrix n k
  columns : weight.shape = .matrix o k
  added : ∀ b ∈ bias, b.WellFormed ∧ b.data.size = o
  bytes : n * o * 4 < Word.modulus

namespace Operands

variable (h : Operands x weight bias n k o)

include h

/-- The products of rows that the layer forms are the entries of the matrix, row by row. -/
theorem rowProducts_eq (hk : k ≠ 0) :
    rowProducts x weight n k =
      (List.range (n * o)).map fun q => rowProduct x weight k (q / o) (q % o) := by
  have hxsize : x.data.size = n * k := by
    rw [h.input.size_eq, h.rows]
    simp [Shape.matrix]
  have hwsize : weight.data.size = o * k := by
    rw [h.factor.size_eq, h.columns]
    simp [Shape.matrix]
  have hpos := Nat.pos_of_ne_zero hk
  have hdot : ∀ i < n, ∀ j < o, dot (x.data.extract (i * k) ((i + 1) * k)).toList
      (weight.data.extract (j * k) ((j + 1) * k)).toList = rowProduct x weight k i j := by
    intro i hi j hj
    rw [extract_row (hxsize ▸ Nat.mul_le_mul_right k hi),
      extract_row (hwsize ▸ Nat.mul_le_mul_right k hj), dot, List.zip_map', rowProduct,
      Scalar.total, List.foldl_map, List.foldl_map]
    simp only [Tensor.entryAt, h.rows, h.columns, Shape.matrix]
  have hrows := length_rows_matrix h.rows h.input.size_eq hk
  rw [rowProducts, List.take_of_length_le hrows.le, ← flatMap_range_map, Tensor.rows, Tensor.rows,
    hxsize, hwsize, Nat.mul_div_cancel _ hpos, Nat.mul_div_cancel _ hpos, List.flatMap_map]
  refine List.flatMap_congr fun i hi => ?_
  rw [List.map_map]
  exact List.map_congr_left fun j hj => hdot i (List.mem_range.1 hi) j (List.mem_range.1 hj)

/-- With the bias they are the elements of the result. -/
theorem biased_eq (hk : k ≠ 0) :
    biased bias o (rowProducts x weight n k).toArray =
      (Tensor.tabulate n o (affine x weight bias k)).data := by
  rw [h.rowProducts_eq hk, Tensor.tabulate]
  cases hbias : bias with
  | none => rfl
  | some b =>
    refine Array.ext (by simp [biased]) fun q hq _ => ?_
    have hlt : q < n * o := by simpa [biased] using hq
    have ho : 0 < o := Nat.pos_of_ne_zero fun hzero => by simp [hzero] at hlt
    have hmod : q % o < b.data.size := by
      rw [(h.added b hbias).2]
      exact Nat.mod_lt _ ho
    simp [biased, affine, hmod]

omit [Scalar α] in
theorem numElements_bias [Build] : ∀ b ∈ bias, b.shape.numElements = some o := by
  intro b hb
  obtain ⟨hwell, hsize⟩ := h.added b hb
  rw [← hsize]
  exact hwell.sized

omit [Scalar α] in
theorem rows_lt : n < Word.modulus := by
  have hwell := h.input
  rw [Tensor.WellFormed, h.rows, Shape.matrix, Shape.numElements?, List.foldlM_cons] at hwell
  obtain ⟨m, hm, -⟩ := Option.bind_eq_some_iff.1 hwell
  obtain ⟨rfl, hlt⟩ := Word.mul?_eq_some_iff.1 hm
  rwa [Nat.one_mul] at hlt

omit [Scalar α] in
/-- Inference admits the operands, also those without elements. -/
theorem inferShape_eq_ok [Build] :
    (Op.linear : Op α).inferShape x.shape (weight.shape :: bias.toList.map (·.shape)) =
      .ok (.matrix n o) := by
  refine Op.inferShape_linear.2
    ⟨n, k, o, bias.toList.map (·.shape), h.rows, rfl, by rw [h.columns], ?_, ?_⟩
  · cases bias <;> simp
  · rw [List.forall_mem_map]
    exact fun b hb => h.numElements_bias b (Option.mem_toList.1 hb)

/-- The layer gives the matrix of its elements if there are rows to walk through. -/
theorem linear_tabulate [Build] (hk : k ≠ 0) (ho : o = 0 → bias = none) :
    linear x weight bias = .ok (Tensor.tabulate n o (affine x weight bias k)) ∧
      (Tensor.tabulate n o (affine x weight bias k)).WellFormed := by
  have hwell : (Tensor.tabulate n o (affine x weight bias k)).WellFormed := by
    refine Tensor.wellFormed_of_numBytes? (Shape.numBytes?_matrix_isSome h.rows_lt h.bytes) ?_
    rw [Tensor.size_tabulate]
    simp [Tensor.tabulate, Shape.matrix]
  have hlinear : IsLinear x weight bias n k o := by
    refine ⟨h.rows, h.columns, hk, fun b hb => ⟨h.numElements_bias b hb, fun hzero => ?_⟩, ?_⟩
    · rw [ho hzero] at hb
      cases hb
    · rw [Tensor.WellFormed, Tensor.size_tabulate] at hwell
      rw [Tensor.WellFormed, List.size_toArray,
        length_rowProducts h.rows h.columns hk h.input h.factor]
      exact hwell
  refine ⟨?_, hwell⟩
  rw [hlinear.linear_eq, h.biased_eq hk]
  rfl

/-- Rows without elements cannot be walked through. -/
theorem linear_of_inner_zero [Build] (hk : k = 0) : linear x weight bias = Outcome.crash := by
  have hx : x.shape.dims = [n, 0] := by rw [h.rows, hk, Shape.matrix]
  have hw : weight.shape.dims = [o, 0] := by rw [h.columns, hk, Shape.matrix]
  have hbytes := h.bytes
  have hroom : Word.settle (n * o) = some (n * o) := Word.settle_of_lt (by omega)
  simp [linear, hx, hw, hroom]

/-- A bias cannot be added to rows without elements. -/
theorem linear_of_no_output [Build] {b : Tensor α} (hk : k ≠ 0) (ho : o = 0) (hb : bias = some b) :
    linear x weight bias = Outcome.crash := by
  have hproducts : (Tensor.ofArray ⟨[n, o]⟩ #[] : Except TensorError (Tensor α)) =
      .ok ⟨⟨[n, o]⟩, #[]⟩ := by
    refine Tensor.ofArray_eq_ok_iff.2 ⟨rfl, Tensor.wellFormed_of_numBytes?
      (Shape.numBytes?_matrix_isSome h.rows_lt h.bytes) ?_⟩
    simp [ho]
  have hx : x.shape.dims = [n, k] := by rw [h.rows, Shape.matrix]
  have hw : weight.shape.dims = [o, k] := by rw [h.columns, Shape.matrix]
  have hnone :
      (((x.rows k).take n).flatMap fun sample => (weight.rows k).map (dot sample)) = [] := by
    have hlength := length_rowProducts h.rows h.columns hk h.input h.factor
    rw [ho, Nat.mul_zero] at hlength
    exact List.eq_nil_of_length_eq_zero hlength
  have hroom : Word.settle 0 = some 0 := Word.settle_of_lt (by decide)
  subst hb ho
  simp only [linear, hx, hw, ne_eq, not_true_eq_false, if_false, if_neg hk, Nat.mul_zero, hroom,
    hnone, Shape.matrix, hproducts, Outcome.liftM_eq_ofExcept, Outcome.ofExcept_ok,
    Outcome.orCrash_some, Outcome.ok_bind, h.numElements_bias b rfl, if_true]
  rfl

end Operands

/-- **What a fully connected layer computes.** Operands that go together are all admitted by shape
inference. The layer breaks off on them exactly if the rows have no elements, or if there is a bias
but no output. Otherwise the result has a row for each row of the input and a column for each row of
the weight, and its elements are the products of these rows, added from left to right, with the bias
behind them. -/
theorem linear_products [Build] (h : Operands x weight bias n k o) :
    (Op.linear : Op α).inferShape x.shape (weight.shape :: bias.toList.map (·.shape)) =
      .ok (.matrix n o) ∧
    (linear x weight bias = Outcome.crash ↔ k = 0 ∨ o = 0 ∧ bias.isSome = true) ∧
    (¬ (k = 0 ∨ o = 0 ∧ bias.isSome = true) → ∃ y, linear x weight bias = .ok y ∧
      y.shape = .matrix n o ∧ y.WellFormed ∧
      ∀ i < n, ∀ j < o, y.entryAt i j = affine x weight bias k i j) := by
  have hruns : ¬ (k = 0 ∨ o = 0 ∧ bias.isSome = true) → ∃ y, linear x weight bias = .ok y ∧
      y.shape = .matrix n o ∧ y.WellFormed ∧
      ∀ i < n, ∀ j < o, y.entryAt i j = affine x weight bias k i j := by
    intro hnot
    obtain ⟨hk, ho⟩ := not_or.1 hnot
    have hnone : o = 0 → bias = none := fun hzero =>
      Option.not_isSome_iff_eq_none.1 fun hsome => ho ⟨hzero, hsome⟩
    obtain ⟨hlinear, hwell⟩ := h.linear_tabulate hk hnone
    exact ⟨_, hlinear, rfl, hwell, fun i hi j hj => Tensor.entryAt_tabulate _ hi hj⟩
  refine ⟨h.inferShape_eq_ok, ⟨fun hcrash => ?_, ?_⟩, hruns⟩
  · by_contra hnot
    obtain ⟨y, hy, -⟩ := hruns hnot
    exact Outcome.crash_ne_ok (hcrash.symm.trans hy)
  · intro hempty
    by_cases hk : k = 0
    · exact h.linear_of_inner_zero hk
    · obtain ⟨ho, hsome⟩ := hempty.resolve_left hk
      obtain ⟨b, hb⟩ := Option.isSome_iff_exists.1 hsome
      exact h.linear_of_no_output hk ho hb

/-- An image of one number. -/
def oneNumber : Tensor Binary32 := ⟨⟨[1, 1]⟩, #[1]⟩

/-- An image without numbers, or a weight without inputs. -/
def noNumber : Tensor Binary32 := ⟨⟨[1, 0]⟩, #[]⟩

/-- A weight without outputs. -/
def noOutput : Tensor Binary32 := ⟨⟨[0, 1]⟩, #[]⟩

/-- Without a bias an empty matrix is computed, with an empty bias the layer breaks off. -/
theorem linear_products_empty :
    (∃ y, linear oneNumber noOutput none = .ok y ∧ y.shape = .matrix 1 0 ∧ y.WellFormed) ∧
      linear oneNumber noOutput (some ⟨⟨[0]⟩, #[]⟩) = Outcome.crash ∧
      linear noNumber noNumber none = Outcome.crash := by
  have hplain : Operands oneNumber noOutput none 1 1 0 :=
    ⟨rfl, rfl, rfl, rfl, by simp, by decide⟩
  have hbiased : Operands oneNumber noOutput (some ⟨⟨[0]⟩, #[]⟩) 1 1 0 :=
    ⟨rfl, rfl, rfl, rfl, by simp [Tensor.WellFormed]; decide, by decide⟩
  have hinner : Operands noNumber noNumber none 1 0 1 :=
    ⟨rfl, rfl, rfl, rfl, by simp, by decide⟩
  refine ⟨?_, (linear_products hbiased).2.1.2 (.inr ⟨rfl, rfl⟩),
    (linear_products hinner).2.1.2 (.inl rfl)⟩
  obtain ⟨y, hy, hshape, hwell, -⟩ := (linear_products hplain).2.2 (by simp)
  exact ⟨y, hy, hshape, hwell⟩

/-- **A fully connected layer breaks off on shapes that its inference admits.** -/
theorem not_forall_linear :
    ¬ ∀ (x weight : Tensor Binary32) (bias : Option (Tensor Binary32)) (n k o : Nat),
      Operands x weight bias n k o → ∃ y, linear x weight bias = .ok y ∧
        y.shape = .matrix n o ∧
        ∀ i < n, ∀ j < o, y.entryAt i j = affine x weight bias k i j := by
  intro h
  obtain ⟨y, hy, -⟩ := h noNumber noNumber none 1 0 1 ⟨rfl, rfl, rfl, rfl, by simp, by decide⟩
  cases hy

end Kernel

end NetPack
