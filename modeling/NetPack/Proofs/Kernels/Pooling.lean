import NetPack.Kernel.Pool
import NetPack.Proofs.Kernels.Cells
import NetPack.Proofs.Kernels.Convolution

/-!
# Pooling and flattening

`PoolDims` names the extents of a max pooling and `PoolDims.Fit` says which of them go together, as
`ConvDims` does for a convolution. A max pooling is the array of its cells (`Kernel.maxPool_eq`). It
has a result for images that the window fits and on which the build can place it
(`Kernel.exists_maxPool`), and so have the average over planes that are not empty
(`Kernel.exists_globalAvgPool`) and flattening (`Kernel.exists_flatten`).
-/

namespace NetPack

/-- The extents of a max pooling. -/
structure PoolDims where
  /-- Number of images. -/
  n : Nat
  /-- Channels of an image. -/
  c : Nat
  /-- Height of an image. -/
  h : Nat
  /-- Width of an image. -/
  w : Nat
  /-- Height of the result. -/
  outH : Nat
  /-- Width of the result. -/
  outW : Nat

namespace PoolParams

variable (p : PoolParams)

/-- The window along the height. -/
def rowWindow : Window := ⟨p.kernel.vertical, p.stride.vertical, p.padding.vertical⟩

/-- The window along the width. -/
def colWindow : Window := ⟨p.kernel.horizontal, p.stride.horizontal, p.padding.horizontal⟩

end PoolParams

namespace PoolDims

variable (d : PoolDims) (p : PoolParams)

/-- The shape of the images. -/
def input : Shape := ⟨[d.n, d.c, d.h, d.w]⟩

/-- The shape of the result. -/
def output : Shape := ⟨[d.n, d.c, d.outH, d.outW]⟩

/-- The extents go together. -/
structure Fit [Build] : Prop where
  kernel : p.kernel.hasZero = false
  stride : p.stride.hasZero = false
  rows : p.rowWindow.FitsOn d.h d.outH
  cols : p.colWindow.FitsOn d.w d.outW
  bytes : (d.output.numBytes? .f32).isSome

/-- The build can place the windows of one cell of the result. Columns are only placed if a row lies
on the images. -/
def PlacedAt [Build] (oy ox : Nat) : Prop :=
  p.rowWindow.Placed oy ∧ (p.rowWindow.taps d.h oy = [] ∨ p.colWindow.Placed ox)

instance [Build] (oy ox : Nat) : Decidable (d.PlacedAt p oy ox) :=
  inferInstanceAs (Decidable (_ ∧ _))

/-- The build can place the windows of every cell of the result. -/
def Placed [Build] : Prop :=
  ∀ image < d.n, ∀ channel < d.c, ∀ oy < d.outH, ∀ ox < d.outW, d.PlacedAt p oy ox

instance [Build] : Decidable (d.Placed p) := inferInstanceAs (Decidable (∀ _, _))

/-- The rows and columns of the images that meet at one cell of the result: rows first. -/
def places (oy ox : Nat) : List (Nat × Nat) :=
  (p.rowWindow.taps d.h oy).flatMap fun (_, iy) =>
    (p.colWindow.taps d.w ox).map fun (_, ix) => (iy, ix)

end PoolDims

namespace PoolParams

variable {p : PoolParams}

/-- **A shape is computed exactly for extents that go together.** -/
theorem outputShape_eq_ok [Build] {input out : Shape} :
    p.outputShape input = .ok out ↔
      ∃ d : PoolDims, d.Fit p ∧ input = d.input ∧ out = d.output := by
  constructor
  · intro h
    simp only [outputShape, Outcome.report_bind] at h
    split at h
    · rename_i n c h' w hin
      rw [Outcome.ite_eq_ok (by simp)] at h
      obtain ⟨hnonzero, h⟩ := h
      split at h
      · rename_i paddedH paddedW hpadded
        rw [Prod.mk.injEq] at hpadded
        rw [Outcome.ite_eq_ok (by simp)] at h
        obtain ⟨hlarger, h⟩ := h
        obtain ⟨outH, hrows, h⟩ := Outcome.bind_eq_ok.1 h
        obtain ⟨outW, hcols, h⟩ := Outcome.bind_eq_ok.1 h
        rw [Outcome.ite_eq_ok (by simp), Outcome.pure_eq_ok_iff] at h
        obtain ⟨hbytes, rfl⟩ := h
        simp only [Bool.or_eq_true, not_or, Bool.not_eq_true] at hnonzero
        simp only [Bool.or_eq_true, decide_eq_true_eq, not_or, Nat.not_lt] at hlarger
        refine ⟨⟨n, c, h', w, outH, outW⟩, ?_, Shape.nchw?_eq_some.1 hin, rfl⟩
        exact {
          kernel := hnonzero.1
          stride := hnonzero.2
          rows := ⟨paddedH, hpadded.1, hlarger.1, Outcome.orCrash_eq_ok.1 hrows⟩
          cols := ⟨paddedW, hpadded.2, hlarger.2, Outcome.orCrash_eq_ok.1 hcols⟩
          bytes := Option.isSome_iff_ne_none.2 (by simpa [PoolDims.output] using hbytes) }
      · cases h
    · cases h
  · rintro ⟨⟨n, c, h, w, outH, outW⟩, hd, rfl, rfl⟩
    obtain ⟨paddedH, hpadH, hleH, hposH⟩ := hd.rows
    obtain ⟨paddedW, hpadW, hleW, hposW⟩ := hd.cols
    have hbytes := hd.bytes
    simp only [rowWindow, colWindow] at hpadH hpadW hleH hleW hposH hposW
    simp only [PoolDims.output] at hbytes
    simp only [outputShape, PoolDims.input, PoolDims.output, Shape.nchw?, Outcome.report_bind,
      hpadH, hpadW, hposH, hposW, Outcome.orCrash_some, Outcome.ok_bind]
    rw [Outcome.ite_eq_ok (by simp), Outcome.ite_eq_ok (by simp), Outcome.ite_eq_ok (by simp)]
    refine ⟨by simp [hd.kernel, hd.stride], by simpa using ⟨hleH, hleW⟩, ?_, rfl⟩
    simpa using Option.isSome_iff_ne_none.1 hbytes

end PoolParams

namespace PoolDims

variable {d : PoolDims} {p : PoolParams}

/-- **Where windows can be placed**: everywhere in a release build, and in a checked build on axes
of at most `2 ^ 63` cells. -/
theorem Fit.placed [Build] (hd : d.Fit p) (hsmall : Build.checks = true →
    d.h + 2 * p.padding.vertical ≤ Word.signBit ∧
      d.w + 2 * p.padding.horizontal ≤ Word.signBit) : d.Placed p :=
  fun _ _ _ _ _ hoy _ hox =>
    ⟨hd.rows.placed (fun hchecks => (hsmall hchecks).1) hoy,
      .inr (hd.cols.placed (fun hchecks => (hsmall hchecks).2) hox)⟩

theorem Fit.output_positive [Build] (hd : d.Fit p) (hin : d.input.Positive) :
    d.output.Positive := by
  have hkernel := hd.kernel
  simp only [Axes.hasZero, Bool.or_eq_false_iff, beq_eq_false_iff_ne] at hkernel
  have hH := hd.rows.pos (Nat.pos_of_ne_zero hkernel.1)
  have hW := hd.cols.pos (Nat.pos_of_ne_zero hkernel.2)
  simp only [input, output, Shape.positive_mk, List.forall_mem_cons] at hin ⊢
  exact ⟨hin.1, hin.2.1, hH, hW, by simp⟩

end PoolDims

namespace PoolDims

variable {d : PoolDims} {p : PoolParams}

theorem mem_places {oy ox iy ix : Nat} :
    (iy, ix) ∈ d.places p oy ox ↔
      (∃ ky, (ky, iy) ∈ p.rowWindow.taps d.h oy) ∧ ∃ kx, (kx, ix) ∈ p.colWindow.taps d.w ox := by
  simp only [places, List.mem_flatMap, List.mem_map, Prod.mk.injEq]
  constructor
  · rintro ⟨⟨ky, _⟩, hrow, ⟨kx, _⟩, hcol, rfl, rfl⟩
    exact ⟨⟨ky, hrow⟩, kx, hcol⟩
  · rintro ⟨⟨ky, hrow⟩, kx, hcol⟩
    exact ⟨(ky, iy), hrow, (kx, ix), hcol, rfl, rfl⟩

theorem lt_of_mem_places {oy ox iy ix : Nat} (h : (iy, ix) ∈ d.places p oy ox) :
    iy < d.h ∧ ix < d.w := by
  obtain ⟨⟨_, hrow⟩, _, hcol⟩ := mem_places.1 h
  exact ⟨(Window.mem_taps.1 hrow).2.1, (Window.mem_taps.1 hcol).2.1⟩

end PoolDims

namespace Kernel

variable {α : Type} [Scalar α] {x y : Tensor α} {d : PoolDims} {p : PoolParams}

/-! ### Max pooling -/

/-- The largest cell at the given rows and columns of a plane that starts at position `start`. -/
def greatest (x : Tensor α) (start w : Nat) (places : List (Nat × Nat)) : Outcome TensorError α :=
  places.foldlM (fun best (iy, ix) => do
    return Scalar.max best (← x.entry (start + (iy * w + ix)))) Scalar.lowest

/-- The largest cell at given rows and columns. -/
theorem maxPoolCell_taps (start oy ox : Nat) :
    maxPoolCell x start d.w (some (p.rowWindow.taps d.h oy)) (some (p.colWindow.taps d.w ox)) =
      greatest x start d.w (d.places p oy ox) := by
  simp only [maxPoolCell, greatest, PoolDims.places, Outcome.foldlM_flatMap, List.foldlM_map]
  rfl

theorem maxPoolCell_eq [Build] (start oy ox : Nat) :
    maxPoolCell x start d.w (p.rowWindow.taps? d.h oy) (p.colWindow.taps? d.w ox) =
      if d.PlacedAt p oy ox then greatest x start d.w (d.places p oy ox) else Outcome.crash := by
  by_cases hrows : p.rowWindow.Placed oy
  · rw [Window.taps?_of_placed hrows]
    by_cases hcols : p.colWindow.Placed ox
    · rw [if_pos ⟨hrows, .inr hcols⟩, Window.taps?_of_placed hcols, maxPoolCell_taps]
    · -- The columns are looked at once there is a row.
      rw [Window.taps?_of_not_placed hcols]
      cases htaps : p.rowWindow.taps d.h oy with
      | nil =>
        rw [if_pos ⟨hrows, .inl htaps⟩, PoolDims.places, htaps]
        rfl
      | cons row rows =>
        rw [if_neg (by simp [PoolDims.PlacedAt, htaps, hcols])]
        rfl
  · rw [if_neg fun h => hrows h.1, Window.taps?_of_not_placed hrows]
    rfl

end Kernel

/-- A cell of the result. -/
def PoolDims.cell [Build] {α : Type} [Scalar α] (d : PoolDims) (p : PoolParams) (x : Tensor α)
    (image channel oy ox : Nat) : Outcome TensorError α :=
  if d.PlacedAt p oy ox then
    Kernel.greatest x ((image * d.c + channel) * d.h * d.w) d.w (d.places p oy ox)
  else Outcome.crash

namespace Kernel

variable {α : Type} [Scalar α] {x y : Tensor α} {d : PoolDims} {p : PoolParams}

/-- **A max pooling is the array of its cells.** -/
theorem maxPool_eq [Build] (hd : d.Fit p) (hx : x.shape = d.input) :
    maxPool x p =
      (fun data => ⟨d.output, data⟩) <$> Tensor.cells d.n d.c d.outH d.outW (d.cell p x) := by
  have hout := PoolParams.outputShape_eq_ok.2 ⟨d, hd, hx, rfl⟩
  have hcell : (fun image channel oy ox => maxPoolCell x ((image * d.c + channel) * d.h * d.w) d.w
      (p.rowWindow.taps? d.h oy) (p.colWindow.taps? d.w ox)) = d.cell p x := by
    funext image channel oy ox
    exact maxPoolCell_eq _ oy ox
  rw [maxPool, hout]
  simp only [hx, PoolDims.input, PoolDims.output, Shape.nchw?]
  rw [← hcell]
  rfl

/-- **When a max pooling has a result, and which one.** -/
theorem maxPool_eq_ok [Build] :
    maxPool x p = .ok y ↔ ∃ d : PoolDims, d.Fit p ∧ x.shape = d.input ∧ y.shape = d.output ∧
      Tensor.cells d.n d.c d.outH d.outW (d.cell p x) = .ok y.data := by
  constructor
  · intro h
    have hout := h
    rw [maxPool] at hout
    obtain ⟨out, hout, -⟩ := Outcome.bind_eq_ok.1 hout
    obtain ⟨d, hd, hx, -⟩ := PoolParams.outputShape_eq_ok.1 hout
    rw [maxPool_eq hd hx] at h
    obtain ⟨data, hdata, rfl⟩ := Outcome.map_eq_ok.1 h
    exact ⟨d, hd, hx, rfl, hdata⟩
  · rintro ⟨d, hd, hx, hy, hdata⟩
    rw [maxPool_eq hd hx]
    exact Outcome.map_eq_ok.2 ⟨y.data, hdata, hy ▸ rfl⟩

theorem silent_greatest (start w : Nat) (places : List (Nat × Nat)) :
    Outcome.Silent (greatest x start w places) :=
  Outcome.silent_foldlM
    (fun _ _ => (Outcome.silent_entry _ _).bind fun _ => Outcome.silent_ok _) _ _

theorem silent_poolCell [Build] (image channel oy ox : Nat) :
    Outcome.Silent (d.cell p x image channel oy ox) := by
  rw [PoolDims.cell]
  split
  · exact silent_greatest _ _ _
  · exact Outcome.silent_crash

/-- A max pooling one of whose windows cannot be placed breaks off. -/
theorem maxPool_of_not_placed [Build] (hd : d.Fit p) (hx : x.shape = d.input)
    (hplaced : ¬ d.Placed p) : maxPool x p = Outcome.crash := by
  simp only [PoolDims.Placed, not_forall] at hplaced
  obtain ⟨image, himage, channel, hchannel, oy, hoy, ox, hox, hnot⟩ := hplaced
  rw [maxPool_eq hd hx, Tensor.cells_eq_crash silent_poolCell himage hchannel hoy hox (if_neg hnot)]
  rfl

/-- Max pooling of images that hold what their shape says has a result if its windows fit them and
can be placed. -/
theorem exists_maxPool [Build] (hd : d.Fit p) (hx : x.shape = d.input)
    (hxs : x.data.size = Word.product x.shape.dims) (hplaced : d.Placed p) :
    ∃ y, maxPool x p = .ok y ∧ y.shape = d.output ∧ y.WellFormed := by
  have hcell : ∀ image < d.n, ∀ channel < d.c, ∀ oy < d.outH, ∀ ox < d.outW,
      ∃ v, d.cell p x image channel oy ox = .ok v := by
    intro image himage channel hchannel oy hoy ox hox
    rw [PoolDims.cell, if_pos (hplaced image himage channel hchannel oy hoy ox hox)]
    refine Outcome.exists_foldlM (fun ⟨iy, ix⟩ hplace best => ?_) _
    obtain ⟨hiy, hix⟩ := PoolDims.lt_of_mem_places hplace
    have hlt : (image * d.c + channel) * d.h * d.w + (iy * d.w + ix) < x.data.size := by
      have hpos := mul_add_lt_mul (mul_add_lt_mul (mul_add_lt_mul himage hchannel) hiy) hix
      rw [Nat.add_mul, Nat.add_assoc] at hpos
      rw [hxs, hx]
      simpa only [PoolDims.input, Word.product_cons, Word.product_nil, Nat.mul_one,
        ← Nat.mul_assoc] using hpos
    exact ⟨_, Outcome.bind_eq_ok.2 ⟨_, Tensor.entry_of_lt hlt, rfl⟩⟩
  obtain ⟨data, hdata⟩ := Tensor.exists_cells hcell
  refine ⟨⟨d.output, data⟩, ?_, rfl, ?_⟩
  · rw [maxPool_eq hd hx, hdata]
    rfl
  · refine Tensor.wellFormed_of_numBytes? hd.bytes ?_
    rw [(Tensor.cells_eq_ok.1 hdata).1]
    simp [PoolDims.output, Nat.mul_assoc]

/-! ### Averages of planes -/

omit [Scalar α] in
/-- Where the width divides the number of elements, every row is full. -/
theorem chunks_eq_rows {width : Nat} (h : width ∣ x.data.size) : x.chunks width = x.rows width := by
  have hcount : (x.data.size + width - 1) / width = x.data.size / width := by
    obtain ⟨count, hcount⟩ := h
    rw [hcount]
    rcases Nat.eq_zero_or_pos width with rfl | hpos
    · simp
    · rw [Nat.mul_div_cancel_left _ hpos, Nat.add_sub_assoc hpos, Nat.mul_add_div hpos,
        Nat.div_eq_of_lt (by omega), Nat.add_zero]
  rw [Tensor.chunks, hcount]
  rfl

/-- The average over planes that are not empty has a result. -/
theorem exists_globalAvgPool [Build] {n c h w : Nat} (hx : x.shape = ⟨[n, c, h, w]⟩)
    (hxs : x.WellFormed) (hpos : x.shape.Positive) :
    ∃ y, globalAvgPool x = .ok y ∧ y.shape = ⟨[n, c, 1, 1]⟩ ∧ y.WellFormed := by
  have hsize : x.data.size = n * c * (h * w) := by
    rw [hxs.size_eq, hx]
    simp [Nat.mul_assoc]
  have hlt := hxs.size_lt
  simp only [hx, Shape.positive_mk, List.forall_mem_cons] at hpos
  obtain ⟨hn, hc, hh, hw, -⟩ := hpos
  have hplane : 0 < h * w := Nat.mul_pos hh hw
  have hplanes : 0 < n * c := Nat.mul_pos hn hc
  rw [hsize] at hlt
  -- There are no more planes, and none of them is larger, than the tensor has elements.
  have harea : (Outcome.orCrash (Word.settle (h * w)) : Outcome TensorError _) = .ok (h * w) :=
    Outcome.orCrash_eq_ok.2
      (Word.settle_of_lt (lt_of_le_of_lt (Nat.le_mul_of_pos_left _ hplanes) hlt))
  have hlt' : n * c < Word.modulus := lt_of_le_of_lt (Nat.le_mul_of_pos_right _ hplane) hlt
  have hcount : (Outcome.orCrash (Word.settle (n * c)) : Outcome TensorError _) = .ok (n * c) :=
    Outcome.orCrash_eq_ok.2 (Word.settle_of_lt hlt')
  have hnum : (⟨[n, c, 1, 1]⟩ : Shape).numElements? = some (n * c) := by
    refine (Shape.numElements?_eq_some_iff ?_).2 ⟨by simp, hlt'⟩
    simp [Shape.positive_mk, hn, hc]
  have hwell : Tensor.WellFormed ⟨⟨[n, c, 1, 1]⟩,
      (((x.chunks (h * w)).take (n * c)).map fun plane =>
        Scalar.total plane / Scalar.count (h * w)).toArray⟩ := by
    rw [chunks_eq_rows (hsize ▸ Nat.dvd_mul_left _ _), Tensor.WellFormed, hnum]
    simp [Tensor.rows, hsize, Nat.mul_div_cancel _ hplane]
  refine ⟨_, ?_, rfl, hwell⟩
  simp only [globalAvgPool, hx, Shape.nchw?, Outcome.report_bind, harea, hcount, Outcome.ok_bind]
  rw [if_neg (by omega)]
  exact Outcome.ofExcept_eq_ok.2 (Tensor.ofArray_eq_ok_iff.2 ⟨rfl, hwell⟩)

/-! ### Flattening -/

omit [Scalar α] in
/-- Flattening a tensor with an axis has a result if the build can count a row. -/
theorem exists_flatten [Build] {n m : Nat} {rest : List Nat} (hx : x.shape = ⟨n :: rest⟩)
    (hxs : x.WellFormed) (hrest : Shape.product rest = some m) :
    ∃ y, flatten x = .ok y ∧ y.shape = .matrix n m ∧ y.WellFormed := by
  have hlt := hxs.product_lt
  have hsize := hxs.size_eq
  rw [hx, Word.product_cons] at hlt hsize
  have hword : n < Word.modulus := by
    rw [Tensor.WellFormed, hx, Shape.numElements?, List.foldlM_cons] at hxs
    obtain ⟨_, hn, -⟩ := Option.bind_eq_some_iff.1 hxs
    obtain ⟨rfl, hn⟩ := Word.mul?_eq_some_iff.1 hn
    rwa [Nat.one_mul] at hn
  -- Without images there are no elements, however many an image would have.
  have hproduct : n * m = n * Word.product rest := by
    rcases Nat.eq_zero_or_pos n with rfl | hn
    · rw [Nat.zero_mul, Nat.zero_mul]
    · rw [Shape.eq_wrap_of_product hrest,
        Word.wrap_of_lt (lt_of_le_of_lt (Nat.le_mul_of_pos_left _ hn) hlt)]
  have hwell : Tensor.WellFormed ⟨Shape.matrix n m, x.data⟩ := by
    have hn : Word.mul? 1 n = some n := Word.mul?_eq_some_iff.2 ⟨Nat.one_mul n, hword⟩
    have hall : Word.mul? n m = some x.data.size :=
      Word.mul?_eq_some_iff.2 ⟨hproduct.trans hsize.symm, hxs.size_lt⟩
    simp [Tensor.WellFormed, Shape.numElements?, Shape.matrix, hn, hall]
  refine ⟨_, ?_, rfl, hwell⟩
  simp only [flatten, hx, hrest, Outcome.orCrash_some, Outcome.ok_bind]
  exact Outcome.ofExcept_eq_ok.2 (Tensor.ofArray_eq_ok_iff.2 ⟨rfl, hwell⟩)

end Kernel

end NetPack
