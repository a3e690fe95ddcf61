import NetPack.Proofs.Comparisons
import NetPack.Proofs.Kernels.GroupedConvolution
import NetPack.Proofs.Kernels.Samples

/-!
# Max pooling of numbers

A window at position `y` covers the rows from `y * stride - padding` on, as many as it is high, and
columns are alike (`Window.Covers`). If no element is NaN, then every cell of a max pooling is an
element of the part of the image that its window covers, and no element there is larger
(`Kernel.maxPool_windows`).

This holds of the windows that meet the image. Shapes do not say that all of them do: padding may be
as large as the window, and then the first window lies in the padding altogether. Such a cell is
negative infinity, so finite images may have a result that is not finite
(`Kernel.not_forall_covered`). All windows meet the image exactly if it has rows and columns and the
padding is smaller than the window along both axes (`PoolDims.Fit.covered_iff`). A checked build
breaks off if it cannot place all windows.
-/

namespace NetPack

/-! ### The greatest of several numbers -/

namespace Binary32

variable {x y : Binary32}

theorem max_eq_or (x y : Binary32) : x.max y = x ∨ x.max y = y := by
  rw [Binary32.max]
  split
  · exact .inr rfl
  · exact .inl rfl

theorem le_rank_max (hx : x.isNaN = false) (hy : y.isNaN = false) :
    x.rank ≤ (x.max y).rank ∧ y.rank ≤ (x.max y).rank := by
  rw [Binary32.max, hx, Bool.false_or]
  split
  · rename_i hlt
    exact ⟨((lt_iff hx hy).1 hlt).le, le_rfl⟩
  · rename_i hlt
    exact ⟨le_rfl, not_lt.1 fun h => hlt ((lt_iff hx hy).2 h)⟩

theorem foldl_max {a : Binary32} {vs : List Binary32} (h : ∀ v ∈ a :: vs, v.isNaN = false) :
    vs.foldl Binary32.max a ∈ a :: vs ∧
      ∀ v ∈ a :: vs, v.rank ≤ (vs.foldl Binary32.max a).rank := by
  induction vs generalizing a with
  | nil => simp
  | cons v vs ih =>
    rw [List.forall_mem_cons, List.forall_mem_cons] at h
    obtain ⟨ha, hv, hvs⟩ := h
    obtain ⟨hleft, hright⟩ := le_rank_max ha hv
    have hmax : (a.max v).isNaN = false := by
      rcases max_eq_or a v with hmax | hmax
      · rw [hmax, ha]
      · rw [hmax, hv]
    obtain ⟨hmem, hbound⟩ := ih (List.forall_mem_cons.2 ⟨hmax, hvs⟩)
    rw [List.forall_mem_cons] at hbound
    rw [List.foldl_cons]
    constructor
    · rcases List.mem_cons.1 hmem with hmem | hmem
      · rcases max_eq_or a v with hmax | hmax
        · exact List.mem_cons.2 (.inl (hmem.trans hmax))
        · exact List.mem_cons_of_mem _ (List.mem_cons.2 (.inl (hmem.trans hmax)))
      · exact List.mem_cons_of_mem _ (List.mem_cons_of_mem _ hmem)
    · rw [List.forall_mem_cons, List.forall_mem_cons]
      exact ⟨hleft.trans hbound.1, hright.trans hbound.1, hbound.2⟩

/-- **A search that starts below all numbers finds the greatest one**, if there is any. -/
theorem foldl_max_negInfinity {vs : List Binary32} (h : ∀ v ∈ vs, v.isNaN = false) :
    (vs.foldl Binary32.max negInfinity ∈ vs ∨
      vs = [] ∧ vs.foldl Binary32.max negInfinity = negInfinity) ∧
    ∀ v ∈ vs, v.number ≤ (vs.foldl Binary32.max negInfinity).number := by
  have hall : ∀ v ∈ negInfinity :: vs, v.isNaN = false :=
    List.forall_mem_cons.2 ⟨by decide, h⟩
  obtain ⟨hmem, hbound⟩ := foldl_max hall
  have hmax := hall _ hmem
  refine ⟨?_, fun v hv => (number_le_iff (h v hv) hmax).2 (hbound v (List.mem_cons_of_mem _ hv))⟩
  cases vs with
  | nil => exact .inr ⟨rfl, rfl⟩
  | cons v vs =>
    rcases List.mem_cons.1 hmem with hlowest | hmem
    -- If the start is the greatest number, then all others are the same.
    · have hv := hbound v (List.mem_cons_of_mem _ List.mem_cons_self)
      rw [hlowest] at hv
      have heq : v = negInfinity :=
        eq_negInfinity_of_rank (le_antisymm hv (rank_negInfinity_le (h v List.mem_cons_self)))
      rw [hlowest, heq]
      exact .inl List.mem_cons_self
    · exact .inl hmem

end Binary32

/-! ### Places under a window -/

namespace Window

variable {w : Window} {extent positions pos i : Nat}

/-- The window at a position covers a place of the axis. -/
def Covers (w : Window) (extent pos i : Nat) : Prop :=
  i < extent ∧ (pos * w.stride - w.padding : Int) ≤ i ∧
    (i : Int) < pos * w.stride - w.padding + w.size

theorem exists_tap_iff : (∃ k, (k, i) ∈ w.taps extent pos) ↔ w.Covers extent pos i := by
  simp only [mem_taps, Covers, ← Nat.cast_mul]
  generalize pos * w.stride = start
  constructor
  · rintro ⟨k, hk, hi, heq⟩
    exact ⟨hi, by omega, by omega⟩
  · rintro ⟨hi, hle, hlt⟩
    exact ⟨i + w.padding - start, by omega, hi, by omega⟩

theorem FitsOn.exists_covers [Build] (h : w.FitsOn extent positions) (hpos : pos < positions)
    (hextent : 0 < extent) (hpadding : w.padding < w.size) : ∃ i, w.Covers extent pos i := by
  have hlast := (h.place_lt (k := w.size - 1) hpos (by omega)).2.1
  rw [place, ← Nat.cast_mul] at hlast
  refine ⟨pos * w.stride - w.padding, ?_⟩
  rw [Covers, ← Nat.cast_mul]
  generalize pos * w.stride = start at hlast ⊢
  exact ⟨by omega, by omega, by omega⟩

/-- **All positions meet the axis** exactly if it has places and the padding is smaller than the
window. -/
theorem FitsOn.covered_iff [Build] (h : w.FitsOn extent positions) (hsize : 0 < w.size) :
    (∀ pos < positions, ∃ i, w.Covers extent pos i) ↔ 0 < extent ∧ w.padding < w.size := by
  constructor
  · intro hall
    obtain ⟨i, hi, -, hlt⟩ := hall 0 (h.pos hsize)
    exact ⟨by omega, by omega⟩
  · rintro ⟨hextent, hpadding⟩ pos hpos
    exact h.exists_covers hpos hextent hpadding

end Window

namespace PoolDims

variable {d : PoolDims} {p : PoolParams} {oy ox : Nat}

/-- A window covers a cell of the images. -/
def Covers (d : PoolDims) (p : PoolParams) (oy ox iy ix : Nat) : Prop :=
  p.rowWindow.Covers d.h oy iy ∧ p.colWindow.Covers d.w ox ix

/-- **All windows meet the images** exactly if these have rows and columns and the padding is
smaller than the window. -/
theorem Fit.covered_iff [Build] (hd : d.Fit p) :
    (∀ oy < d.outH, ∀ ox < d.outW, ∃ iy ix, d.Covers p oy ox iy ix) ↔
      (0 < d.h ∧ p.padding.vertical < p.kernel.vertical) ∧
        0 < d.w ∧ p.padding.horizontal < p.kernel.horizontal := by
  have hkernel := hd.kernel
  simp only [Axes.hasZero, Bool.or_eq_false_iff, beq_eq_false_iff_ne] at hkernel
  have hrow : 0 < p.rowWindow.size := Nat.pos_of_ne_zero hkernel.1
  have hcol : 0 < p.colWindow.size := Nat.pos_of_ne_zero hkernel.2
  have hrows := hd.rows.covered_iff hrow
  have hcols := hd.cols.covered_iff hcol
  constructor
  · intro hall
    refine ⟨hrows.1 fun oy hoy => ?_, hcols.1 fun ox hox => ?_⟩
    · obtain ⟨iy, -, hiy, -⟩ := hall oy hoy 0 (hd.cols.pos hcol)
      exact ⟨iy, hiy⟩
    · obtain ⟨-, ix, -, hix⟩ := hall 0 (hd.rows.pos hrow) ox hox
      exact ⟨ix, hix⟩
  · rintro ⟨hH, hW⟩ oy hoy ox hox
    obtain ⟨iy, hiy⟩ := hrows.2 hH oy hoy
    obtain ⟨ix, hix⟩ := hcols.2 hW ox hox
    exact ⟨iy, ix, hiy, hix⟩

section Elements

variable {α : Type} [Scalar α] {x : Tensor α} {image channel : Nat}

/-- The elements that a window covers: rows first, then columns. -/
def under (d : PoolDims) (p : PoolParams) (x : Tensor α) (image channel oy ox : Nat) : List α :=
  (d.places p oy ox).map fun place => x.element image channel place.1 place.2

theorem mem_under {v : α} :
    v ∈ d.under p x image channel oy ox ↔
      ∃ iy ix, d.Covers p oy ox iy ix ∧ x.element image channel iy ix = v := by
  simp only [under, List.mem_map, Prod.exists, mem_places, Window.exists_tap_iff]
  rfl

/-- A cell of the result is the greatest element that its window covers. -/
theorem foldl_of_cell [Build] {v : α} (hx : x.shape = d.input)
    (h : d.cell p x image channel oy ox = .ok v) :
    (d.under p x image channel oy ox).foldl Scalar.max Scalar.lowest = v := by
  rw [cell] at h
  split at h
  · rw [under, List.foldl_map]
    refine Outcome.foldl_of_foldlM (fun place _ best best' hplace => ?_) h
    obtain ⟨a, ha, hbest⟩ := Outcome.bind_eq_ok.1 hplace
    have hlt := Tensor.lt_of_entry ha
    obtain rfl := Except.ok.inj ((Tensor.entry_of_lt hlt).symm.trans ha)
    have hposition : d.input.position image channel place.1 place.2 =
        (image * d.c + channel) * d.h * d.w + (place.1 * d.w + place.2) := by
      simp only [Shape.position, input]
      ring
    rw [Tensor.element, hx, hposition, Array.getD_eq_getD_getElem?, Array.getElem?_eq_getElem hlt]
    exact Outcome.pure_eq_ok_iff.1 hbest
  · cases h

end Elements

/-- The value is an element that the window covers, and no other one exceeds it. -/
structure Greatest (d : PoolDims) (p : PoolParams) (x : Tensor Binary32)
    (image channel oy ox : Nat) (v : Binary32) : Prop where
  covered : ∃ iy ix, d.Covers p oy ox iy ix ∧ x.element image channel iy ix = v
  le : ∀ iy ix, d.Covers p oy ox iy ix → (x.element image channel iy ix).number ≤ v.number

/-- What holds of all elements and of zero holds at all coordinates. -/
theorem of_forall_mem_data {P : Binary32 → Prop} {x : Tensor Binary32} (h : ∀ v ∈ x.data, P v)
    (hzero : P 0) (image channel iy ix : Nat) : P (x.element image channel iy ix) := by
  rw [Tensor.element, Array.getD_eq_getD_getElem?]
  cases hget : x.data[x.shape.position image channel iy ix]? with
  | none => exact hzero
  | some v => exact h v (Array.mem_of_getElem? hget)

/-- **A cell of a max pooling** is the greatest element under its window, or negative infinity if
the window lies in the padding. -/
theorem greatest_or_of_cell [Build] {x : Tensor Binary32} {image channel : Nat} {v : Binary32}
    (hnan : ∀ v ∈ x.data, v.isNaN = false) (hx : x.shape = d.input)
    (h : d.cell p x image channel oy ox = .ok v) :
    d.Greatest p x image channel oy ox v ∨
      (∀ iy ix, ¬ d.Covers p oy ox iy ix) ∧ v = .negInfinity := by
  have hunder : ∀ u ∈ d.under p x image channel oy ox, u.isNaN = false := by
    intro u hu
    obtain ⟨iy, ix, -, rfl⟩ := mem_under.1 hu
    exact of_forall_mem_data hnan (by decide) image channel iy ix
  obtain rfl : (d.under p x image channel oy ox).foldl Binary32.max .negInfinity = v :=
    foldl_of_cell hx h
  obtain ⟨hmem | ⟨hnil, hlowest⟩, hle⟩ := Binary32.foldl_max_negInfinity hunder
  · exact .inl ⟨mem_under.1 hmem, fun iy ix hcovers => hle _ (mem_under.2 ⟨iy, ix, hcovers, rfl⟩)⟩
  · refine .inr ⟨fun iy ix hcovers => ?_, hlowest⟩
    have hmem : x.element image channel iy ix ∈ d.under p x image channel oy ox :=
      mem_under.2 ⟨iy, ix, hcovers, rfl⟩
    rw [hnil] at hmem
    cases hmem

end PoolDims

namespace Kernel

/-- **What a max pooling computes.** A tensor without NaN that holds what its shape says has a
result of the inferred shape, if the build can place all windows; otherwise the pooling breaks off.
Windows can be placed in every release build, and in a checked build on axes that have at most
`2 ^ 63` cells with their padding. Each cell of the result is an element of the image under its
window that no other one there exceeds, unless the window does not meet the image: then the cell is
negative infinity. All windows meet the image exactly if it has rows and columns and the padding is
smaller than the window. So the result of finite images is finite in this case, and in no other one
if there are images with channels. -/
theorem maxPool_windows [Build] {x : Tensor Binary32} {p : PoolParams} {out : Shape}
    (hx : x.data.size = Word.product x.shape.dims) (hnan : ∀ v ∈ x.data, v.isNaN = false)
    (hout : p.outputShape x.shape = .ok out) :
    ∃ d : PoolDims, x.shape = d.input ∧ out = d.output ∧
      (¬ d.Placed p → maxPool x p = Outcome.crash) ∧
      ((Build.checks = true → d.h + 2 * p.padding.vertical ≤ 2 ^ 63 ∧
        d.w + 2 * p.padding.horizontal ≤ 2 ^ 63) → d.Placed p) ∧
      (d.Placed p → ∃ y : Tensor Binary32, maxPool x p = .ok y ∧ y.shape = out ∧ y.WellFormed ∧
        (∀ image < d.n, ∀ channel < d.c, ∀ oy < d.outH, ∀ ox < d.outW,
          d.Greatest p x image channel oy ox (y.element image channel oy ox) ∨
            (∀ iy ix, ¬ d.Covers p oy ox iy ix) ∧
              y.element image channel oy ox = .negInfinity) ∧
        ((∀ oy < d.outH, ∀ ox < d.outW, ∃ iy ix, d.Covers p oy ox iy ix) ↔
          (0 < d.h ∧ p.padding.vertical < p.kernel.vertical) ∧
            0 < d.w ∧ p.padding.horizontal < p.kernel.horizontal) ∧
        ((∀ v ∈ x.data, v.isFinite = true) →
          ((∀ v ∈ y.data, v.isFinite = true) ↔ d.n = 0 ∨ d.c = 0 ∨
            (0 < d.h ∧ p.padding.vertical < p.kernel.vertical) ∧
              0 < d.w ∧ p.padding.horizontal < p.kernel.horizontal))) := by
  obtain ⟨d, hd, hin, rfl⟩ := PoolParams.outputShape_eq_ok.1 hout
  refine ⟨d, hin, rfl, maxPool_of_not_placed hd hin, hd.placed, fun hplaced => ?_⟩
  obtain ⟨y, hy, hshape, hwell⟩ := exists_maxPool hd hin hx hplaced
  have hcells := hy
  rw [maxPool_eq hd hin] at hcells
  obtain ⟨data, hdata, rfl⟩ := Outcome.map_eq_ok.1 hcells
  have helement : ∀ image < d.n, ∀ channel < d.c, ∀ oy < d.outH, ∀ ox < d.outW,
      ∃ v ∈ data, d.cell p x image channel oy ox = .ok v ∧
        Tensor.element ⟨d.output, data⟩ image channel oy ox = v := by
    intro image himage channel hchannel oy hoy ox hox
    obtain ⟨v, hv, hcell⟩ := Tensor.exists_of_cells hdata himage hchannel hoy hox
    refine ⟨v, Array.mem_of_getElem? hv, hcell, ?_⟩
    rw [Tensor.element, Array.getD_eq_getD_getElem?]
    exact congrArg (Option.getD · 0) hv
  refine ⟨_, hy, hshape, hwell, ?_, hd.covered_iff, fun hfinite => ?_⟩
  · intro image himage channel hchannel oy hoy ox hox
    obtain ⟨v, -, hcell, rfl⟩ := helement image himage channel hchannel oy hoy ox hox
    exact PoolDims.greatest_or_of_cell hnan hin hcell
  · rw [← hd.covered_iff]
    constructor
    · intro hall
      by_contra hnot
      simp only [not_or, not_forall] at hnot
      obtain ⟨hn, hc, oy, hoy, ox, hox, hempty⟩ := hnot
      obtain ⟨v, hv, hcell, -⟩ := helement 0 (Nat.pos_of_ne_zero hn) 0 (Nat.pos_of_ne_zero hc)
        oy hoy ox hox
      rcases PoolDims.greatest_or_of_cell hnan hin hcell with hgreatest | ⟨-, rfl⟩
      · obtain ⟨iy, ix, hcovers, -⟩ := hgreatest.covered
        exact hempty ⟨iy, ix, hcovers⟩
      · exact absurd (hall _ hv) (by decide)
    · intro hcovered v hv
      obtain ⟨i, hi, rfl⟩ := Array.mem_iff_getElem.1 hv
      obtain ⟨hsize, hcell⟩ := Tensor.cells_eq_ok.1 hdata
      obtain ⟨himage, hchannel, hoy, hox⟩ := Tensor.coordinates_lt (hsize ▸ hi)
      rcases hcovered with hn | hc | hcovered
      · exact absurd (hn ▸ himage) (Nat.not_lt_zero _)
      · exact absurd (hc ▸ hchannel) (Nat.not_lt_zero _)
      · rcases PoolDims.greatest_or_of_cell hnan hin (hcell i hi) with hgreatest | ⟨hempty, -⟩
        · obtain ⟨iy, ix, -, heq⟩ := hgreatest.covered
          rw [← heq]
          exact PoolDims.of_forall_mem_data hfinite (by decide) _ _ iy ix
        · obtain ⟨iy, ix, hcovers⟩ := hcovered _ hoy _ hox
          exact absurd hcovers (hempty iy ix)

/-- One image of one channel and one cell, which holds minus three. -/
def minusThree : Tensor Binary32 := ⟨⟨[1, 1, 1, 1]⟩, #[⟨0xc0400000⟩]⟩

/-- A window of one cell; the image is padded by one cell on each side. -/
def paddedPool : PoolParams := ⟨⟨1, 1⟩, ⟨1, 1⟩, ⟨1, 1⟩⟩

/-- The extents of this pooling. -/
def paddedDims : PoolDims := ⟨1, 1, 1, 1, 3, 3⟩

theorem covers_padded {oy ox iy ix : Nat} :
    paddedDims.Covers paddedPool oy ox iy ix ↔ oy = 1 ∧ ox = 1 ∧ iy = 0 ∧ ix = 0 := by
  simp only [PoolDims.Covers, Window.Covers, PoolParams.rowWindow, PoolParams.colWindow,
    paddedPool, paddedDims]
  omega

/-- Only the window in the middle meets the image. -/
theorem maxPool_windows_padded :
    ∃ y, maxPool minusThree paddedPool = .ok y ∧ y.element 0 0 1 1 = minusThree.element 0 0 0 0 ∧
      y.element 0 0 0 0 = .negInfinity := by
  have hshape : paddedPool.outputShape minusThree.shape = .ok paddedDims.output := by decide
  obtain ⟨d, hin, hout, -, hsmall, hplaced⟩ := maxPool_windows rfl (by decide) hshape
  obtain rfl : d = paddedDims := by
    obtain ⟨n, c, h, w, outH, outW⟩ := d
    simp only [PoolDims.input, minusThree, Shape.mk.injEq, List.cons.injEq, and_true] at hin
    simp only [PoolDims.output, paddedDims, Shape.mk.injEq, List.cons.injEq, and_true] at hout
    obtain ⟨rfl, rfl, rfl, rfl⟩ := hin
    obtain ⟨-, -, rfl, rfl⟩ := hout
    rfl
  obtain ⟨y, hy, -, -, hcells, -⟩ := hplaced (hsmall fun _ => by decide)
  refine ⟨y, hy, ?_, ?_⟩
  · rcases hcells 0 (by decide) 0 (by decide) 1 (by decide) 1 (by decide) with hgreatest | hempty
    · obtain ⟨iy, ix, hcovers, heq⟩ := hgreatest.covered
      obtain ⟨-, -, rfl, rfl⟩ := covers_padded.1 hcovers
      exact heq.symm
    · exact absurd (covers_padded.2 ⟨rfl, rfl, rfl, rfl⟩) (hempty.1 0 0)
  · rcases hcells 0 (by decide) 0 (by decide) 0 (by decide) 0 (by decide) with hgreatest | hempty
    · obtain ⟨iy, ix, hcovers, -⟩ := hgreatest.covered
      obtain ⟨hoy, -⟩ := covers_padded.1 hcovers
      cases hoy
    · exact hempty.2

/-- **A cell of a max pooling need not be an element of the image.** -/
theorem not_forall_covered :
    ¬ ∀ (x : Tensor Binary32) (p : PoolParams) (d : PoolDims), x.WellFormed →
      (∀ v ∈ x.data, v.isNaN = false) → x.shape = d.input →
      p.outputShape d.input = .ok d.output →
      ∃ y, maxPool x p = .ok y ∧
        ∀ image < d.n, ∀ channel < d.c, ∀ oy < d.outH, ∀ ox < d.outW, ∃ iy ix,
          d.Covers p oy ox iy ix ∧
            y.element image channel oy ox = x.element image channel iy ix := by
  intro h
  obtain ⟨y, -, hcells⟩ := h minusThree paddedPool paddedDims rfl (by decide) rfl (by decide)
  obtain ⟨iy, ix, hcovers, -⟩ := hcells 0 (by decide) 0 (by decide) 0 (by decide) 0 (by decide)
  obtain ⟨hoy, -⟩ := covers_padded.1 hcovers
  cases hoy

end Kernel

end NetPack
