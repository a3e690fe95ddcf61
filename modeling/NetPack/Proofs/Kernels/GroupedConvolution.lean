import Mathlib.Data.List.ProdSigma
import NetPack.Proofs.Kernels.Convolution

/-!
# Grouped convolution

What a convolution computes, said with the coordinates of its operands. Output channel `o` belongs
to group `o / (O / groups)` and reads the `C / groups` input channels of that group. Cell `ky` of
the filter lies on row `y * stride + ky - padding` of the images, which may be no row of theirs
(`ConvParams.row`), and columns are alike. `ConvParams.grouped` adds the products of all cells that
lie on the images, input channels outermost, then rows, then columns.

A convolution of tensors that hold what their shapes say has a result of the inferred shape, every
position that it computes is in range, and every element of the result is this sum
(`Kernel.conv_eq_grouped`). Where it is decided in signed 64-bit words which rows and columns are on
the images, it is decided as the exact coordinates do, for extents below `2 ^ 63`
(`Window.FitsOn.signed_iff`).
-/

namespace NetPack

/-- The number that the low 64 bits of a number stand for in two's complement. -/
def Word.signed (v : Int) : Int := v.bmod modulus

/-- The row-major position of coordinates in a shape with four axes. -/
def Shape.position (s : Shape) (a b y x : Nat) : Nat :=
  match s.dims with
  | [_, c, h, w] => ((a * c + b) * h + y) * w + x
  | _ => 0

/-- The element at the coordinates of a tensor with four axes. -/
def Tensor.element {α : Type} [Zero α] (t : Tensor α) (a b y x : Nat) : α :=
  t.data.getD (t.shape.position a b y x) 0

namespace ConvParams

variable {α : Type} [Scalar α] (p : ConvParams)

/-- The row of the images on which a row of the filter lies. It may be no row of theirs. -/
def row (oy ky : Nat) : Int := oy * p.stride.vertical + ky - p.padding.vertical

/-- The column of the images on which a column of the filter lies. -/
def column (ox kx : Nat) : Int := ox * p.stride.horizontal + kx - p.padding.horizontal

/-- The input channel that is the `i`-th one of the group of an output channel. -/
def inputChannel (d : ConvDims) (channel i : Nat) : Nat :=
  channel / (d.o / p.groups) * (d.c / p.groups) + i

/-- The cells of a filter that lie on the images: input channels outermost, then rows, then
columns. -/
def inside (d : ConvDims) (oy ox : Nat) : List (Nat × Nat × Nat) :=
  (List.range d.depth ×ˢ List.range d.kh ×ˢ List.range d.kw).filter fun (_, ky, kx) =>
    (0 ≤ p.row oy ky ∧ p.row oy ky < d.h) ∧ 0 ≤ p.column ox kx ∧ p.column ox kx < d.w

/-- A start value plus the products of all cells of a filter that lie on the images, from left to
right. -/
def grouped (d : ConvDims) (x weight : Tensor α) (image channel oy ox : Nat) (start : α) : α :=
  (p.inside d oy ox).foldl (fun acc (i, ky, kx) =>
    acc + x.element image (p.inputChannel d channel i) (p.row oy ky).toNat (p.column ox kx).toNat *
      weight.element channel i ky kx) start

end ConvParams

/-- The cells of a product that pass two tests, one for each side. -/
theorem filter_product {β γ : Type} (l : List β) (l' : List γ) (f : β → Bool) (g : γ → Bool) :
    (l ×ˢ l').filter (fun t => f t.1 && g t.2) = l.filter f ×ˢ l'.filter g := by
  induction l with
  | nil => rfl
  | cons b l ih =>
    rw [List.product_cons, List.filter_append, ih, List.filter_map]
    cases hb : f b with
    | false => simp [hb, Function.comp_def]
    | true => simp [hb, Function.comp_def, List.product_cons]

/-! ### One axis -/

namespace Window

variable {w : Window} {extent positions pos k : Nat}

/-- The place on the axis where a cell of the window lies. It may be beside the axis. -/
def place (w : Window) (pos k : Nat) : Int := pos * w.stride + k - w.padding

/-- The cells of a window that lie on the axis, with their places. -/
theorem taps_eq_map (w : Window) (extent pos : Nat) :
    w.taps extent pos =
      ((List.range w.size).filter fun k => 0 ≤ w.place pos k ∧ w.place pos k < extent).map
        fun k => (k, (w.place pos k).toNat) := by
  rw [taps, ← List.filterMap_eq_map, List.filterMap_filter]
  refine List.filterMap_congr fun k _ => ?_
  have hplace : w.place pos k = (pos * w.stride + k : Nat) - (w.padding : Int) := by
    rw [place]
    push_cast
    rfl
  generalize pos * w.stride + k = place at hplace ⊢
  dsimp only
  by_cases hin : w.padding ≤ place ∧ place - w.padding < extent
  · have htoNat : place - w.padding = (w.place pos k).toNat := by omega
    rw [if_pos hin, if_pos (by simp; omega), htoNat]
    rfl
  · rw [if_neg hin, if_neg (by simp; omega)]

/-- A cell of a window does not lie behind the padding. -/
theorem FitsOn.place_lt [Build] (h : w.FitsOn extent positions) (hpos : pos < positions)
    (hk : k < w.size) :
    -(w.padding : Int) ≤ w.place pos k ∧ w.place pos k < extent + w.padding ∧
      extent + 2 * w.padding < Word.modulus := by
  have hend := h.end_le hpos
  have hplace : w.place pos k = (pos * w.stride : Nat) + (k : Int) - w.padding := by
    rw [place]
    push_cast
    rfl
  rw [hplace]
  omega

/-- **Signed words decide which cells lie on an axis**, if its length is less than `2 ^ 63`. -/
theorem FitsOn.signed_iff [Build] (h : w.FitsOn extent positions) (hpos : pos < positions)
    (hk : k < w.size) (hextent : extent < 2 ^ 63) :
    (0 ≤ Word.signed (w.place pos k) ∧ Word.signed (w.place pos k) < Word.signed extent) ↔
      0 ≤ w.place pos k ∧ w.place pos k < extent := by
  obtain ⟨hlow, hhigh, hword⟩ := h.place_lt hpos hk
  generalize w.place pos k = place at hlow hhigh ⊢
  simp only [Word.signed, Int.bmod_def, Word.modulus] at *
  omega

end Window

namespace ConvDims

variable {d : ConvDims} {p : ConvParams} {image channel oy ox : Nat}

/-- The pairs of positions that meet at a cell are those of the cells of the filter that lie on the
images. -/
theorem terms_eq_inside [Build] (hd : d.Fit p) :
    d.terms p image channel oy ox = (p.inside d oy ox).map fun (i, ky, kx) =>
      (d.input.position image (p.inputChannel d channel i) (p.row oy ky).toNat
          (p.column ox kx).toNat,
        d.weight.position channel i ky kx) := by
  have hinside : p.inside d oy ox = List.range d.depth ×ˢ
      (List.range d.kh).filter (fun ky => 0 ≤ p.row oy ky ∧ p.row oy ky < d.h) ×ˢ
      (List.range d.kw).filter (fun kx => 0 ≤ p.column ox kx ∧ p.column ox kx < d.w) := by
    have hall : (List.range d.depth).filter (fun _ => true) = List.range d.depth :=
      List.filter_true _
    conv_rhs => rw [← filter_product, ← hall, ← filter_product]
    simp only [ConvParams.inside, Bool.true_and, Bool.decide_and]
  have hchannel : ∀ i, p.inputChannel d channel i = d.firstChannel p channel + i := fun i => by
    rw [ConvParams.inputChannel, hd.depth_eq]
    rfl
  rw [hinside, terms, Window.taps_eq_map, Window.taps_eq_map]
  simp only [SProd.sprod, List.product, List.map_flatMap, List.flatMap_map, List.map_map]
  simp only [Function.comp_def, hchannel]
  rfl

end ConvDims

namespace Kernel

variable {α : Type} [Scalar α] {x weight : Tensor α} {bias : Option (Tensor α)} {p : ConvParams}
  {d : ConvDims}

/-- The value that the sum for a cell starts from: the bias of its channel, or zero. -/
def biasOf (bias : Option (Tensor α)) (channel : Nat) : α :=
  match bias with
  | some b => b.data.getD channel 0
  | none => 0

theorem biasAt_eq_ok {channel : Nat} {v : α} (h : biasAt bias channel = .ok v) :
    (∀ b ∈ bias, channel < b.data.size) ∧ biasOf bias channel = v := by
  cases bias with
  | none => exact ⟨by simp, Except.ok.inj h⟩
  | some b =>
    have hlt := Tensor.lt_of_entry h
    obtain rfl := Except.ok.inj ((Tensor.entry_of_lt hlt).symm.trans h)
    exact ⟨by simpa using hlt, by simp [biasOf, hlt]⟩

theorem cellValue_eq_grouped [Build] (hd : d.Fit p) (hx : x.shape = d.input)
    (hw : weight.shape = d.weight)
    {image channel oy ox : Nat} (start : α) :
    cellValue d p x weight image channel oy ox start =
      p.grouped d x weight image channel oy ox start := by
  rw [cellValue, ConvDims.terms_eq_inside hd, List.foldl_map, ConvParams.grouped]
  simp only [productAt, Tensor.element, hx, hw]

/-- The extents that go together are determined by the shapes. -/
theorem fit_of_outputShape [Build] (h : p.outputShape d.input d.weight = .ok d.output) :
    d.Fit p := by
  obtain ⟨⟨n, c, h', w, o, depth, kh, kw, outH, outW⟩, hd, hin, hweight, hout⟩ :=
    ConvParams.outputShape_eq_ok.1 h
  obtain ⟨n', c', h'', w', o', depth', kh', kw', outH', outW'⟩ := d
  simp only [ConvDims.input, ConvDims.weight, ConvDims.output, Shape.mk.injEq, List.cons.injEq,
    and_true] at hin hweight hout
  obtain ⟨rfl, rfl, rfl, rfl⟩ := hin
  obtain ⟨rfl, rfl, rfl, rfl⟩ := hweight
  obtain ⟨-, -, rfl, rfl⟩ := hout
  exact hd

/-- What is known of one element of the result of a convolution. -/
structure GroupedAt (d : ConvDims) (p : ConvParams) (x weight : Tensor α) (bias : Option (Tensor α))
    (y : Tensor α) (image channel oy ox : Nat) : Prop where
  /-- The position that is written is in range. -/
  output : y.shape.position image channel oy ox < y.data.size
  /-- The bias that is read is in range. -/
  biases : ∀ b ∈ bias, channel < b.data.size
  /-- The positions that are read are in range. -/
  operands : ∀ t ∈ p.inside d oy ox,
    x.shape.position image (p.inputChannel d channel t.1) (p.row oy t.2.1).toNat
        (p.column ox t.2.2).toNat < x.data.size ∧
      weight.shape.position channel t.1 t.2.1 t.2.2 < weight.data.size
  /-- Signed words decide which rows are on the images. -/
  rows : d.h < 2 ^ 63 → ∀ ky < d.kh,
    ((0 ≤ Word.signed (p.row oy ky) ∧ Word.signed (p.row oy ky) < Word.signed d.h) ↔
      0 ≤ p.row oy ky ∧ p.row oy ky < d.h)
  /-- Signed words decide which columns are on the images. -/
  columns : d.w < 2 ^ 63 → ∀ kx < d.kw,
    ((0 ≤ Word.signed (p.column ox kx) ∧ Word.signed (p.column ox kx) < Word.signed d.w) ↔
      0 ≤ p.column ox kx ∧ p.column ox kx < d.w)
  /-- The element is the sum of the products. -/
  value : y.element image channel oy ox =
    p.grouped d x weight image channel oy ox (biasOf bias channel)

/-- The value of a cell whose positions are in range, at its place in the result. -/
theorem groupedAt_of_cell [Build] {y : Tensor α} {image channel oy ox : Nat} {v : α} (hd : d.Fit p)
    (hx : x.shape = d.input) (hw : weight.shape = d.weight) (hrange : InRange d p x weight)
    (himage : image < d.n) (hchannel : channel < d.o) (hoy : oy < d.outH) (hox : ox < d.outW)
    (hv : y.data[y.shape.position image channel oy ox]? = some v)
    (hcell : d.cell p x weight bias image channel oy ox = .ok v) :
    GroupedAt d p x weight bias y image channel oy ox := by
  obtain ⟨-, start, hstart, -, hvalue⟩ := cell_eq_ok.1 hcell
  obtain ⟨hbias, rfl⟩ := biasAt_eq_ok hstart
  obtain ⟨hposition, -⟩ := Array.getElem?_eq_some_iff.1 hv
  refine ⟨hposition, hbias, fun t ht => ?_, fun hh ky hky => ?_, fun hw' kx hkx => ?_, ?_⟩
  · have hmem : (d.input.position image (p.inputChannel d channel t.1) (p.row oy t.2.1).toNat
          (p.column ox t.2.2).toNat, d.weight.position channel t.1 t.2.1 t.2.2) ∈
        d.terms p image channel oy ox := by
      rw [ConvDims.terms_eq_inside hd]
      exact List.mem_map.2 ⟨t, ht, rfl⟩
    rw [hx, hw]
    exact hrange image himage channel hchannel oy hoy ox hox _ hmem
  · exact hd.rows.signed_iff hoy hky hh
  · exact hd.cols.signed_iff hox hkx hw'
  · rw [← cellValue_eq_grouped hd hx hw, hvalue, Tensor.element, Array.getD_eq_getD_getElem?, hv]
    rfl

/-- **A convolution of tensors that hold what their shapes say is the grouped convolution**, and
every position that it computes is in range, if the build can place all of its windows; otherwise it
breaks off. Windows can be placed in every release build, and in a checked build on axes that have
at most `2 ^ 63` cells with their padding. -/
theorem conv_eq_grouped [Build] (hx : x.shape = d.input) (hw : weight.shape = d.weight)
    (hxs : x.data.size = Word.product x.shape.dims)
    (hws : weight.data.size = Word.product weight.shape.dims)
    (hb : ∀ b ∈ bias, b.shape.numElements = some d.o ∧ b.data.size = d.o)
    (hout : p.outputShape x.shape weight.shape = .ok d.output) :
    (d.Placed p → ∃ y, conv x weight bias p = .ok y ∧ y.shape = d.output ∧ y.WellFormed ∧
      ∀ image < d.n, ∀ channel < d.o, ∀ oy < d.outH, ∀ ox < d.outW,
        GroupedAt d p x weight bias y image channel oy ox) ∧
    (¬ d.Placed p → conv x weight bias p = Outcome.crash) ∧
    ((Build.checks = true → d.h + 2 * p.padding.vertical ≤ 2 ^ 63 ∧
      d.w + 2 * p.padding.horizontal ≤ 2 ^ 63) → d.Placed p) := by
  rw [hx, hw] at hout
  have hd := fit_of_outputShape hout
  have hnum : ∀ b ∈ bias, b.shape.numElements = some d.o := fun b hbias => (hb b hbias).1
  refine ⟨fun hplaced => ?_, conv_of_not_placed hd hx hw hnum, hd.placed⟩
  have hsized : ∀ b ∈ bias, b.shape.numElements = some d.o ∧ b.Sized := by
    intro b hbias
    obtain ⟨hcount, hsize⟩ := hb b hbias
    exact ⟨hcount, by rw [Tensor.Sized, hsize, hcount]⟩
  have hrange := inRange_of_size_eq hd hx hw hxs hws
  obtain ⟨y, hy, hshape, hwell⟩ := exists_conv bias hd hx hw hrange hplaced hsized
  refine ⟨y, hy, hshape, hwell, fun image himage channel hchannel oy hoy ox hox => ?_⟩
  rw [conv_eq hd hx hw hnum] at hy
  obtain ⟨data, hdata, rfl⟩ := Outcome.map_eq_ok.1 hy
  obtain ⟨v, hv, hcell⟩ := Tensor.exists_of_cells hdata himage hchannel hoy hox
  exact groupedAt_of_cell hd hx hw hrange himage hchannel hoy hox hv hcell

/-! #### Two groups with a margin -/

/-- Two groups; the columns have one more column at each side. -/
def margin : ConvParams := ⟨⟨1, 1⟩, ⟨0, 1⟩, 2⟩

/-- An image of two channels and two columns, and two filters of one channel and two columns. -/
def marginDims : ConvDims := ⟨1, 2, 1, 2, 2, 1, 1, 2, 1, 3⟩

/-- The image. -/
def marginInput : Tensor Binary32 := ⟨marginDims.input, #[0, 0, 1, Scalar.count 2]⟩

/-- The filters. -/
def marginWeight : Tensor Binary32 := ⟨marginDims.weight, #[0, 0, Scalar.count 4, 1]⟩

/-- The biases. -/
def marginBias : Tensor Binary32 := ⟨.vector 2, #[0, Scalar.count 3]⟩

/-- At the start of the row the first column of the second filter is left out, and at the end the
second one. -/
theorem conv_eq_grouped_margin :
    marginInput.WellFormed ∧ marginWeight.WellFormed ∧ marginBias.WellFormed ∧
      margin.outputShape marginInput.shape marginWeight.shape = .ok ⟨[1, 2, 1, 3]⟩ ∧
      ∃ y, conv marginInput marginWeight (some marginBias) margin = .ok y ∧
        y.element 0 1 0 0 = Scalar.count 3 + 1 * 1 ∧
        y.element 0 1 0 1 = Scalar.count 3 + 1 * Scalar.count 4 + Scalar.count 2 * 1 ∧
        y.element 0 1 0 2 = Scalar.count 3 + Scalar.count 2 * Scalar.count 4 := by
  have hx : marginInput.shape = marginDims.input := rfl
  have hw : marginWeight.shape = marginDims.weight := rfl
  have hb : ∀ b ∈ some marginBias,
      b.shape.numElements = some marginDims.o ∧ b.data.size = marginDims.o := by
    rintro b ⟨⟩
    decide
  have hout : margin.outputShape marginInput.shape marginWeight.shape = .ok marginDims.output := by
    decide
  obtain ⟨hplaced, -, hsmall⟩ := conv_eq_grouped hx hw (by decide) (by decide) hb hout
  obtain ⟨y, hy, -, -, hgrouped⟩ := hplaced (hsmall fun _ => by decide)
  refine ⟨by decide, by decide, by decide, hout, y, hy, ?_, ?_, ?_⟩
  · exact (hgrouped 0 (by decide) 1 (by decide) 0 (by decide) 0 (by decide)).value
  · exact (hgrouped 0 (by decide) 1 (by decide) 0 (by decide) 1 (by decide)).value
  · exact (hgrouped 0 (by decide) 1 (by decide) 0 (by decide) 2 (by decide)).value

/-! #### A place that is negative as a signed word -/

/-- One filter cell, which is moved from one end of a long padding to the other. -/
def farStride : ConvParams := ⟨⟨9223372036854775808, 1⟩, ⟨4611686018427387904, 0⟩, 1⟩

/-- The extents of one pixel, one weight and the two positions of the filter. -/
def farDims : ConvDims := ⟨1, 1, 1, 1, 1, 1, 1, 1, 2, 1⟩

/-- One pixel, or one weight. -/
def onePixel : Tensor Binary32 := ⟨⟨[1, 1, 1, 1]⟩, #[0]⟩

theorem conv_onePixel : conv onePixel onePixel none farStride = Outcome.crash := by
  have hfit : farDims.Fit farStride := fit_of_outputShape (by decide)
  exact conv_of_not_placed hfit rfl rfl (by simp) (by decide)

/-- **A convolution of small tensors may break off**: the second position of the filter is at
`2 ^ 63`, from which the padding cannot be taken away as a signed word. -/
theorem not_forall_conv :
    ¬ ∀ (x weight : Tensor Binary32) (bias : Option (Tensor Binary32)) (p : ConvParams)
      (d : ConvDims), x.WellFormed → weight.WellFormed → x.shape = d.input →
      weight.shape = d.weight →
      (∀ b ∈ bias, b.WellFormed ∧ b.shape.numElements = some d.o) →
      (∀ n ∈ d.input.dims ++ d.weight.dims ++ d.output.dims, n < 2 ^ 63) →
      p.outputShape x.shape weight.shape = .ok d.output →
      ∃ y, conv x weight bias p = .ok y ∧ y.shape = d.output := by
  intro h
  obtain ⟨y, hy, -⟩ := h onePixel onePixel none farStride farDims (by decide) (by decide) rfl rfl
    (by simp) (by decide) (by decide)
  exact Outcome.crash_ne_ok (conv_onePixel.symm.trans hy)

end Kernel

end NetPack
