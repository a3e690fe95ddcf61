import NetPack.Proofs.Kernels.Cells

/-!
# Convolutions

`ConvDims` names the extents that meet in a convolution and `ConvDims.Fit` says which of them go
together; `ConvParams.outputShape` has a value exactly for those (`ConvParams.outputShape_eq_ok`).

Every cell of the result is a sum of products (`ConvDims.cell`), and the whole convolution is the
array of its cells (`Kernel.conv_eq`). All positions that a cell reads lie in the images and in the
filters (`ConvDims.Fit.term_lt`), so a convolution of well-formed tensors has a result
(`Kernel.exists_conv`), unless its windows cannot be placed: `ConvDims.Placed` says which can. All
of them can be placed in a release build, and in a checked build if no axis is longer than `2 ^ 63`
with its padding (`ConvDims.Fit.placed`).
-/

namespace NetPack

namespace Window

/-- The window fits an axis and takes a number of positions on it. -/
def FitsOn [Build] (w : Window) (extent positions : Nat) : Prop :=
  ∃ m, padded? w.padding extent = some m ∧ w.size ≤ m ∧ w.positions m = some positions

theorem padded?_lt {padding extent m : Nat} (h : padded? padding extent = some m) :
    m < Word.modulus := by
  obtain ⟨_, -, h⟩ := Option.bind_eq_some_iff.1 h
  exact (Word.add?_eq_some_iff.1 h).2

variable [Build] {w : Window} {extent positions : Nat}

/-- A window that has cells takes at least one position on an axis that it fits. -/
theorem FitsOn.pos (h : w.FitsOn extent positions) (hs : 0 < w.size) : 0 < positions := by
  obtain ⟨m, hm, hle, hpositions⟩ := h
  have hlt := padded?_lt hm
  have hdiv : (m - w.size) / w.stride ≤ m - w.size := Nat.div_le_self _ _
  rw [Window.positions] at hpositions
  generalize (m - w.size) / w.stride = q at hdiv hpositions
  rw [Word.settle_of_lt (by omega)] at hpositions
  rw [← Option.some.inj hpositions]
  exact Nat.succ_pos q

/-- A position keeps the window on the padded axis. -/
theorem FitsOn.end_le {pos : Nat} (h : w.FitsOn extent positions) (hpos : pos < positions) :
    pos * w.stride + w.size ≤ extent + 2 * w.padding ∧ extent + 2 * w.padding < Word.modulus := by
  obtain ⟨m, hm, hle, hpositions⟩ := h
  obtain ⟨doubled, hdoubled, hsum⟩ := Option.bind_eq_some_iff.1 hm
  obtain ⟨rfl, -⟩ := Word.mul?_eq_some_iff.1 hdoubled
  obtain ⟨rfl, hlt⟩ := Word.add?_eq_some_iff.1 hsum
  have hcount : positions ≤ (w.padding * 2 + extent - w.size) / w.stride + 1 := by
    rw [Word.eq_wrap_of_settle hpositions]
    exact Nat.mod_le _ _
  have hquotient : pos ≤ (w.padding * 2 + extent - w.size) / w.stride := by omega
  have hstart : pos * w.stride ≤ w.padding * 2 + extent - w.size :=
    (Nat.mul_le_mul_right _ hquotient).trans (Nat.div_mul_le_self _ _)
  omega

/-- The build can place every cell of the window at position `pos`. -/
def Placed (w : Window) (pos : Nat) : Prop :=
  Build.checks = true → ∀ k < w.size, w.wrapsAt (pos * w.stride + k) = false

instance (w : Window) (pos : Nat) : Decidable (w.Placed pos) :=
  inferInstanceAs (Decidable (_ → _))

theorem taps?_of_placed {pos : Nat} (h : w.Placed pos) :
    w.taps? extent pos = some (w.taps extent pos) := by
  refine if_neg fun hwraps => ?_
  obtain ⟨hchecks, hany⟩ := Bool.and_eq_true_iff.1 hwraps
  obtain ⟨k, hk, hwrap⟩ := List.any_eq_true.1 hany
  simp [h hchecks k (List.mem_range.1 hk)] at hwrap

theorem taps?_of_not_placed {pos : Nat} (h : ¬ w.Placed pos) : w.taps? extent pos = none := by
  refine if_pos ?_
  simp only [Placed, Classical.not_imp, not_forall] at h
  obtain ⟨hchecks, k, hk, hwrap⟩ := h
  refine Bool.and_eq_true_iff.2 ⟨hchecks, List.any_eq_true.2 ⟨k, List.mem_range.2 hk, ?_⟩⟩
  exact Bool.of_not_eq_false hwrap

/-- No place on an axis of at most `2 ^ 63` cells is negative as a signed word. -/
theorem FitsOn.placed {pos : Nat} (h : w.FitsOn extent positions)
    (hsmall : Build.checks = true → extent + 2 * w.padding ≤ Word.signBit)
    (hpos : pos < positions) :
    w.Placed pos := by
  intro hchecks k hk
  have hend := (h.end_le hpos).1
  have hlength := hsmall hchecks
  have hplace : ¬ Word.signBit ≤ pos * w.stride + k := by omega
  simp [wrapsAt, hplace]

end Window

/-- The extents of a convolution. -/
structure ConvDims where
  /-- Number of images. -/
  n : Nat
  /-- Channels of an image. -/
  c : Nat
  /-- Height of an image. -/
  h : Nat
  /-- Width of an image. -/
  w : Nat
  /-- Number of filters, which is the number of channels of the result. -/
  o : Nat
  /-- Channels of a filter. -/
  depth : Nat
  /-- Height of a filter. -/
  kh : Nat
  /-- Width of a filter. -/
  kw : Nat
  /-- Height of the result. -/
  outH : Nat
  /-- Width of the result. -/
  outW : Nat

namespace ConvDims

variable (d : ConvDims) (p : ConvParams)

/-- The shape of the images. -/
def input : Shape := ⟨[d.n, d.c, d.h, d.w]⟩

/-- The shape of the filters. -/
def weight : Shape := ⟨[d.o, d.depth, d.kh, d.kw]⟩

/-- The shape of the result. -/
def output : Shape := ⟨[d.n, d.o, d.outH, d.outW]⟩

/-- The window along the height. -/
def rowWindow : Window := ⟨d.kh, p.stride.vertical, p.padding.vertical⟩

/-- The window along the width. -/
def colWindow : Window := ⟨d.kw, p.stride.horizontal, p.padding.horizontal⟩

/-- The extents go together. -/
structure Fit [Build] : Prop where
  groups_ne : p.groups ≠ 0
  stride : p.stride.hasZero = false
  channels : d.c % p.groups = 0
  filters : d.o % p.groups = 0
  depth_eq : d.c / p.groups = d.depth
  rows : (d.rowWindow p).FitsOn d.h d.outH
  cols : (d.colWindow p).FitsOn d.w d.outW
  bytes : (d.output.numBytes? .f32).isSome

/-- The first input channel of the group of an output channel. -/
def firstChannel (channel : Nat) : Nat := channel / (d.o / p.groups) * d.depth

/-- The pairs of positions in the images and in the filters that meet at one cell of the result. -/
def terms (image channel oy ox : Nat) : List (Nat × Nat) :=
  (List.range d.depth).flatMap fun i =>
    ((d.rowWindow p).taps d.h oy).flatMap fun (ky, iy) =>
      ((d.colWindow p).taps d.w ox).map fun (kx, ix) =>
        (((image * d.c + (d.firstChannel p channel + i)) * d.h + iy) * d.w + ix,
          ((channel * d.depth + i) * d.kh + ky) * d.kw + kx)

/-- The build can place the windows of one cell of the result. Columns are only placed if a row lies
on the images, and rows only if there is a channel. -/
def PlacedAt [Build] (oy ox : Nat) : Prop :=
  d.depth = 0 ∨ (d.rowWindow p).Placed oy ∧
    ((d.rowWindow p).taps d.h oy = [] ∨ (d.colWindow p).Placed ox)

instance [Build] (oy ox : Nat) : Decidable (d.PlacedAt p oy ox) :=
  inferInstanceAs (Decidable (_ ∨ _))

/-- The build can place the windows of every cell of the result. -/
def Placed [Build] : Prop :=
  ∀ image < d.n, ∀ channel < d.o, ∀ oy < d.outH, ∀ ox < d.outW, d.PlacedAt p oy ox

instance [Build] : Decidable (d.Placed p) := inferInstanceAs (Decidable (∀ _, _))

variable {d p}

theorem mem_terms {image channel oy ox : Nat} {t : Nat × Nat} :
    t ∈ d.terms p image channel oy ox ↔
      ∃ i < d.depth, ∃ r ∈ (d.rowWindow p).taps d.h oy, ∃ q ∈ (d.colWindow p).taps d.w ox,
        t = (((image * d.c + (d.firstChannel p channel + i)) * d.h + r.2) * d.w + q.2,
          ((channel * d.depth + i) * d.kh + r.1) * d.kw + q.1) := by
  simp only [terms, List.mem_flatMap, List.mem_range, List.mem_map]
  constructor
  · rintro ⟨i, hi, r, hr, q, hq, rfl⟩
    exact ⟨i, hi, r, hr, q, hq, rfl⟩
  · rintro ⟨i, hi, r, hr, q, hq, rfl⟩
    exact ⟨i, hi, r, hr, q, hq, rfl⟩

/-- The number of elements of a filter. -/
def filterSize (d : ConvDims) : Nat := d.depth * d.kh * d.kw

/-- A term lies in the filter of its output channel, and every other channel has a term at the
same place of its own filter. -/
theorem exists_place {image channel oy ox : Nat} {t : Nat × Nat}
    (ht : t ∈ d.terms p image channel oy ox) :
    ∃ r < d.filterSize, t.2 = channel * d.filterSize + r ∧
      ∀ channel', ∃ t' ∈ d.terms p image channel' oy ox, t'.2 = channel' * d.filterSize + r := by
  obtain ⟨i, hi, r, hr, q, hq, rfl⟩ := mem_terms.1 ht
  obtain ⟨hky, -⟩ := Window.mem_taps.1 hr
  obtain ⟨hkx, -⟩ := Window.mem_taps.1 hq
  have hplace : ∀ c, ((c * d.depth + i) * d.kh + r.1) * d.kw + q.1 =
      c * d.filterSize + ((i * d.kh + r.1) * d.kw + q.1) := fun c => by
    rw [filterSize]
    ring
  refine ⟨(i * d.kh + r.1) * d.kw + q.1, mul_add_lt_mul (mul_add_lt_mul hi hky) hkx, hplace _,
    fun channel' => ⟨_, mem_terms.2 ⟨i, hi, r, hr, q, hq, rfl⟩, hplace _⟩⟩

namespace Fit

variable [Build] (hd : d.Fit p)

include hd

theorem c_eq : d.c = p.groups * d.depth := by
  have := Nat.div_add_mod d.c p.groups
  rw [hd.channels, hd.depth_eq] at this
  omega

theorem o_eq : d.o = p.groups * (d.o / p.groups) := by
  have := Nat.div_add_mod d.o p.groups
  rw [hd.filters] at this
  omega

/-- The input channels of a group are channels of the image. -/
theorem channel_lt {channel i : Nat} (hc : channel < d.o) (hi : i < d.depth) :
    d.firstChannel p channel + i < d.c := by
  have hpos : 0 < d.o / p.groups := by
    refine Nat.pos_of_ne_zero fun h => ?_
    have := hd.o_eq
    rw [h, Nat.mul_zero] at this
    omega
  have hgroup : channel / (d.o / p.groups) < p.groups := by
    refine Nat.div_lt_of_lt_mul ?_
    rw [Nat.mul_comm, ← hd.o_eq]
    exact hc
  rw [hd.c_eq]
  exact mul_add_lt_mul hgroup hi

/-- **Every position that a cell reads is in range.** -/
theorem term_lt {image channel oy ox : Nat} (hn : image < d.n) (hc : channel < d.o)
    {t : Nat × Nat} (ht : t ∈ d.terms p image channel oy ox) :
    t.1 < Word.product d.input.dims ∧ t.2 < Word.product d.weight.dims := by
  obtain ⟨i, hi, ⟨ky, iy⟩, hr, ⟨kx, ix⟩, hq, rfl⟩ := mem_terms.1 ht
  obtain ⟨hky, hiy, -⟩ := Window.mem_taps.1 hr
  obtain ⟨hkx, hix, -⟩ := Window.mem_taps.1 hq
  have h₁ := mul_add_lt_mul (mul_add_lt_mul (mul_add_lt_mul hn (hd.channel_lt hc hi)) hiy) hix
  have h₂ := mul_add_lt_mul (mul_add_lt_mul (mul_add_lt_mul hc hi) hky) hkx
  simp only [input, weight, Word.product_cons, Word.product_nil, Nat.mul_one, ← Nat.mul_assoc]
  exact ⟨h₁, h₂⟩

/-- **Where windows can be placed**: everywhere in a release build, and in a checked build on axes
of at most `2 ^ 63` cells. -/
theorem placed (hsmall : Build.checks = true → d.h + 2 * p.padding.vertical ≤ Word.signBit ∧
    d.w + 2 * p.padding.horizontal ≤ Word.signBit) : d.Placed p :=
  fun _ _ _ _ _ hoy _ hox =>
    .inr ⟨hd.rows.placed (fun hchecks => (hsmall hchecks).1) hoy,
      .inr (hd.cols.placed (fun hchecks => (hsmall hchecks).2) hox)⟩

theorem output_positive (hin : d.input.Positive) (hw : d.weight.Positive) : d.output.Positive := by
  simp only [input, weight, output, Shape.positive_mk, List.forall_mem_cons] at hin hw ⊢
  obtain ⟨hn, -⟩ := hin
  obtain ⟨ho, -, hkh, hkw, -⟩ := hw
  exact ⟨hn, ho, hd.rows.pos hkh, hd.cols.pos hkw, by simp⟩

end Fit

end ConvDims

namespace ConvParams

variable {p : ConvParams}

/-- **A shape is computed exactly for extents that go together.** -/
theorem outputShape_eq_ok [Build] {input weight out : Shape} :
    p.outputShape input weight = .ok out ↔
      ∃ d : ConvDims, d.Fit p ∧ input = d.input ∧ weight = d.weight ∧ out = d.output := by
  constructor
  · intro h
    -- Each check that was passed gives one of the conditions.
    simp only [outputShape, Outcome.report_bind] at h
    split at h
    · rename_i n c h' w hin
      split at h
      · rename_i o depth kh kw hweight
        rw [Outcome.ite_eq_ok (by simp), Outcome.ite_eq_ok (by simp)] at h
        obtain ⟨hnonzero, hchannels, h⟩ := h
        split at h
        · rename_i paddedH paddedW hpadded
          rw [Prod.mk.injEq] at hpadded
          rw [Outcome.ite_eq_ok (by simp)] at h
          obtain ⟨hlarger, h⟩ := h
          obtain ⟨outH, hrows, h⟩ := Outcome.bind_eq_ok.1 h
          obtain ⟨outW, hcols, h⟩ := Outcome.bind_eq_ok.1 h
          rw [Outcome.ite_eq_ok (by simp), Outcome.pure_eq_ok_iff] at h
          obtain ⟨hbytes, rfl⟩ := h
          simp only [Bool.or_eq_true, decide_eq_true_eq, not_or, Bool.not_eq_true] at hnonzero
          simp only [Bool.or_eq_true, decide_eq_true_eq, not_or, not_not] at hchannels
          simp only [Bool.or_eq_true, decide_eq_true_eq, not_or, Nat.not_lt] at hlarger
          refine ⟨⟨n, c, h', w, o, depth, kh, kw, outH, outW⟩, ?_,
            Shape.nchw?_eq_some.1 hin, Shape.nchw?_eq_some.1 hweight, rfl⟩
          exact {
            groups_ne := hnonzero.1
            stride := hnonzero.2
            channels := hchannels.1.1
            filters := hchannels.1.2
            depth_eq := hchannels.2
            rows := ⟨paddedH, hpadded.1, hlarger.1, Outcome.orCrash_eq_ok.1 hrows⟩
            cols := ⟨paddedW, hpadded.2, hlarger.2, Outcome.orCrash_eq_ok.1 hcols⟩
            bytes := Option.isSome_iff_ne_none.2 (by simpa [ConvDims.output] using hbytes) }
        · cases h
      · cases h
    · cases h
  · rintro ⟨⟨n, c, h, w, o, depth, kh, kw, outH, outW⟩, hd, rfl, rfl, rfl⟩
    obtain ⟨paddedH, hpadH, hleH, hposH⟩ := hd.rows
    obtain ⟨paddedW, hpadW, hleW, hposW⟩ := hd.cols
    have hbytes := hd.bytes
    have hchannels := hd.channels
    have hfilters := hd.filters
    have hdepth := hd.depth_eq
    simp only [ConvDims.rowWindow, ConvDims.colWindow] at hpadH hpadW hleH hleW hposH hposW
    simp only [ConvDims.output] at hbytes
    simp only [outputShape, ConvDims.input, ConvDims.weight, ConvDims.output, Shape.nchw?,
      Outcome.report_bind, hpadH, hpadW, hposH, hposW, Outcome.orCrash_some, Outcome.ok_bind]
    rw [Outcome.ite_eq_ok (by simp), Outcome.ite_eq_ok (by simp), Outcome.ite_eq_ok (by simp),
      Outcome.ite_eq_ok (by simp)]
    refine ⟨by simp [hd.groups_ne, hd.stride], by simp [hchannels, hfilters, hdepth],
      by simpa using ⟨hleH, hleW⟩, ?_, rfl⟩
    simpa using Option.isSome_iff_ne_none.1 hbytes

end ConvParams

namespace Kernel

variable {α : Type} [Scalar α] {x weight : Tensor α} {bias : Option (Tensor α)} {p : ConvParams}
  {d : ConvDims}

/-- The value that the sum for a cell starts from. -/
def biasAt (bias : Option (Tensor α)) (channel : Nat) : Outcome TensorError α :=
  match bias with
  | some b => b.entry channel
  | none => .ok 0

end Kernel

namespace ConvDims

variable {α : Type} [Scalar α]

/-- A cell of the result. -/
def cell [Build] (d : ConvDims) (p : ConvParams) (x weight : Tensor α) (bias : Option (Tensor α))
    (image channel oy ox : Nat) : Outcome TensorError α := do
  let start ← Kernel.biasAt bias channel
  if d.PlacedAt p oy ox then Kernel.accumulate x weight (d.terms p image channel oy ox) start
  else Outcome.crash

end ConvDims

namespace Kernel

variable {α : Type} [Scalar α] {x weight : Tensor α} {bias : Option (Tensor α)} {p : ConvParams}
  {d : ConvDims}

/-- A sum over given rows and columns. -/
theorem convCell_taps (image channel oy ox : Nat) (start : α) :
    convCell x weight (d.c, d.h, d.w) (d.depth, d.kh, d.kw) image channel
        (d.firstChannel p channel) (some ((d.rowWindow p).taps d.h oy))
        (some ((d.colWindow p).taps d.w ox)) start =
      accumulate x weight (d.terms p image channel oy ox) start := by
  simp only [convCell, accumulate, ConvDims.terms, Outcome.foldlM_flatMap, List.foldlM_map]
  rfl

theorem convCell_eq [Build] (image channel oy ox : Nat) (start : α) :
    convCell x weight (d.c, d.h, d.w) (d.depth, d.kh, d.kw) image channel
        (d.firstChannel p channel) ((d.rowWindow p).taps? d.h oy) ((d.colWindow p).taps? d.w ox)
        start =
      if d.PlacedAt p oy ox then accumulate x weight (d.terms p image channel oy ox) start
      else Outcome.crash := by
  -- The rows are looked at once there is an input channel, and the columns once there is a row.
  cases hdepth : d.depth with
  | zero => simp [ConvDims.PlacedAt, ConvDims.terms, accumulate, convCell, hdepth]
  | succ depth =>
    by_cases hrows : (d.rowWindow p).Placed oy
    · rw [Window.taps?_of_placed hrows, ← hdepth]
      by_cases hcols : (d.colWindow p).Placed ox
      · rw [if_pos (.inr ⟨hrows, .inr hcols⟩), Window.taps?_of_placed hcols, convCell_taps]
      · rw [Window.taps?_of_not_placed hcols]
        cases htaps : (d.rowWindow p).taps d.h oy with
        | nil =>
          rw [if_pos (.inr ⟨hrows, .inl htaps⟩), ← convCell_taps, htaps]
          rfl
        | cons row rows =>
          rw [if_neg (by simp [ConvDims.PlacedAt, hdepth, htaps, hcols]), convCell, hdepth,
            List.range_succ_eq_map]
          rfl
    · rw [if_neg (by simp [ConvDims.PlacedAt, hdepth, hrows]), Window.taps?_of_not_placed hrows,
        convCell, List.range_succ_eq_map]
      rfl

theorem exists_biasAt [Build] (hb : ∀ b ∈ bias, b.shape.numElements = some d.o ∧ b.Sized)
    {channel : Nat} (hc : channel < d.o) : ∃ v, biasAt bias channel = .ok v := by
  cases bias with
  | none => exact ⟨0, rfl⟩
  | some b =>
    obtain ⟨hnum, hsized⟩ := hb b rfl
    have hlt : channel < b.data.size := by rwa [hsized.size_eq_of_count hnum]
    exact ⟨_, Tensor.entry_of_lt hlt⟩

/-- **A convolution is the array of its cells.** -/
theorem conv_eq [Build] (hd : d.Fit p) (hx : x.shape = d.input) (hw : weight.shape = d.weight)
    (hb : ∀ b ∈ bias, b.shape.numElements = some d.o) :
    conv x weight bias p =
      (fun data => ⟨d.output, data⟩) <$>
        Tensor.cells d.n d.o d.outH d.outW (d.cell p x weight bias) := by
  have hout := ConvParams.outputShape_eq_ok.2 ⟨d, hd, hx, hw, rfl⟩
  have hcell : (fun image channel oy ox => do
      let start ← biasAt bias channel
      convCell x weight (d.c, d.h, d.w) (d.depth, d.kh, d.kw) image channel
        (channel / (d.o / p.groups) * d.depth)
        ((d.rowWindow p).taps? d.h oy) ((d.colWindow p).taps? d.w ox) start) =
      d.cell p x weight bias := by
    funext image channel oy ox
    simp only [ConvDims.cell]
    exact bind_congr fun start => convCell_eq image channel oy ox start
  rw [conv, hout]
  simp only [hx, hw, ConvDims.input, ConvDims.weight, ConvDims.output, Shape.nchw?]
  rw [← hcell]
  cases bias with
  | none => rfl
  | some b =>
    simp only [hb b rfl, Outcome.orCrash_some, Outcome.ok_bind, ne_eq, not_true_eq_false, if_false]
    rfl

/-- All positions that the cells read are in range. -/
def InRange (d : ConvDims) (p : ConvParams) (x weight : Tensor α) : Prop :=
  ∀ image < d.n, ∀ channel < d.o, ∀ oy < d.outH, ∀ ox < d.outW,
    ∀ t ∈ d.terms p image channel oy ox, t.1 < x.data.size ∧ t.2 < weight.data.size

omit [Scalar α] in
theorem inRange_of_size_eq [Build] (hd : d.Fit p) (hx : x.shape = d.input)
    (hw : weight.shape = d.weight)
    (hxs : x.data.size = Word.product x.shape.dims)
    (hws : weight.data.size = Word.product weight.shape.dims) : InRange d p x weight := by
  intro image himage channel hchannel oy _ ox _ t ht
  rw [hxs, hws, hx, hw]
  exact hd.term_lt himage hchannel ht

omit [Scalar α] in
theorem inRange_of_wellFormed [Build] (hd : d.Fit p) (hx : x.shape = d.input)
    (hw : weight.shape = d.weight)
    (hxs : x.WellFormed) (hws : weight.WellFormed) : InRange d p x weight :=
  inRange_of_size_eq hd hx hw hxs.size_eq hws.size_eq

/-- The value of a cell whose positions are in range. -/
def cellValue (d : ConvDims) (p : ConvParams) (x weight : Tensor α)
    (image channel oy ox : Nat) (start : α) : α :=
  (d.terms p image channel oy ox).foldl (fun acc t => acc + productAt x weight t) start

/-- **When a convolution has a result, and which one.** -/
theorem conv_eq_ok [Build] {y : Tensor α} :
    conv x weight bias p = .ok y ↔ ∃ d : ConvDims, d.Fit p ∧ x.shape = d.input ∧
      weight.shape = d.weight ∧ (∀ b ∈ bias, b.shape.numElements = some d.o) ∧ y.shape = d.output ∧
        y.data.size = d.n * d.o * d.outH * d.outW ∧ ∀ i (hi : i < y.data.size),
          Tensor.cellAt d.o d.outH d.outW (d.cell p x weight bias) i = .ok y.data[i] := by
  constructor
  · intro h
    have hout := h
    rw [conv] at hout
    obtain ⟨out, hout, hrest⟩ := Outcome.bind_eq_ok.1 hout
    obtain ⟨d, hd, hx, hw, rfl⟩ := ConvParams.outputShape_eq_ok.1 hout
    have hb : ∀ b ∈ bias, b.shape.numElements = some d.o := by
      rintro b rfl
      simp only [hx, hw, ConvDims.input, ConvDims.weight, ConvDims.output, Shape.nchw?] at hrest
      obtain ⟨count, hcount, hrest⟩ := Outcome.bind_eq_ok.1 hrest
      rw [Outcome.report_bind, Outcome.ite_eq_ok (by simp), not_not] at hrest
      rw [Outcome.orCrash_eq_ok.1 hcount, hrest.1]
    rw [conv_eq hd hx hw hb] at h
    obtain ⟨data, hdata, rfl⟩ := Outcome.map_eq_ok.1 h
    obtain ⟨hsize, hcell⟩ := Tensor.cells_eq_ok.1 hdata
    exact ⟨d, hd, hx, hw, hb, rfl, hsize, hcell⟩
  · rintro ⟨d, hd, hx, hw, hb, hshape, hsize, hcell⟩
    rw [conv_eq hd hx hw hb]
    refine Outcome.map_eq_ok.2 ⟨y.data, Tensor.cells_eq_ok.2 ⟨hsize, hcell⟩, ?_⟩
    rw [← hshape]

theorem cell_eq_ok [Build] {image channel oy ox : Nat} {v : α} :
    d.cell p x weight bias image channel oy ox = .ok v ↔
      d.PlacedAt p oy ox ∧ ∃ start, biasAt bias channel = .ok start ∧
        (∀ t ∈ d.terms p image channel oy ox, t.1 < x.data.size ∧ t.2 < weight.data.size) ∧
          cellValue d p x weight image channel oy ox start = v := by
  by_cases hplaced : d.PlacedAt p oy ox
  · simp only [ConvDims.cell, if_pos hplaced, Outcome.bind_eq_ok]
    rw [and_iff_right hplaced]
    exact exists_congr fun start => and_congr_right fun _ => accumulate_eq_ok
  · simp [ConvDims.cell, hplaced, Outcome.bind_eq_ok]

/-- The cells at all coordinates have values if those at all positions do. -/
theorem exists_cell [Build] (hcell : ∀ i < d.n * d.o * d.outH * d.outW, ∃ v,
    Tensor.cellAt d.o d.outH d.outW (d.cell p x weight bias) i = .ok v) {image channel oy ox : Nat}
    (himage : image < d.n) (hchannel : channel < d.o) (hoy : oy < d.outH) (hox : ox < d.outW) :
    ∃ v, d.cell p x weight bias image channel oy ox = .ok v := by
  have hindex := hcell (((image * d.o + channel) * d.outH + oy) * d.outW + ox)
    (mul_add_lt_mul (mul_add_lt_mul (mul_add_lt_mul himage hchannel) hoy) hox)
  rwa [Tensor.cellAt_index hchannel hoy hox] at hindex

/-- A cell that has a value has read all of its positions. -/
theorem inRange_of_cells [Build] (hcell : ∀ i < d.n * d.o * d.outH * d.outW, ∃ v,
    Tensor.cellAt d.o d.outH d.outW (d.cell p x weight bias) i = .ok v) :
    InRange d p x weight := by
  intro image himage channel hchannel oy hoy ox hox
  obtain ⟨v, hv⟩ := exists_cell hcell himage hchannel hoy hox
  obtain ⟨-, _, -, hrange, -⟩ := cell_eq_ok.1 hv
  exact hrange

/-- The windows of a cell that has a value have been placed. -/
theorem placed_of_cells [Build] (hcell : ∀ i < d.n * d.o * d.outH * d.outW, ∃ v,
    Tensor.cellAt d.o d.outH d.outW (d.cell p x weight bias) i = .ok v) : d.Placed p := by
  intro image himage channel hchannel oy hoy ox hox
  obtain ⟨v, hv⟩ := exists_cell hcell himage hchannel hoy hox
  exact (cell_eq_ok.1 hv).1

/-- A convolution whose windows can be placed and whose positions are all in range has a result. -/
theorem exists_conv [Build] (bias : Option (Tensor α)) (hd : d.Fit p) (hx : x.shape = d.input)
    (hw : weight.shape = d.weight) (hrange : InRange d p x weight)
    (hplaced : d.Placed p) (hb : ∀ b ∈ bias, b.shape.numElements = some d.o ∧ b.Sized) :
    ∃ y, conv x weight bias p = .ok y ∧ y.shape = d.output ∧ y.WellFormed := by
  have hcell : ∀ image < d.n, ∀ channel < d.o, ∀ oy < d.outH, ∀ ox < d.outW,
      ∃ v, d.cell p x weight bias image channel oy ox = .ok v := by
    intro image himage channel hchannel oy hoy ox hox
    obtain ⟨start, hstart⟩ := exists_biasAt hb hchannel
    exact ⟨_, cell_eq_ok.2 ⟨hplaced image himage channel hchannel oy hoy ox hox,
      start, hstart, hrange image himage channel hchannel oy hoy ox hox, rfl⟩⟩
  obtain ⟨data, hdata⟩ := Tensor.exists_cells hcell
  refine ⟨⟨d.output, data⟩, ?_, rfl, ?_⟩
  · rw [conv_eq hd hx hw fun b hb' => (hb b hb').1, hdata]
    rfl
  · refine Tensor.wellFormed_of_numBytes? hd.bytes ?_
    rw [(Tensor.cells_eq_ok.1 hdata).1]
    simp [ConvDims.output, Nat.mul_assoc]

theorem silent_cell [Build] (image channel oy ox : Nat) :
    Outcome.Silent (d.cell p x weight bias image channel oy ox) := by
  refine Outcome.Silent.bind ?_ fun start => ?_
  · cases bias with
    | none => exact Outcome.silent_ok 0
    | some b => exact Outcome.silent_entry b.data channel
  · split
    · exact silent_accumulate _ start
    · exact Outcome.silent_crash

/-- A convolution one of whose windows cannot be placed breaks off. -/
theorem conv_of_not_placed [Build] (hd : d.Fit p) (hx : x.shape = d.input)
    (hw : weight.shape = d.weight) (hb : ∀ b ∈ bias, b.shape.numElements = some d.o)
    (hplaced : ¬ d.Placed p) : conv x weight bias p = Outcome.crash := by
  simp only [ConvDims.Placed, not_forall] at hplaced
  obtain ⟨image, himage, channel, hchannel, oy, hoy, ox, hox, hnot⟩ := hplaced
  have hcell : d.cell p x weight bias image channel oy ox = Outcome.crash :=
    (silent_cell image channel oy ox).eq_crash fun v hv => hnot (cell_eq_ok.1 hv).1
  rw [conv_eq hd hx hw hb, Tensor.cells_eq_crash silent_cell himage hchannel hoy hox hcell]
  rfl

end Kernel

end NetPack
