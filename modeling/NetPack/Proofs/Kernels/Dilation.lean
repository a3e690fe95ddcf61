import NetPack.Proofs.Kernels.Samples
import NetPack.Proofs.Operations

/-!
# Windows with gaps

The cells of a window may stand apart: tap `t` of a window at position `o` lies at
`o * stride + t * dilation - padding`, on the axis or beside it (`DilatedWindow.place`). The number
of positions is the usual quotient (`DilatedWindow.extent`), and a window without gaps is a
`Window`: it meets the same cells (`DilatedWindow.taps_of_dilation`) and takes the same number of
positions (`DilatedWindow.covers_iff`).

A `Geometry` places a window along both axes of an image. `Op.Slides` says what it means for an
operation to slide a window of that geometry, for images of every shape: which shapes are accepted,
the extents of the result, and the cells of the images that every cell of the result is computed
from. A convolution and a pooling slide the windows of their hyper-parameters without gaps
(`Op.slides_conv`, `Op.slides_maxPool`). In a checked build both break off where a window cannot be
placed.
-/

namespace NetPack

/-! ### One axis -/

/-- The placement along one axis of a window whose cells may have gaps between them. -/
structure DilatedWindow extends Window where
  /-- Distance of neighbouring cells of the window. -/
  dilation : Nat

namespace DilatedWindow

/-- Where a cell of the window lies when the window is at position `pos`. Places before the axis are
negative. -/
def place (w : DilatedWindow) (pos tap : Nat) : Int :=
  pos * w.stride + tap * w.dilation - w.padding

/-- The number of positions along an axis. It is not positive if the window is too long. -/
def extent (w : DilatedWindow) (length : Nat) : Int :=
  (length + 2 * w.padding - ((w.size - 1) * w.dilation + 1)) / w.stride + 1

/-- The cells of the window that lie on the axis when the window is at position `pos`, each with the
place where it lies. -/
def taps (w : DilatedWindow) (length pos : Nat) : List (Nat × Nat) :=
  (List.range w.size).filterMap fun tap =>
    if 0 ≤ w.place pos tap ∧ w.place pos tap < length then some (tap, (w.place pos tap).toNat)
    else none

/-- The window takes `positions` positions on an axis whose padded length is a word: as many as the
extent says. Only an extent that is no word is not reached; an empty window has one on the longest
axis, and takes no position there in a release build. -/
structure Covers [Build] (w : DilatedWindow) (length positions : Nat) : Prop where
  stride : w.stride ≠ 0
  padded : length + 2 * w.padding < Word.modulus
  fits : 1 ≤ w.extent length
  word : positions < Word.modulus
  count : positions = w.extent length ∨
    Build.checks = false ∧ w.size = 0 ∧ w.extent length = Word.modulus ∧ positions = 0

variable {w : DilatedWindow} {length pos tap i positions : Nat}

theorem mem_taps :
    (tap, i) ∈ w.taps length pos ↔ tap < w.size ∧ i < length ∧ i = w.place pos tap := by
  simp only [taps, List.mem_filterMap, List.mem_range, Option.ite_none_right_eq_some,
    Option.some.injEq, Prod.mk.injEq]
  constructor
  · rintro ⟨_, htap, ⟨hnonneg, hlt⟩, rfl, rfl⟩
    exact ⟨htap, by omega, Int.toNat_of_nonneg hnonneg⟩
  · rintro ⟨htap, hi, hplace⟩
    exact ⟨tap, htap, by omega, rfl, by omega⟩

/-- Without gaps a window meets the same cells in the same order. -/
theorem taps_of_dilation (h : w.dilation = 1) (length pos : Nat) :
    w.taps length pos = w.toWindow.taps length pos := by
  rw [taps, Window.taps]
  refine List.filterMap_congr fun tap _ => ?_
  have hplace : w.place pos tap = (pos * w.stride + tap : Nat) - (w.padding : Int) := by
    rw [place, h]
    push_cast
    ring
  rw [hplace]
  generalize pos * w.stride + tap = place
  dsimp only
  by_cases hin : w.padding ≤ place ∧ place - w.padding < length
  · rw [if_pos hin, if_pos (by omega)]
    congr
    omega
  · rw [if_neg hin, if_neg (by omega)]

/-- Without gaps, and where it is not too long, the extent is a quotient of natural numbers. -/
theorem extent_of_dilation (h : w.dilation = 1) (hle : w.size ≤ length + 2 * w.padding) :
    w.extent length = ((length + 2 * w.padding - w.size) / w.stride + 1 : Nat) := by
  have hsub : (length : Int) + 2 * w.padding - ((w.size - 1) * (1 : Nat) + 1) =
      ((length + 2 * w.padding - w.size : Nat) : Int) := by
    push_cast [Nat.cast_sub hle]
    ring
  rw [extent, h, hsub]
  push_cast
  rfl

theorem size_le_of_extent (h : w.dilation = 1) (hs : w.stride ≠ 0) (hfits : 1 ≤ w.extent length) :
    w.size ≤ length + 2 * w.padding := by
  by_contra hlt
  have hneg : (length : Int) + 2 * w.padding - ((w.size - 1) * w.dilation + 1) < 0 := by
    rw [h]
    push_cast
    omega
  have hquotient := Int.ediv_neg_of_neg_of_pos hneg (b := w.stride) (by omega)
  rw [extent] at hfits
  omega

/-- **Without gaps a window takes the positions that its extent counts.** -/
theorem covers_iff [Build] (h : w.dilation = 1) (hs : w.stride ≠ 0) :
    w.Covers length positions ↔ w.toWindow.FitsOn length positions := by
  have hpadded : ∀ m, Window.padded? w.padding length = some m ↔
      length + 2 * w.padding = m ∧ m < Word.modulus := by
    intro m
    simp only [Window.padded?, Option.bind_eq_bind, Option.bind_eq_some_iff, Word.mul?_eq_some_iff,
      Word.add?_eq_some_iff]
    constructor
    · rintro ⟨_, ⟨rfl, -⟩, rfl, hlt⟩
      exact ⟨by omega, hlt⟩
    · rintro ⟨rfl, hlt⟩
      exact ⟨_, ⟨rfl, by omega⟩, by omega, hlt⟩
  have hquotient : (length + 2 * w.padding - w.size) / w.stride ≤
      length + 2 * w.padding - w.size := Nat.div_le_self _ _
  constructor
  · rintro ⟨-, hlt, hfits, hword, hcount⟩
    have hle := size_le_of_extent h hs hfits
    rw [extent_of_dilation h hle, Nat.cast_inj, Nat.cast_inj] at hcount
    refine ⟨_, (hpadded _).2 ⟨rfl, hlt⟩, hle, ?_⟩
    rw [Window.positions]
    rcases hcount with rfl | ⟨hrelease, -, hmodulus, rfl⟩
    · exact Word.settle_of_lt hword
    · rw [hmodulus, Word.settle, if_neg (lt_irrefl _), hrelease]
      rfl
  · rintro ⟨m, hm, hle, hpositions⟩
    obtain ⟨rfl, hlt⟩ := (hpadded m).1 hm
    have hextent := extent_of_dilation h hle
    have hfits : 1 ≤ w.extent length := by
      rw [hextent]
      exact_mod_cast Nat.succ_pos _
    rw [Window.positions] at hpositions
    refine ⟨hs, hlt, hfits, Word.eq_wrap_of_settle hpositions ▸ Word.wrap_lt _, ?_⟩
    rw [hextent, Nat.cast_inj, Nat.cast_inj]
    generalize (length + 2 * w.padding - w.size) / w.stride = quotient at hquotient hpositions
    -- The extent is a word, or it is the modulus.
    by_cases hword : quotient + 1 < Word.modulus
    · rw [Word.settle_of_lt hword] at hpositions
      exact .inl (Option.some.inj hpositions).symm
    · obtain hmodulus : quotient + 1 = Word.modulus := by omega
      rw [Word.settle, if_neg hword] at hpositions
      cases hchecks : Build.checks with
      | true => simp [hchecks] at hpositions
      | false =>
        refine .inr ⟨rfl, by omega, hmodulus, ?_⟩
        rw [hchecks, hmodulus] at hpositions
        exact (Option.some.inj hpositions).symm

end DilatedWindow

/-! ### Two axes -/

/-- How a window is placed on images: the numbers of its cells, their distances, the distances of
its positions, and how many cells are added at both ends of an axis. -/
structure Geometry where
  kernel : Axes
  stride : Axes
  padding : Axes
  dilation : Axes

namespace Geometry

variable (G : Geometry)

/-- The window along the height. -/
def rows : DilatedWindow :=
  ⟨⟨G.kernel.vertical, G.stride.vertical, G.padding.vertical⟩, G.dilation.vertical⟩

/-- The window along the width. -/
def cols : DilatedWindow :=
  ⟨⟨G.kernel.horizontal, G.stride.horizontal, G.padding.horizontal⟩, G.dilation.horizontal⟩

variable {G}

theorem stride_hasZero : G.stride.hasZero = false ↔ G.rows.stride ≠ 0 ∧ G.cols.stride ≠ 0 := by
  simp only [Axes.hasZero, Bool.or_eq_false_iff, beq_eq_false_iff_ne]
  rfl

end Geometry

namespace Op

variable {α : Type}

/-- The window that the operation slides is as large as the filters among its parameters, if it has
filters. -/
def SizedBy (op : Op α) (shapes : List Shape) (kernel : Axes) : Prop :=
  match op with
  | conv _ => ∃ o depth bias, shapes = ⟨[o, depth, kernel.vertical, kernel.horizontal]⟩ :: bias
  | _ => True

/-- Images of `c` channels give `o` channels, with parameters of the given shapes. -/
def Admits [Build] (op : Op α) (shapes : List Shape) (c o : Nat) : Prop :=
  match op with
  | conv p => p.groups ≠ 0 ∧ c % p.groups = 0 ∧ o % p.groups = 0 ∧ ∃ kh kw bias,
      shapes = ⟨[o, c / p.groups, kh, kw]⟩ :: bias ∧ bias.length ≤ 1 ∧
        ∀ b ∈ bias, b.numElements = some o
  | maxPool p => p.kernel.hasZero = false ∧ shapes = [] ∧ o = c
  | _ => False

/-- The value of one cell of the result, where the window meets the given rows and columns of an
image. Each is paired with the row or the column of the window that lies there. -/
def cellOver [Scalar α] (op : Op α) (x : Tensor α) (params : List (Tensor α))
    (image channel : Nat) (rows cols : List (Nat × Nat)) : Outcome TensorError α := do
  let some (_, c, h, w) := x.shape.nchw? | Outcome.crash
  match op, params with
  | conv p, weight :: bias => do
    let some (o, depth, kh, kw) := weight.shape.nchw? | Outcome.crash
    let start ← Kernel.biasAt bias.head? channel
    Kernel.convCell x weight (c, h, w) (depth, kh, kw) image channel
      (channel / (o / p.groups) * depth) (some rows) (some cols) start
  | maxPool _, [] => Kernel.maxPoolCell x ((image * c + channel) * h * w) w (some rows) (some cols)
  | _, _ => Outcome.crash

/-- **The operation slides a window of the given geometry over images.** It accepts the shapes on
which the window fits, and no others, and the result has the extents of the geometry. Every cell of
the result is computed from those cells of the images that the window meets at its position. Where
the build cannot place the windows, the operation breaks off. -/
structure Slides [Build] [Scalar α] (op : Op α) (G : Geometry) : Prop where
  shape : ∀ {input out : Shape} {shapes : List Shape}, op.SizedBy shapes G.kernel →
    (op.inferShape input shapes = .ok out ↔ ∃ n c h w o outH outW,
      input = ⟨[n, c, h, w]⟩ ∧ out = ⟨[n, o, outH, outW]⟩ ∧ op.Admits shapes c o ∧
        G.rows.Covers h outH ∧ G.cols.Covers w outW ∧ (out.numBytes? .f32).isSome)
  cells : ∀ {x : Tensor α} {params : List (Tensor α)} {n c h w o outH outW : Nat},
    op.SizedBy (params.map (·.shape)) G.kernel → x.WellFormed → (∀ t ∈ params, t.WellFormed) →
    x.shape = ⟨[n, c, h, w]⟩ →
    op.inferShape x.shape (params.map (·.shape)) = .ok ⟨[n, o, outH, outW]⟩ →
    (op.Placed x.shape (params.map (·.shape)) →
      ∃ y, op.execute x params = .ok y ∧ y.shape = ⟨[n, o, outH, outW]⟩ ∧ y.WellFormed ∧
        ∀ image < n, ∀ channel < o, ∀ oy < outH, ∀ ox < outW, ∃ v,
          y.data[((image * o + channel) * outH + oy) * outW + ox]? = some v ∧
            op.cellOver x params image channel (G.rows.taps h oy) (G.cols.taps w ox) = .ok v) ∧
    (¬ op.Placed x.shape (params.map (·.shape)) → op.execute x params = Outcome.crash)

end Op

/-! ### Convolution and pooling -/

namespace Geometry

variable {G : Geometry}

/-- A window without gaps that is placed as the parameters of a pooling say. -/
structure IsPool (G : Geometry) (p : PoolParams) : Prop where
  kernel : p.kernel = G.kernel
  stride : p.stride = G.stride
  padding : p.padding = G.padding
  dilation : G.dilation = ⟨1, 1⟩

/-- A window without gaps that is placed as the parameters of a convolution say. -/
structure IsConv (G : Geometry) (p : ConvParams) : Prop where
  stride : p.stride = G.stride
  padding : p.padding = G.padding
  dilation : G.dilation = ⟨1, 1⟩

theorem dilation_rows (h : G.dilation = ⟨1, 1⟩) : G.rows.dilation = 1 := congrArg Axes.vertical h

theorem dilation_cols (h : G.dilation = ⟨1, 1⟩) : G.cols.dilation = 1 := congrArg Axes.horizontal h

theorem IsPool.windows {p : PoolParams} (h : G.IsPool p) :
    G.rows.toWindow = p.rowWindow ∧ G.cols.toWindow = p.colWindow := by
  rw [PoolParams.rowWindow, PoolParams.colWindow, h.kernel, h.stride, h.padding]
  exact ⟨rfl, rfl⟩

theorem IsConv.windows {p : ConvParams} {d : ConvDims} (h : G.IsConv p)
    (hkernel : G.kernel = ⟨d.kh, d.kw⟩) :
    G.rows.toWindow = d.rowWindow p ∧ G.cols.toWindow = d.colWindow p := by
  rw [ConvDims.rowWindow, ConvDims.colWindow, h.stride, h.padding, rows, cols, hkernel]
  exact ⟨rfl, rfl⟩

/-- The window meets the cells that the pooling visits. -/
theorem IsPool.taps_eq {p : PoolParams} (h : G.IsPool p) (height width oy ox : Nat) :
    G.rows.taps height oy = p.rowWindow.taps height oy ∧
      G.cols.taps width ox = p.colWindow.taps width ox := by
  rw [DilatedWindow.taps_of_dilation (dilation_rows h.dilation),
    DilatedWindow.taps_of_dilation (dilation_cols h.dilation), h.windows.1, h.windows.2]
  exact ⟨rfl, rfl⟩

/-- The window meets the cells that the convolution visits. -/
theorem IsConv.taps_eq {p : ConvParams} {d : ConvDims} (h : G.IsConv p)
    (hkernel : G.kernel = ⟨d.kh, d.kw⟩) (height width oy ox : Nat) :
    G.rows.taps height oy = (d.rowWindow p).taps height oy ∧
      G.cols.taps width ox = (d.colWindow p).taps width ox := by
  obtain ⟨hrows, hcols⟩ := h.windows hkernel
  rw [DilatedWindow.taps_of_dilation (dilation_rows h.dilation),
    DilatedWindow.taps_of_dilation (dilation_cols h.dilation), hrows, hcols]
  exact ⟨rfl, rfl⟩

/-- The extents of a pooling go together exactly if its window covers both axes. -/
theorem IsPool.fit_iff [Build] {p : PoolParams} {d : PoolDims} (h : G.IsPool p) :
    d.Fit p ↔ p.kernel.hasZero = false ∧ G.rows.Covers d.h d.outH ∧ G.cols.Covers d.w d.outW ∧
      (d.output.numBytes? .f32).isSome := by
  obtain ⟨hrows, hcols⟩ := h.windows
  constructor
  · intro hd
    obtain ⟨hv, hh⟩ := stride_hasZero.1 (h.stride ▸ hd.stride)
    exact ⟨hd.kernel, (DilatedWindow.covers_iff (dilation_rows h.dilation) hv).2 (hrows ▸ hd.rows),
      (DilatedWindow.covers_iff (dilation_cols h.dilation) hh).2 (hcols ▸ hd.cols), hd.bytes⟩
  · rintro ⟨hkernel, hH, hW, hbytes⟩
    exact {
      kernel := hkernel
      stride := h.stride ▸ stride_hasZero.2 ⟨hH.stride, hW.stride⟩
      rows := hrows ▸ (DilatedWindow.covers_iff (dilation_rows h.dilation) hH.stride).1 hH
      cols := hcols ▸ (DilatedWindow.covers_iff (dilation_cols h.dilation) hW.stride).1 hW
      bytes := hbytes }

/-- The extents of a convolution go together exactly if its filters cover both axes. -/
theorem IsConv.fit_iff [Build] {p : ConvParams} {d : ConvDims} (h : G.IsConv p)
    (hkernel : G.kernel = ⟨d.kh, d.kw⟩) :
    d.Fit p ↔ (p.groups ≠ 0 ∧ d.c % p.groups = 0 ∧ d.o % p.groups = 0 ∧ d.c / p.groups = d.depth) ∧
      G.rows.Covers d.h d.outH ∧ G.cols.Covers d.w d.outW ∧
        (d.output.numBytes? .f32).isSome := by
  obtain ⟨hrows, hcols⟩ := h.windows hkernel
  constructor
  · intro hd
    obtain ⟨hv, hh⟩ := stride_hasZero.1 (h.stride ▸ hd.stride)
    exact ⟨⟨hd.groups_ne, hd.channels, hd.filters, hd.depth_eq⟩,
      (DilatedWindow.covers_iff (dilation_rows h.dilation) hv).2 (hrows ▸ hd.rows),
      (DilatedWindow.covers_iff (dilation_cols h.dilation) hh).2 (hcols ▸ hd.cols), hd.bytes⟩
  · rintro ⟨⟨hgroups, hchannels, hfilters, hdepth⟩, hH, hW, hbytes⟩
    exact {
      groups_ne := hgroups
      stride := h.stride ▸ stride_hasZero.2 ⟨hH.stride, hW.stride⟩
      channels := hchannels
      filters := hfilters
      depth_eq := hdepth
      rows := hrows ▸ (DilatedWindow.covers_iff (dilation_rows h.dilation) hH.stride).1 hH
      cols := hcols ▸ (DilatedWindow.covers_iff (dilation_cols h.dilation) hW.stride).1 hW
      bytes := hbytes }

end Geometry

namespace Op

variable {α : Type} [Scalar α] {G : Geometry}

omit [Scalar α] in
/-- The shapes that a pooling accepts. -/
theorem inferShape_maxPool_iff [Build] {p : PoolParams} (hG : G.IsPool p) {input out : Shape}
    {shapes : List Shape} :
    (maxPool p : Op α).inferShape input shapes = .ok out ↔ ∃ n c h w o outH outW,
      input = ⟨[n, c, h, w]⟩ ∧ out = ⟨[n, o, outH, outW]⟩ ∧ (maxPool p : Op α).Admits shapes c o ∧
        G.rows.Covers h outH ∧ G.cols.Covers w outW ∧ (out.numBytes? .f32).isSome := by
  rw [inferShape_maxPool]
  constructor
  · rintro ⟨rfl, d, hd, rfl, rfl⟩
    obtain ⟨hkernel, hH, hW, hbytes⟩ := hG.fit_iff.1 hd
    exact ⟨d.n, d.c, d.h, d.w, d.c, d.outH, d.outW, rfl, rfl, ⟨hkernel, rfl, rfl⟩, hH, hW, hbytes⟩
  · rintro ⟨n, c, h, w, o, outH, outW, rfl, rfl, ⟨hkernel, rfl, rfl⟩, hH, hW, hbytes⟩
    exact ⟨rfl, ⟨n, o, h, w, outH, outW⟩, hG.fit_iff.2 ⟨hkernel, hH, hW, hbytes⟩, rfl, rfl⟩

/-- **A pooling slides its window without gaps.** -/
theorem slides_maxPool [Build] {p : PoolParams} (hG : G.IsPool p) :
    (maxPool p : Op α).Slides G where
  shape _ := inferShape_maxPool_iff hG
  cells := by
    intro x params n c h w o outH outW _ hx _ hshape hout
    obtain ⟨hnil, d, hd, hin, hd'⟩ := inferShape_maxPool.1 hout
    obtain rfl := List.map_eq_nil_iff.1 hnil
    obtain ⟨rfl, rfl, rfl, rfl⟩ : n = d.n ∧ c = d.c ∧ h = d.h ∧ w = d.w := by
      simpa [PoolDims.input] using hshape.symm.trans hin
    obtain ⟨-, rfl, rfl, rfl⟩ : d.n = d.n ∧ o = d.c ∧ outH = d.outH ∧ outW = d.outW := by
      simpa [PoolDims.output] using hd'
    rw [hin, List.map_nil, placed_maxPool_iff hd]
    refine ⟨fun hplaced => ?_, Kernel.maxPool_of_not_placed hd hin⟩
    obtain ⟨y, hy, hyshape, hwell⟩ := Kernel.exists_maxPool hd hin hx.size_eq hplaced
    refine ⟨y, hy, hyshape, hwell, fun image himage channel hchannel oy hoy ox hox => ?_⟩
    obtain ⟨v, hv, hcell⟩ := Tensor.exists_of_map_cells (Kernel.maxPool_eq hd hin ▸ hy) himage
      hchannel hoy hox
    obtain ⟨hrows, hcols⟩ := hG.taps_eq d.h d.w oy ox
    refine ⟨v, hv, ?_⟩
    rw [← hcell, hrows, hcols, cellOver, hin, PoolDims.cell,
      if_pos (hplaced image himage channel hchannel oy hoy ox hox)]
    exact Kernel.maxPoolCell_taps _ oy ox

omit [Scalar α] in
/-- The shapes that a convolution accepts along with filters of the size of the window. -/
theorem inferShape_conv_iff [Build] {p : ConvParams} (hG : G.IsConv p) {input out : Shape}
    {shapes : List Shape} (hsized : (conv p : Op α).SizedBy shapes G.kernel) :
    (conv p : Op α).inferShape input shapes = .ok out ↔ ∃ n c h w o outH outW,
      input = ⟨[n, c, h, w]⟩ ∧ out = ⟨[n, o, outH, outW]⟩ ∧ (conv p : Op α).Admits shapes c o ∧
        G.rows.Covers h outH ∧ G.cols.Covers w outW ∧ (out.numBytes? .f32).isSome := by
  obtain ⟨filters, depth, bias, rfl⟩ := hsized
  rw [inferShape_conv]
  constructor
  · rintro ⟨d, hd, rfl, rfl, bias', hcons, hlen, hbias⟩
    obtain ⟨hweight, rfl⟩ := List.cons.inj hcons
    obtain ⟨rfl, rfl, hkh, hkw⟩ : filters = d.o ∧ depth = d.depth ∧
        G.kernel.vertical = d.kh ∧ G.kernel.horizontal = d.kw := by
      simpa [ConvDims.weight] using hweight
    obtain ⟨⟨hgroups, hchannels, hfilters, hdepth⟩, hH, hW, hbytes⟩ :=
      (hG.fit_iff (by rw [← hkh, ← hkw])).1 hd
    exact ⟨d.n, d.c, d.h, d.w, d.o, d.outH, d.outW, rfl, rfl,
      ⟨hgroups, hchannels, hfilters, _, _, bias, by rw [hdepth], hlen, hbias⟩, hH, hW, hbytes⟩
  · rintro ⟨n, c, h, w, o, outH, outW, rfl, rfl, hadmits, hH, hW, hbytes⟩
    obtain ⟨hgroups, hchannels, hfilters, kh, kw, bias', hcons, hlen, hbias⟩ := hadmits
    obtain ⟨hweight, rfl⟩ := List.cons.inj hcons
    obtain ⟨rfl, rfl, rfl, rfl⟩ : filters = o ∧ depth = c / p.groups ∧
        G.kernel.vertical = kh ∧ G.kernel.horizontal = kw := by
      simpa using hweight
    let d : ConvDims := ⟨n, c, h, w, filters, c / p.groups, G.kernel.vertical,
      G.kernel.horizontal, outH, outW⟩
    have hd : d.Fit p := (hG.fit_iff rfl).2
      ⟨⟨hgroups, hchannels, hfilters, rfl⟩, hH, hW, hbytes⟩
    exact ⟨d, hd, rfl, rfl, bias, rfl, hlen, hbias⟩

theorem execute_conv [Build] {p : ConvParams} {x weight : Tensor α} {bias : List (Tensor α)}
    (hlen : bias.length ≤ 1) :
    (conv p).execute x (weight :: bias) = Kernel.conv x weight bias.head? p := by
  rcases bias with _ | ⟨b, _ | ⟨_, _⟩⟩
  · rfl
  · rfl
  · simp at hlen

/-- **A convolution slides its filters without gaps.** -/
theorem slides_conv [Build] {p : ConvParams} (hG : G.IsConv p) : (conv p : Op α).Slides G where
  shape := inferShape_conv_iff hG
  cells := by
    rintro x params n c h w o outH outW ⟨filters, depth, _, hsized⟩ hx hparams hshape hout
    obtain ⟨d, hd, hin, hd', _, hcons, hlen, hbias⟩ := inferShape_conv.1 hout
    obtain ⟨weight, bias, rfl, hweight, rfl⟩ := List.map_eq_cons_iff.1 hcons
    rw [List.length_map] at hlen
    obtain ⟨-, -, hkh, hkw⟩ : d.o = filters ∧ d.depth = depth ∧ d.kh = G.kernel.vertical ∧
        d.kw = G.kernel.horizontal := by
      simpa [ConvDims.weight] using hweight.symm.trans (List.cons.inj hsized).1
    obtain ⟨rfl, rfl, rfl, rfl⟩ : n = d.n ∧ c = d.c ∧ h = d.h ∧ w = d.w := by
      simpa [ConvDims.input] using hshape.symm.trans hin
    obtain ⟨-, rfl, rfl, rfl⟩ : d.n = d.n ∧ o = d.o ∧ outH = d.outH ∧ outW = d.outW := by
      simpa [ConvDims.output] using hd'
    have hb : ∀ b ∈ bias.head?, b.shape.numElements = some d.o ∧ b.Sized := by
      intro b hhead
      have hmem := List.mem_of_mem_head? hhead
      exact ⟨hbias _ (List.mem_map_of_mem hmem),
        (hparams b (List.mem_cons_of_mem _ hmem)).sized⟩
    have hrange := Kernel.inRange_of_wellFormed hd hin hweight hx (hparams _ List.mem_cons_self)
    have hcount : ∀ b ∈ bias.head?, b.shape.numElements = some d.o := fun b hhead => (hb b hhead).1
    rw [hin, List.map_cons, hweight, placed_conv_iff hd, execute_conv hlen]
    refine ⟨fun hplaced => ?_, Kernel.conv_of_not_placed hd hin hweight hcount⟩
    obtain ⟨y, hy, hyshape, hwell⟩ := Kernel.exists_conv bias.head? hd hin hweight hrange hplaced hb
    refine ⟨y, hy, hyshape, hwell, fun image himage channel hchannel oy hoy ox hox => ?_⟩
    have hcells := Kernel.conv_eq hd hin hweight hcount
    obtain ⟨v, hv, hcell⟩ := Tensor.exists_of_map_cells (hcells ▸ hy) himage hchannel hoy hox
    obtain ⟨hrows, hcols⟩ := hG.taps_eq (d := d) (by rw [hkh, hkw]) d.h d.w oy ox
    refine ⟨v, hv, ?_⟩
    rw [← hcell, hrows, hcols, cellOver, hin]
    simp only [ConvDims.cell, if_pos (hplaced image himage channel hchannel oy hoy ox hox),
      ← Kernel.convCell_taps, ConvDims.input, ConvDims.weight, hweight, Shape.nchw?,
      ConvDims.firstChannel]

end Op

end NetPack
