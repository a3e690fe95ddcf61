import NetPack.Proofs.Batches

/-!
# Kernels on single samples

The leading axis of a tensor numbers samples, and `Tensor.sample` cuts one of them out. Every kernel
flattens this axis in its own way: into the first of four loops, into rows of a matrix, into planes
or into positions modulo a number of channels. In each case the cells of one sample of the result
read only the same sample of the input, so what a kernel computes for a batch it also computes for
each sample on its own (`Kernel.conv_sample` to `Kernel.flatten_sample`). The samples need an axis
of their own, since a softmax of a vector takes all of it for one row.
-/

namespace NetPack

/-! ### Samples -/

namespace Shape

variable {s : Shape} {n : Nat}

theorem foldlM_mul?_of_le {dims : List Nat} {start start' m : Nat} (hle : start' ≤ start)
    (h : dims.foldlM Word.mul? start = some m) :
    ∃ m' ≤ m, dims.foldlM Word.mul? start' = some m' := by
  induction dims generalizing start start' with
  | nil =>
    obtain rfl : start = m := by simpa using h
    exact ⟨start', hle, rfl⟩
  | cons d ds ih =>
    rw [List.foldlM_cons, Option.bind_eq_bind, Option.bind_eq_some_iff] at h
    obtain ⟨k, hk, h⟩ := h
    obtain ⟨rfl, hlt⟩ := Word.mul?_eq_some_iff.1 hk
    have hstep : start' * d ≤ start * d := Nat.mul_le_mul_right d hle
    have hk' : Word.mul? start' d = some (start' * d) :=
      Word.mul?_eq_some_iff.2 ⟨rfl, lt_of_le_of_lt hstep hlt⟩
    rw [List.foldlM_cons, hk']
    exact ih hstep h

/-- One sample has no more elements than a batch. -/
theorem numElements?_withLeading_one {m : Nat} (hlead : s.LeadsWith n) (hn : 0 < n)
    (h : s.numElements? = some m) : ∃ m' ≤ m, (s.withLeading 1).numElements? = some m' := by
  obtain ⟨_ | ⟨d, rest⟩⟩ := s
  · cases hlead
  · obtain rfl := leadsWith_mk.1 hlead
    rw [numElements?, List.foldlM_cons, Option.bind_eq_bind, Option.bind_eq_some_iff] at h
    obtain ⟨k, hk, h⟩ := h
    obtain ⟨rfl, -⟩ := Word.mul?_eq_some_iff.1 hk
    rw [Nat.one_mul] at h
    change ∃ m' ≤ m, rest.foldlM Word.mul? 1 = some m'
    exact foldlM_mul?_of_le hn h

/-- What a build counts for a batch it also counts for one sample. -/
theorem numElements_withLeading_one [Build] (hlead : s.LeadsWith n) (hn : 0 < n)
    (h : s.numElements.isSome) : (s.withLeading 1).numElements.isSome := by
  cases hchecks : Build.checks with
  | false => exact Option.isSome_iff_exists.2 ⟨_, numElements_release hchecks _⟩
  | true =>
    rw [numElements_checked hchecks] at h ⊢
    obtain ⟨m, hm⟩ := Option.isSome_iff_exists.1 h
    obtain ⟨m', -, hm'⟩ := numElements?_withLeading_one hlead hn hm
    exact Option.isSome_iff_exists.2 ⟨m', hm'⟩

theorem numBytes?_withLeading_one (hlead : s.LeadsWith n) (hn : 0 < n)
    (h : (s.numBytes? .f32).isSome) : ((s.withLeading 1).numBytes? .f32).isSome := by
  obtain ⟨b, hb⟩ := Option.isSome_iff_exists.1 h
  obtain ⟨m, hm, hb⟩ := Option.bind_eq_some_iff.1 hb
  obtain ⟨m', hle, hm'⟩ := numElements?_withLeading_one hlead hn hm
  obtain ⟨rfl, hlt⟩ := Word.mul?_eq_some_iff.1 hb
  have hb' : Word.mul? m' DType.f32.bytes = some (m' * DType.f32.bytes) :=
    Word.mul?_eq_some_iff.2 ⟨rfl, lt_of_le_of_lt (Nat.mul_le_mul_right _ hle) hlt⟩
  rw [numBytes?, hm']
  exact Option.isSome_iff_exists.2 ⟨_, hb'⟩

end Shape

namespace Tensor

variable {α : Type} {x y : Tensor α} {n i : Nat}

/-- The number of elements of one sample. -/
def sampleSize (x : Tensor α) : Nat := Word.product x.shape.dims.tail

/-- One sample, as a batch of its own. -/
def sample (x : Tensor α) (i : Nat) : Tensor α :=
  ⟨x.shape.withLeading 1, x.data.extract (i * x.sampleSize) ((i + 1) * x.sampleSize)⟩

/-- A batch of `n` samples that have an axis of their own. -/
structure IsBatch (x : Tensor α) (n : Nat) : Prop where
  exact : x.Exact
  leads : x.shape.LeadsWith n
  rank : 2 ≤ x.shape.rank

theorem isBatch_of_dims {d : Nat} {rest : List Nat} (hx : x.Exact)
    (hdims : x.shape.dims = n :: d :: rest) : x.IsBatch n := by
  refine ⟨hx, ?_, ?_⟩
  · rw [Shape.LeadsWith, hdims]
    rfl
  · rw [Shape.rank, hdims]
    simp

/-- The elements of a sample lie in the batch one behind the other. -/
theorem getElem_sample {q : Nat} (hq : q < (x.sample i).data.size)
    (hq' : i * x.sampleSize + q < x.data.size) :
    (x.sample i).data[q] = x.data[i * x.sampleSize + q] :=
  Array.getElem_extract ..

theorem ext_size_zero (hshape : x.shape = y.shape) (hx : x.data.size = 0) (hy : y.data.size = 0) :
    x = y := by
  obtain ⟨_, _⟩ := x
  obtain ⟨_, _⟩ := y
  rw [Tensor.mk.injEq]
  exact ⟨hshape, (Array.eq_empty_of_size_eq_zero hx).trans (Array.eq_empty_of_size_eq_zero hy).symm⟩

/-- A tensor of the shape and the size of a batch is one. -/
theorem IsBatch.of_shape_eq (hx : x.IsBatch n) (hshape : y.shape = x.shape)
    (hsize : y.data.size = x.data.size) : y.IsBatch n := by
  exact ⟨hx.exact.of_shape_eq hshape hsize, hshape ▸ hx.leads, hshape ▸ hx.rank⟩

namespace IsBatch

variable (hx : x.IsBatch n)

include hx

theorem exists_dims : ∃ d rest, x.shape.dims = n :: d :: rest := by
  obtain ⟨-, hlead, hrank⟩ := hx
  rw [Shape.LeadsWith] at hlead
  rw [Shape.rank] at hrank
  cases hdims : x.shape.dims with
  | nil => simp [hdims] at hlead
  | cons m rest =>
    cases rest with
    | nil => simp [hdims] at hrank
    | cons d rest =>
      obtain rfl : m = n := by simpa [hdims] using hlead
      exact ⟨d, rest, rfl⟩

theorem size_eq : x.data.size = n * x.sampleSize := by
  obtain ⟨d, rest, hdims⟩ := hx.exists_dims
  rw [hx.exact.size_eq, sampleSize, hdims]
  rfl

theorem le_size (hi : i < n) : (i + 1) * x.sampleSize ≤ x.data.size :=
  hx.size_eq ▸ Nat.mul_le_mul_right _ hi

theorem size_sample (hi : i < n) : (x.sample i).data.size = x.sampleSize := by
  have hle := hx.le_size hi
  rw [Nat.succ_mul] at hle
  simp only [sample, Array.size_extract, Nat.succ_mul]
  omega

theorem lt_size {q : Nat} (hi : i < n) (hq : q < x.sampleSize) :
    i * x.sampleSize + q < x.data.size :=
  hx.size_eq ▸ mul_add_lt_mul hi hq

/-- The elements of a sample lie in the batch one behind the other. -/
theorem entry_sample {q : Nat} (hi : i < n) (hq : q < x.sampleSize) :
    (x.sample i).entry q = x.entry (i * x.sampleSize + q) := by
  have hq' : q < (x.sample i).data.size := (hx.size_sample hi).symm ▸ hq
  rw [entry_of_lt hq', entry_of_lt (hx.lt_size hi hq), getElem_sample hq' (hx.lt_size hi hq)]

theorem product_sample : Word.product (x.sample i).shape.dims = x.sampleSize := by
  obtain ⟨d, rest, hdims⟩ := hx.exists_dims
  simp [sample, Shape.withLeading, sampleSize, hdims]

theorem sampleSize_lt (hi : i < n) : x.sampleSize < Word.modulus := by
  have hle := hx.le_size hi
  rw [Nat.succ_mul] at hle
  have hlt := hx.exact.size_lt
  omega

theorem wellFormed_sample (hi : i < n) (hwell : x.WellFormed) : (x.sample i).WellFormed := by
  obtain ⟨m, -, hm⟩ := Shape.numElements?_withLeading_one hx.leads (by omega) hwell
  have hsize : Word.product (x.shape.withLeading 1).dims = x.sampleSize :=
    hx.product_sample (i := i)
  rw [WellFormed, hx.size_sample hi, ← hsize, Shape.product_of_numElements? hm]
  exact hm

/-- The zeros for a sample can be counted where those for the batch can. -/
theorem zeros_sample [Build] [Zero α] (hi : i < n)
    (h : (zeros x.shape : Option (Tensor α)).isSome) :
    (zeros (x.sample i).shape : Option (Tensor α)) = some (blank (x.sample i).shape) := by
  have hcount : x.shape.numElements.isSome := by
    cases hcount : x.shape.numElements with
    | none => simp [zeros, hcount] at h
    | some m => rfl
  obtain ⟨m, hm⟩ := Option.isSome_iff_exists.1
    (Shape.numElements_withLeading_one hx.leads (by omega) hcount)
  have hsample : (x.sample i).shape.numElements = some m := hm
  rw [zeros, hsample, blank, hx.product_sample, ← Word.wrap_of_lt (hx.sampleSize_lt hi),
    ← hx.product_sample (i := i), ← Shape.eq_wrap_of_product hsample]
  rfl

end IsBatch

/-! ### Cells of four axes -/

/-- The position of a cell in its sample says which cell of the sample it is. -/
theorem cellAt_sample {c h w j : Nat} {cell : Nat → Nat → Nat → Nat → Outcome TensorError α}
    (hj : j < c * h * w) :
    cellAt c h w cell (i * (c * h * w) + j) = cellAt c h w (fun _ => cell i) j := by
  have hw : 0 < w := Nat.pos_of_ne_zero fun hzero => by simp [hzero] at hj
  have hh : 0 < h := Nat.pos_of_ne_zero fun hzero => by simp [hzero] at hj
  have hrows : i * (c * h * w) = w * (i * (c * h)) := by ring
  have hplanes : i * (c * h * w) = (h * w) * (i * c) := by ring
  have hplane : (i * (c * h * w) + j) / (h * w) % c = j / (h * w) % c := by
    rw [hplanes, Nat.mul_add_div (Nat.mul_pos hh hw), Nat.add_comm, Nat.add_mul_mod_self_right]
  have hrow : (i * (c * h * w) + j) / w % h = j / w % h := by
    rw [hrows, Nat.mul_add_div hw, Nat.add_comm, ← Nat.mul_assoc, Nat.add_mul_mod_self_right]
  have hcol : (i * (c * h * w) + j) % w = j % w := by
    rw [hrows, Nat.mul_add_mod]
  simp only [cellAt, mul_add_div_of_lt hj, hplane, hrow, hcol]

/-- A result of four axes holds the cells of each sample one behind the other. -/
theorem cells_sample {c h w : Nat} {cell : Nat → Nat → Nat → Nat → Outcome TensorError α}
    {single : Nat → Nat → Nat → Nat → Outcome TensorError α} {a : Array α}
    (hsingle : ∀ channel < c, ∀ y < h, ∀ x < w, single 0 channel y x = cell i channel y x)
    (hi : i < n) (ha : cells n c h w cell = .ok a) :
    cells 1 c h w single = .ok (a.extract (i * (c * h * w)) ((i + 1) * (c * h * w))) := by
  obtain ⟨hsize, hcell⟩ := cells_eq_ok.1 ha
  have hsize' : a.size = n * (c * h * w) := by
    rw [hsize]
    ring
  have hle : (i + 1) * (c * h * w) ≤ a.size := hsize' ▸ Nat.mul_le_mul_right _ hi
  have hlength : (a.extract (i * (c * h * w)) ((i + 1) * (c * h * w))).size = c * h * w := by
    rw [Nat.succ_mul] at hle ⊢
    rw [Array.size_extract]
    omega
  refine cells_eq_ok.2 ⟨by rw [hlength, Nat.one_mul], fun j hj => ?_⟩
  rw [hlength] at hj
  rw [Nat.succ_mul] at hle
  obtain ⟨hzero, hc, hh, hw⟩ := coordinates_lt (n := 1) (by rwa [Nat.one_mul])
  have hj' := hcell (i * (c * h * w) + j) (by omega)
  rw [cellAt_sample hj, cellAt, ← hsingle _ hc _ hh _ hw] at hj'
  rw [Array.getElem_extract, cellAt, Nat.lt_one_iff.1 hzero]
  exact hj'

end Tensor

namespace Kernel

open Tensor

variable {α : Type} [Scalar α] {x y : Tensor α} {n i : Nat}

/-! ### Convolution -/

theorem accumulate_congr {x' k : Tensor α} {terms terms' : List (Nat × Nat)} {start : α}
    (h : List.Forall₂ (fun t t' => x.entry t.1 = x'.entry t'.1 ∧ t.2 = t'.2) terms terms') :
    accumulate x k terms start = accumulate x' k terms' start := by
  induction h generalizing start with
  | nil => rfl
  | cons hhead _ ih =>
    rw [accumulate_cons, accumulate_cons, hhead.1, hhead.2]
    exact bind_congr fun a => bind_congr fun b => ih

end Kernel

namespace ConvDims

variable {d : ConvDims} {p : ConvParams}

/-- The extents for one sample. -/
def single (d : ConvDims) : ConvDims := { d with n := 1 }

/-- Cells of different samples meet the same places of a sample and of the filters. -/
theorem terms_eq_map (d : ConvDims) (p : ConvParams) (i channel oy ox : Nat) :
    d.terms p i channel oy ox =
      (d.single.terms p 0 channel oy ox).map fun t => (i * (d.c * d.h * d.w) + t.1, t.2) := by
  simp only [terms, single, List.map_flatMap, List.map_map]
  refine List.flatMap_congr fun k _ => List.flatMap_congr fun row _ => List.map_congr_left ?_
  intro col _
  simp only [Function.comp_apply, firstChannel, Prod.mk.injEq, and_true]
  ring

theorem Fit.single [Build] (hd : d.Fit p) (hn : 0 < d.n) : d.single.Fit p where
  groups_ne := hd.groups_ne
  stride := hd.stride
  channels := hd.channels
  filters := hd.filters
  depth_eq := hd.depth_eq
  rows := hd.rows
  cols := hd.cols
  bytes := Shape.numBytes?_withLeading_one (Shape.leadsWith_mk.2 rfl) hn hd.bytes

end ConvDims

namespace Kernel

open Tensor

variable {α : Type} [Scalar α] {x y : Tensor α} {n i : Nat}

theorem wellFormed_of_conv [Build] {weight : Tensor α} {bias : Option (Tensor α)} {p : ConvParams}
    (h : conv x weight bias p = .ok y) : y.WellFormed := by
  obtain ⟨d, hd, -, -, -, hshape, hsize, -⟩ := conv_eq_ok.1 h
  refine wellFormed_of_numBytes? (hshape ▸ hd.bytes) ?_
  rw [hshape, hsize]
  simp [ConvDims.output, Nat.mul_assoc]

theorem conv_sample [Build] {weight : Tensor α} {bias : Option (Tensor α)} {p : ConvParams}
    (hx : x.IsBatch n) (hi : i < n) (h : conv x weight bias p = .ok y) :
    y.IsBatch n ∧ conv (x.sample i) weight bias p = .ok (y.sample i) := by
  have hwell := wellFormed_of_conv h
  obtain ⟨d, hd, hinput, hweight, hbias, -⟩ := conv_eq_ok.1 h
  rw [conv_eq hd hinput hweight hbias] at h
  obtain ⟨data, hdata, rfl⟩ := Outcome.map_eq_ok.1 h
  obtain rfl : d.n = n := Shape.leadsWith_mk.1 (hinput ▸ hx.leads)
  have hd' := hd.single (by omega)
  refine ⟨isBatch_of_dims hwell.exact rfl, ?_⟩
  have hsample : x.sampleSize = d.c * d.h * d.w := by
    simp [sampleSize, hinput, ConvDims.input, Nat.mul_assoc]
  have hcell : ∀ channel < d.o, ∀ oy < d.outH, ∀ ox < d.outW,
      d.single.cell p (x.sample i) weight bias 0 channel oy ox =
        d.cell p x weight bias i channel oy ox := by
    intro channel hchannel oy _ ox _
    refine bind_congr fun start => ite_congr rfl (fun _ => accumulate_congr ?_) fun _ => rfl
    rw [d.terms_eq_map p i, List.forall₂_map_right_iff, List.forall₂_same]
    intro t ht
    have hlt := (hd'.term_lt Nat.one_pos hchannel ht).1
    have hproduct : Word.product d.single.input.dims = d.c * d.h * d.w := by
      simp [ConvDims.single, ConvDims.input, Nat.mul_assoc]
    rw [hproduct, ← hsample] at hlt
    exact ⟨by rw [hx.entry_sample hi hlt, hsample], rfl⟩
  have hcells := cells_sample hcell hi hdata
  have hinput' : (x.sample i).shape = d.single.input := by
    rw [sample, hinput]
    rfl
  rw [conv_eq hd' hinput' hweight hbias]
  refine Outcome.map_eq_ok.2 ⟨_, hcells, ?_⟩
  have hout : (⟨d.output, data⟩ : Tensor α).sampleSize = d.o * d.outH * d.outW := by
    simp [sampleSize, ConvDims.output, Nat.mul_assoc]
  conv_rhs => rw [sample, hout]
  rfl

end Kernel

/-! ### Max pooling -/

namespace PoolDims

variable {d : PoolDims} {p : PoolParams}

/-- The extents for one sample. -/
def single (d : PoolDims) : PoolDims := { d with n := 1 }

theorem Fit.single [Build] (hd : d.Fit p) (hn : 0 < d.n) : d.single.Fit p where
  kernel := hd.kernel
  stride := hd.stride
  rows := hd.rows
  cols := hd.cols
  bytes := Shape.numBytes?_withLeading_one (Shape.leadsWith_mk.2 rfl) hn hd.bytes

end PoolDims

namespace Kernel

open Tensor

variable {α : Type} [Scalar α] {x y : Tensor α} {n i : Nat}

theorem greatest_congr {x' : Tensor α} {start start' w : Nat} {places : List (Nat × Nat)}
    (h : ∀ iy ix, (iy, ix) ∈ places →
      x.entry (start + (iy * w + ix)) = x'.entry (start' + (iy * w + ix))) :
    greatest x start w places = greatest x' start' w places := by
  refine Outcome.foldlM_congr (fun ⟨iy, ix⟩ hplace best => ?_) _
  simp only [h iy ix hplace]

theorem wellFormed_of_maxPool [Build] {p : PoolParams} (h : maxPool x p = .ok y) :
    y.WellFormed := by
  obtain ⟨d, hd, -, hshape, hcells⟩ := maxPool_eq_ok.1 h
  refine wellFormed_of_numBytes? (hshape ▸ hd.bytes) ?_
  rw [hshape, (cells_eq_ok.1 hcells).1]
  simp [PoolDims.output, Nat.mul_assoc]

theorem maxPool_sample [Build] {p : PoolParams} (hx : x.IsBatch n) (hi : i < n)
    (h : maxPool x p = .ok y) : y.IsBatch n ∧ maxPool (x.sample i) p = .ok (y.sample i) := by
  have hwell := wellFormed_of_maxPool h
  obtain ⟨shape, data⟩ := y
  obtain ⟨d, hd, hinput, rfl, hdata⟩ := maxPool_eq_ok.1 h
  obtain rfl : d.n = n := Shape.leadsWith_mk.1 (hinput ▸ hx.leads)
  have hd' := hd.single (by omega)
  refine ⟨isBatch_of_dims hwell.exact rfl, ?_⟩
  have hsample : x.sampleSize = d.c * d.h * d.w := by
    simp [sampleSize, hinput, PoolDims.input, Nat.mul_assoc]
  have hcell : ∀ channel < d.c, ∀ oy < d.outH, ∀ ox < d.outW,
      d.single.cell p (x.sample i) 0 channel oy ox = d.cell p x i channel oy ox := by
    intro channel hchannel oy _ ox _
    refine ite_congr rfl (fun _ => greatest_congr fun iy ix hplace => ?_) fun _ => rfl
    obtain ⟨hy, hx'⟩ := PoolDims.lt_of_mem_places hplace
    have hlt : (0 * d.c + channel) * d.h * d.w + (iy * d.w + ix) < x.sampleSize := by
      calc (0 * d.c + channel) * d.h * d.w + (iy * d.w + ix)
          = (channel * d.h + iy) * d.w + ix := by ring
        _ < d.c * d.h * d.w := mul_add_lt_mul (mul_add_lt_mul hchannel hy) hx'
        _ = x.sampleSize := hsample.symm
    have hplace : i * x.sampleSize + ((0 * d.c + channel) * d.h * d.w + (iy * d.w + ix)) =
        (i * d.c + channel) * d.h * d.w + (iy * d.w + ix) := by
      rw [hsample]
      ring
    exact (hx.entry_sample hi hlt).trans (congrArg x.entry hplace)
  have hcells := cells_sample hcell hi hdata
  have hinput' : (x.sample i).shape = d.single.input := by
    rw [sample, hinput]
    rfl
  have hout : (⟨d.output, data⟩ : Tensor α).sampleSize = d.c * d.outH * d.outW := by
    simp [sampleSize, PoolDims.output, Nat.mul_assoc]
  rw [← hout] at hcells
  exact maxPool_eq_ok.2 ⟨d.single, hd', hinput', rfl, hcells⟩

/-! ### Rows -/

/-- Rows of one length stay in step with what they are mapped to. -/
theorem drop_flatMap {β γ : Type} {f : β → List γ} {l : List β} {width : Nat}
    (hlength : ∀ b ∈ l, (f b).length = width) (count : Nat) :
    (l.flatMap f).drop (count * width) = (l.drop count).flatMap f := by
  induction l generalizing count with
  | nil => simp
  | cons b l ih =>
    rw [List.forall_mem_cons] at hlength
    cases count with
    | zero => simp
    | succ count =>
      rw [List.flatMap_cons, List.drop_succ_cons, ← ih hlength.2, Nat.succ_mul, Nat.add_comm,
        ← List.drop_drop, ← hlength.1, List.drop_left]

theorem take_flatMap {β γ : Type} {f : β → List γ} {l : List β} {width : Nat}
    (hlength : ∀ b ∈ l, (f b).length = width) (count : Nat) :
    (l.flatMap f).take (count * width) = (l.take count).flatMap f := by
  induction l generalizing count with
  | nil => simp
  | cons b l ih =>
    rw [List.forall_mem_cons] at hlength
    cases count with
    | zero => simp
    | succ count =>
      rw [List.flatMap_cons, List.take_succ_cons, List.flatMap_cons, ← ih hlength.2, Nat.succ_mul,
        Nat.add_comm, ← hlength.1, List.take_length_add_append]

omit [Scalar α] in
/-- The rows of a sample are its share of the rows of the batch. -/
theorem rows_sample {width : Nat} (hx : x.IsBatch n) (hi : i < n) (hwidth : width ∣ x.sampleSize) :
    (x.sample i).rows width =
      ((x.rows width).drop (i * (x.sampleSize / width))).take (x.sampleSize / width) := by
  obtain ⟨count, hcount⟩ := hwidth
  rcases Nat.eq_zero_or_pos width with hzero | hpos
  · simp [rows, hzero]
  · have hdiv : x.sampleSize / width = count := by rw [hcount, Nat.mul_div_cancel_left _ hpos]
    have hdiv' : x.data.size / width = n * count := by
      rw [hx.size_eq, hcount, Nat.mul_left_comm, Nat.mul_div_cancel_left _ hpos]
    have hle : i * count + count ≤ n * count := by
      rw [← Nat.succ_mul]
      exact Nat.mul_le_mul_right _ hi
    rw [rows, hx.size_sample hi, hdiv, rows, hdiv']
    refine List.ext_getElem (by simp; omega) fun r hr _ => ?_
    have hr' : r < count := by simpa using hr
    have hend : (r + 1) * width ≤ x.sampleSize := by
      rw [hcount, Nat.mul_comm width]
      exact Nat.mul_le_mul_right _ hr'
    have hstart : i * x.sampleSize + r * width = (i * count + r) * width := by
      rw [hcount]
      ring
    have hstop : min (i * x.sampleSize + (r + 1) * width) ((i + 1) * x.sampleSize) =
        (i * count + r + 1) * width := by
      have hlast : (i + 1) * x.sampleSize = i * x.sampleSize + x.sampleSize := Nat.succ_mul ..
      rw [Nat.min_eq_left (by omega), Nat.succ_mul, ← Nat.add_assoc, hstart, Nat.succ_mul]
    simp only [List.getElem_map, List.getElem_range, List.getElem_take, List.getElem_drop, sample,
      Array.extract_extract, hstart, hstop]

omit [Scalar α] in
/-- What is computed row by row is computed sample by sample. -/
theorem extract_flatMap_rows {width size : Nat} {f : List α → List α}
    (hlength : ∀ row ∈ x.rows width, (f row).length = size) (hx : x.IsBatch n) (hi : i < n)
    (hwidth : width ∣ x.sampleSize) :
    ((x.rows width).flatMap f).toArray.extract (i * (x.sampleSize / width * size))
        ((i + 1) * (x.sampleSize / width * size)) =
      (((x.sample i).rows width).flatMap f).toArray := by
  have hstart : i * (x.sampleSize / width * size) = i * (x.sampleSize / width) * size :=
    (Nat.mul_assoc ..).symm
  have hcount : (i + 1) * (x.sampleSize / width * size) - i * (x.sampleSize / width * size) =
      x.sampleSize / width * size := by
    rw [Nat.succ_mul, Nat.add_sub_cancel_left]
  apply Array.ext'
  rw [Array.toList_extract, List.extract_eq_take_drop, hcount, hstart, drop_flatMap hlength,
    take_flatMap fun row hrow => hlength row (List.mem_of_mem_drop hrow), rows_sample hx hi hwidth]

/-! ### Fully connected layer -/

section Linear

variable [Build] {weight : Tensor α} {bias : Option (Tensor α)} {k o : Nat}

theorem wellFormed_of_linear (h : linear x weight bias = .ok y) : y.WellFormed := by
  obtain ⟨n, k, o, hlinear, rfl⟩ := linear_eq_ok.1 h
  exact hlinear.wellFormed_biased

omit [Build] in
/-- A bias is added to each sample as to the batch. -/
theorem biased_extract (products : Array α) (o i : Nat) :
    (biased bias o products).extract (i * o) ((i + 1) * o) =
      biased bias o (products.extract (i * o) ((i + 1) * o)) := by
  cases bias with
  | none => rfl
  | some b =>
    refine Array.ext (by simp [biased]) fun j hj hj' => ?_
    simp only [biased, Array.getElem_extract, Array.getElem_mapIdx, Nat.mul_add_mod_self_right]

theorem linear_sample (hx : x.IsBatch n) (hi : i < n) (h : linear x weight bias = .ok y) :
    y.IsBatch n ∧ linear (x.sample i) weight bias = .ok (y.sample i) := by
  have hwell := wellFormed_of_linear h
  obtain ⟨m, k, o, hlinear, rfl⟩ := linear_eq_ok.1 h
  have hxs := hlinear.rows
  obtain rfl : m = n := Shape.leadsWith_mk.1 (hxs ▸ hx.leads)
  have hy := isBatch_of_dims hwell.exact rfl
  refine ⟨hy, ?_⟩
  have hk := Nat.pos_of_ne_zero hlinear.inner
  have hwidth : x.sampleSize = k := by simp [sampleSize, hxs, Shape.matrix]
  have hrows := length_rows_matrix hxs hx.exact.size_eq hlinear.inner
  -- The products fill the result, so each row of the input has one for each of its columns.
  have hunits : (weight.rows k).length = o := by
    have hproducts : (rowProducts x weight m k).length = m * o := by
      simpa [Shape.matrix] using hlinear.wellFormed.size_eq
    rw [rowProducts, List.take_of_length_le hrows.le, List.length_flatMap] at hproducts
    simp only [List.length_map, List.map_const', List.sum_replicate_nat, hrows] at hproducts
    exact Nat.eq_of_mul_eq_mul_left (by omega) hproducts
  have hproducts : (rowProducts x weight m k).toArray.extract (i * o) ((i + 1) * o) =
      (rowProducts (x.sample i) weight 1 k).toArray := by
    have hlength : ∀ row ∈ x.rows k, ((weight.rows k).map (dot row)).length = o := fun row _ => by
      rw [List.length_map, hunits]
    have hsingle : ((x.sample i).rows k).length = 1 := by
      rw [length_rows, hx.size_sample hi, hwidth, Nat.div_self hk]
    have hextract := extract_flatMap_rows hlength hx hi (hwidth ▸ Nat.dvd_refl _)
    rw [hwidth, Nat.div_self hk, Nat.one_mul] at hextract
    rw [rowProducts, List.take_of_length_le hrows.le, hextract, rowProducts,
      List.take_of_length_le hsingle.le]
  have hout : (⟨.matrix m o, biased bias o (rowProducts x weight m k).toArray⟩ :
      Tensor α).sample i =
        ⟨.matrix 1 o, biased bias o (rowProducts (x.sample i) weight 1 k).toArray⟩ := by
    have hsize : (⟨.matrix m o, biased bias o (rowProducts x weight m k).toArray⟩ :
        Tensor α).sampleSize = o := by simp [sampleSize, Shape.matrix]
    rw [sample, hsize, biased_extract, hproducts]
    rfl
  have hsample : IsLinear (x.sample i) weight bias 1 k o := by
    refine ⟨?_, hlinear.weights, hlinear.inner, hlinear.biases, ?_⟩
    · rw [sample, hxs]
      rfl
    · have hwell' := hy.wellFormed_sample hi hwell
      rw [hout, WellFormed, size_biased] at hwell'
      exact hwell'
  rw [hout]
  exact hsample.linear_eq

end Linear

/-! ### Batch normalisation and activations -/

/-- The channel of an element can be told from its position in the sample. -/
theorem channel_sample [Build] {size channels inner j : Nat} {trailing : List Nat}
    (hinner : Shape.product trailing = some inner) (hsize : size = channels * Word.product trailing)
    (hj : j < size) (hlt : size < Word.modulus) :
    (i * size + j) / Nat.max inner 1 % channels = j / Nat.max inner 1 % channels := by
  have hne : 0 < channels * Word.product trailing := by omega
  have hchannels : 0 < channels := Nat.pos_of_mul_pos_right hne
  have hpos : 0 < Word.product trailing := Nat.pos_of_mul_pos_left hne
  have hle : Word.product trailing ≤ size := hsize ▸ Nat.le_mul_of_pos_left _ hchannels
  have hmax := Shape.max_of_product hinner hpos (lt_of_le_of_lt hle hlt)
  have hplace : i * size = Word.product trailing * (i * channels) := by
    rw [hsize]
    ring
  rw [hmax, hplace, Nat.mul_add_div hpos, Nat.add_comm, Nat.add_mul_mod_self_right]

theorem batchNorm_sample [Build] {gamma beta mean var output output' : Tensor α} {epsilon : α}
    (hout : output.shape = x.shape) (hout' : output'.shape = (x.sample i).shape)
    (hx : x.IsBatch n) (hi : i < n) (h : batchNorm x gamma beta mean var epsilon output = .ok y) :
    y.IsBatch n ∧ batchNorm (x.sample i) gamma beta mean var epsilon output' =
      .ok (y.sample i) := by
  obtain ⟨m, channels, trailing, inner, hdims, hstats, hinner, hshape, hsize, hcell⟩ :=
    (batchNorm_eq_ok hout).1 h
  have hy : y.IsBatch n := hx.of_shape_eq hshape hsize
  have hwidth : x.sampleSize = channels * Word.product trailing := by
    simp [sampleSize, hdims]
  have hsize' : y.sampleSize = x.sampleSize := by rw [sampleSize, hshape, ← sampleSize]
  refine ⟨hy, (batchNorm_eq_ok hout').2 ⟨1, channels, trailing, inner, ?_, hstats, hinner, ?_, ?_,
    ?_⟩⟩
  · simp [sample, Shape.withLeading, hdims]
  · rw [sample, sample, hshape]
  · rw [hy.size_sample hi, hx.size_sample hi, hsize']
  · intro j hj hj'
    have hjx : j < x.sampleSize := hx.size_sample hi ▸ hj
    have hlt := hx.lt_size hi hjx
    have hlt' : i * y.sampleSize + j < y.data.size := by rwa [hsize', hsize]
    have hcell' := hcell (i * x.sampleSize + j) hlt (hsize ▸ hlt)
    rw [channel_sample hinner hwidth hjx (hx.sampleSize_lt hi)] at hcell'
    rw [getElem_sample hj hlt, getElem_sample hj' hlt', hcell']
    simp only [hsize']

theorem activation_sample {kind : Activation} {output output' : Tensor α}
    (hout : output.shape = x.shape) (hout' : output'.shape = (x.sample i).shape)
    (hx : x.IsBatch n) (h : activation kind x output = .ok y) :
    y.IsBatch n ∧ activation kind (x.sample i) output' = .ok (y.sample i) := by
  rw [activation_eq_ok kind hout] at h
  obtain rfl := Except.ok.inj h
  refine ⟨hx.of_shape_eq rfl (by simp), ?_⟩
  rw [activation_eq_ok kind hout', sample, sample, Array.map_extract]
  rfl

/-! ### Softmax, planes and flattening -/

/-- Where the full rows take all elements, nothing of an output of the same size is left. -/
theorem softmaxRows_append {width : Nat} {output : Tensor α} (hwidth : width ∣ x.data.size)
    (hsize : output.data.size = x.data.size) :
    ((x.rows width).flatMap softmaxRow).toArray ++
        output.data.extract ((x.rows width).flatMap softmaxRow).toArray.size output.data.size =
      ((x.rows width).flatMap softmaxRow).toArray := by
  have hrows : ((x.rows width).flatMap softmaxRow).toArray.size = output.data.size := by
    rw [List.size_toArray, length_softmaxRows, Nat.div_mul_cancel hwidth, hsize]
  rw [hrows, Array.extract_eq_empty_of_le (by simp), Array.append_empty]

theorem softmax_sample {output output' : Tensor α} (hout : output.shape = x.shape)
    (hsize : output.data.size = x.data.size) (hout' : output'.shape = (x.sample i).shape)
    (hsize' : output'.data.size = (x.sample i).data.size) (hx : x.IsBatch n) (hi : i < n)
    (h : softmax x output = .ok y) :
    y.IsBatch n ∧ softmax (x.sample i) output' = .ok (y.sample i) := by
  obtain ⟨d, rest, hdims⟩ := hx.exists_dims
  obtain ⟨init, width, hinit⟩ : ∃ init width, d :: rest = init ++ [width] :=
    ⟨_, _, (List.dropLast_append_getLast (by simp)).symm⟩
  have hdims' : x.shape.dims = n :: (init ++ [width]) := hinit ▸ hdims
  have hlast : x.shape.last?.getD 1 = width := by
    rw [Shape.last?, hdims', ← List.cons_append, List.getLast?_concat, Option.getD_some]
  have hlast' : (x.sample i).shape.last?.getD 1 = width := by
    rw [sample, Shape.withLeading, Shape.last?, hdims', List.set_cons_zero, ← List.cons_append,
      List.getLast?_concat, Option.getD_some]
  have hwidth : width ∣ x.sampleSize := by
    rw [sampleSize, hdims', List.tail_cons, Word.product_append]
    exact ⟨Word.product init, by simp [Nat.mul_comm]⟩
  simp only [softmax, hout, hout', ne_eq, not_true_eq_false, if_false, hlast, hlast'] at h ⊢
  by_cases hzero : width = 0
  · -- Rows of no element are left alone, and there is no element at all.
    rw [if_pos hzero] at h ⊢
    obtain rfl := Except.ok.inj h
    have hnone : x.sampleSize = 0 := Nat.eq_zero_of_zero_dvd (hzero ▸ hwidth)
    have hy : output.IsBatch n := hx.of_shape_eq hout hsize
    have hshape : output'.shape = (output.sample i).shape := by rw [hout', sample, sample, hout]
    refine ⟨hy, congrArg Except.ok (Tensor.ext_size_zero hshape ?_ ?_)⟩
    · rw [hsize', hx.size_sample hi, hnone]
    · rw [hy.size_sample hi, sampleSize, hout]
      exact hnone
  · rw [if_neg hzero] at h ⊢
    obtain rfl := Except.ok.inj h
    -- The full rows take all elements, so that nothing of the output is left.
    have hall := softmaxRows_append (hx.size_eq ▸ hwidth.mul_left n) hsize
    have hall' := softmaxRows_append (hx.size_sample hi ▸ hwidth) hsize'
    rw [hall, hall']
    have hdvd : width ∣ x.data.size := hx.size_eq ▸ hwidth.mul_left n
    have hrows : ((x.rows width).flatMap softmaxRow).toArray.size = x.data.size := by
      rw [List.size_toArray, length_softmaxRows, Nat.div_mul_cancel hdvd]
    refine ⟨hx.of_shape_eq rfl hrows, ?_⟩
    have hlength : ∀ row ∈ x.rows width, (softmaxRow row).length = width := fun row hrow => by
      rw [length_softmaxRow, length_of_mem_rows hrow]
    have hextract := extract_flatMap_rows hlength hx hi hwidth
    rw [Nat.div_mul_cancel hwidth] at hextract
    rw [← hextract]
    rfl

omit [Scalar α] in
/-- A sample has as many full planes as it has channels, even where the area of a plane is taken
modulo a word, because then there is no channel. -/
theorem planes_of_area [Build] {c height width area : Nat} (hx : x.IsBatch n) (hi : i < n)
    (hwidth : x.sampleSize = c * (height * width))
    (harea : Word.settle (height * width) = some area)
    (hne : area ≠ 0) : area ∣ x.sampleSize ∧ x.sampleSize / area = c := by
  rcases Nat.eq_zero_or_pos c with rfl | hpos
  · rw [hwidth, Nat.zero_mul]
    exact ⟨Nat.dvd_zero _, Nat.zero_div _⟩
  · have hlt := hx.sampleSize_lt hi
    have hplane : height * width ≤ x.sampleSize := hwidth ▸ Nat.le_mul_of_pos_left _ hpos
    have hwrap : area = height * width := by
      rw [Word.eq_wrap_of_settle harea, Word.wrap_of_lt (by omega)]
    subst hwrap
    rw [hwidth]
    exact ⟨Nat.dvd_mul_left _ _, Nat.mul_div_cancel _ (Nat.pos_of_ne_zero hne)⟩

theorem wellFormed_of_globalAvgPool [Build] (h : globalAvgPool x = .ok y) : y.WellFormed := by
  simp only [globalAvgPool, Outcome.report_bind] at h
  split at h
  · obtain ⟨area, -, h⟩ := Outcome.bind_eq_ok.1 h
    rw [Outcome.ite_eq_ok (by simp)] at h
    obtain ⟨-, h⟩ := h
    obtain ⟨count, -, h⟩ := Outcome.bind_eq_ok.1 h
    exact (ofArray_eq_ok_iff.1 (Outcome.ofExcept_eq_ok.1 h)).2
  · cases h

theorem globalAvgPool_sample [Build] (hx : x.IsBatch n) (hi : i < n) (h : globalAvgPool x = .ok y) :
    y.IsBatch n ∧ globalAvgPool (x.sample i) = .ok (y.sample i) := by
  have hwell := wellFormed_of_globalAvgPool h
  simp only [globalAvgPool, Outcome.report_bind] at h
  split at h
  · rename_i m c height width hnchw
    have hinput := Shape.nchw?_eq_some.1 hnchw
    obtain rfl : m = n := Shape.leadsWith_mk.1 (hinput ▸ hx.leads)
    obtain ⟨area, harea, h⟩ := Outcome.bind_eq_ok.1 h
    rw [Outcome.ite_eq_ok (by simp)] at h
    obtain ⟨hne, h⟩ := h
    obtain ⟨count, hcount, h⟩ := Outcome.bind_eq_ok.1 h
    obtain ⟨rfl, -⟩ := ofArray_eq_ok_iff.1 (Outcome.ofExcept_eq_ok.1 h)
    have hy := isBatch_of_dims hwell.exact rfl
    refine ⟨hy, ?_⟩
    have hwidth : x.sampleSize = c * (height * width) := by simp [sampleSize, hinput]
    obtain ⟨hdvd, hdiv⟩ := planes_of_area hx hi hwidth (Outcome.orCrash_eq_ok.1 harea) hne
    have hlt := hwell.product_lt
    simp only [Word.product_cons, Word.product_nil, Nat.mul_one] at hlt
    have hle : i * c + c ≤ m * c := by
      rw [← Nat.succ_mul]
      exact Nat.mul_le_mul_right _ hi
    have hrows := rows_sample hx hi hdvd
    rw [hdiv] at hrows
    have hnchw' : (x.sample i).shape.nchw? = some (1, c, height, width) := by
      rw [sample, hinput]
      rfl
    have hcount' : count = m * c :=
      Option.some.inj ((Outcome.orCrash_eq_ok.1 hcount).symm.trans (Word.settle_of_lt hlt))
    have hchannels : (Outcome.orCrash (Word.settle (1 * c)) : Outcome TensorError _) = .ok c := by
      rw [Nat.one_mul]
      exact Outcome.orCrash_eq_ok.2 (Word.settle_of_lt (by omega))
    have hchunks : x.chunks area = x.rows area :=
      chunks_eq_rows (hx.size_eq ▸ hdvd.mul_left m)
    have hchunks' : (x.sample i).chunks area = (x.sample i).rows area :=
      chunks_eq_rows (hx.size_sample hi ▸ hdvd)
    have hsingle := hy.wellFormed_sample hi hwell
    simp only [globalAvgPool, hnchw', Outcome.report_bind, harea, hchannels, Outcome.ok_bind,
      if_neg hne]
    refine Outcome.ofExcept_eq_ok.2 (ofArray_eq_ok_iff.2 ⟨?_, hsingle⟩)
    have hout : Word.product [c, 1, 1] = c := by simp
    rw [sample, sampleSize, List.tail_cons, hout, Shape.withLeading_mk, Tensor.mk.injEq]
    refine ⟨rfl, Array.ext' ?_⟩
    have hextent : min ((i + 1) * c - i * c) (m * c - i * c) = c := by
      rw [Nat.succ_mul]
      omega
    rw [Array.toList_extract, List.extract_eq_take_drop, hchunks', hrows, hchunks, hcount',
      ← List.map_drop, ← List.map_take, List.drop_take, List.take_take, hextent, List.take_take,
      Nat.min_self]
  · cases h

omit [Scalar α] in
theorem flatten_eq_ok [Build] :
    flatten x = .ok y ↔ ∃ m rest count, x.shape.dims = m :: rest ∧
      Shape.product rest = some count ∧ y = ⟨.matrix m count, x.data⟩ ∧ y.WellFormed := by
  cases hdims : x.shape.dims with
  | nil => simp [flatten, hdims]
  | cons m rest =>
    simp only [flatten, hdims]
    constructor
    · intro h
      obtain ⟨count, hcount, h⟩ := Outcome.bind_eq_ok.1 h
      obtain ⟨rfl, hwell⟩ := ofArray_eq_ok_iff.1 (Outcome.ofExcept_eq_ok.1 h)
      exact ⟨m, rest, count, rfl, Outcome.orCrash_eq_ok.1 hcount, rfl, hwell⟩
    · rintro ⟨_, _, count, hcons, hcount, rfl, hwell⟩
      obtain ⟨rfl, rfl⟩ := List.cons.inj hcons
      rw [hcount, Outcome.orCrash_some, Outcome.ok_bind]
      exact Outcome.ofExcept_eq_ok.2 (ofArray_eq_ok_iff.2 ⟨rfl, hwell⟩)

omit [Scalar α] in
theorem wellFormed_of_flatten [Build] (h : flatten x = .ok y) : y.WellFormed := by
  obtain ⟨-, -, -, -, -, -, hwell⟩ := flatten_eq_ok.1 h
  exact hwell

omit [Scalar α] in
theorem flatten_sample [Build] (hx : x.IsBatch n) (hi : i < n) (h : flatten x = .ok y) :
    y.IsBatch n ∧ flatten (x.sample i) = .ok (y.sample i) := by
  obtain ⟨d, rest, hdims⟩ := hx.exists_dims
  obtain ⟨_, _, count, hdims', hcount, rfl, hwell⟩ := flatten_eq_ok.1 h
  obtain ⟨rfl, rfl⟩ := List.cons.inj (hdims.symm.trans hdims')
  have hy : (⟨.matrix n count, x.data⟩ : Tensor α).IsBatch n := isBatch_of_dims hwell.exact rfl
  have hwidth : (⟨.matrix n count, x.data⟩ : Tensor α).sampleSize = x.sampleSize := by
    have hsize : n * _ = n * _ := hy.size_eq.symm.trans hx.size_eq
    exact Nat.eq_of_mul_eq_mul_left (by omega) hsize
  have hdims'' : (x.sample i).shape.dims = 1 :: d :: rest := by
    simp [sample, Shape.withLeading, hdims]
  have hsample : (⟨.matrix n count, x.data⟩ : Tensor α).sample i =
      ⟨.matrix 1 count, (x.sample i).data⟩ := by
    rw [sample, hwidth]
    rfl
  exact ⟨hy, flatten_eq_ok.2
    ⟨1, d :: rest, count, hdims'', hcount, hsample, hy.wellFormed_sample hi hwell⟩⟩

end Kernel

end NetPack
