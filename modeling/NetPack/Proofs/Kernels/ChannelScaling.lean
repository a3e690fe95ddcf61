import Mathlib.Algebra.Field.Basic
import NetPack.Convert.Fold
import NetPack.Proofs.Kernels.ChannelNormalization

/-!
# Scaling the channels of a convolution

Over exact numbers a batch normalisation is an affine map `v ↦ v * f + c` of every channel, and a
convolution with an affine map behind it is again a convolution: its filters are scaled by `f`, and
its bias `b` becomes `b * f + c`. `ExactScalar` is a field together with arbitrary functions for
what a field does not have, the square root among them.

Both ways have the same results, whatever the images are. A result of the two operations is one of
the scaled convolution (`Kernel.conv_scaleChannels_of_batchNorm`), and a result of the scaled
convolution is one of the two operations, unless the normalisation breaks off where it counts the
elements of a channel (`Kernel.batchNorm_of_conv_scaleChannels`).
-/

namespace NetPack

/-- Numbers with the operations of a field; the remaining operations are arbitrary functions. -/
class ExactScalar (F : Type) extends Field F, Scalar F

/-- Where the result has a cell, the number of cells of a plane is a word. -/
theorem ConvDims.Fit.max_plane [Build] {d : ConvDims} {p : ConvParams} (hd : d.Fit p)
    {image channel oy ox plane : Nat} (himage : image < d.n) (hchannel : channel < d.o)
    (hoy : oy < d.outH) (hox : ox < d.outW)
    (hplane : Shape.product [d.outH, d.outW] = some plane) :
    Nat.max plane 1 = d.outH * d.outW := by
  obtain ⟨size, hsize⟩ :=
    Option.isSome_iff_exists.1 (Shape.numElements?_isSome_of_numBytes? hd.bytes)
  have hlt := Shape.lt_of_numElements? hsize
  rw [← Shape.product_of_numElements? hsize] at hlt
  simp only [ConvDims.output, Word.product_cons, Word.product_nil, Nat.mul_one] at hlt
  have hpos : 0 < d.outH * d.outW := Nat.mul_pos (by omega) (by omega)
  have hle : d.outH * d.outW ≤ d.n * (d.o * (d.outH * d.outW)) :=
    (Nat.le_mul_of_pos_left _ (by omega)).trans (Nat.le_mul_of_pos_left _ (by omega))
  have hproduct : Word.product [d.outH, d.outW] = d.outH * d.outW := by simp
  rw [← hproduct] at hpos hle hlt ⊢
  exact Shape.max_of_product hplane hpos (hle.trans_lt hlt)

namespace Kernel

variable {F : Type} [ExactScalar F] {x weight : Tensor F} {p : ConvParams}

/-- **An affine map moves into a sum of products.** -/
theorem foldl_productAt_scaled {k k' : Tensor F} {terms : List (Nat × Nat)} {f c : F}
    (h : ∀ t ∈ terms, productAt x k' t = productAt x k t * f) (start : F) :
    terms.foldl (fun acc t => acc + productAt x k' t) (start * f + c) =
      terms.foldl (fun acc t => acc + productAt x k t) start * f + c := by
  induction terms generalizing start with
  | nil => rfl
  | cons t terms ih =>
    rw [List.forall_mem_cons] at h
    rw [List.foldl_cons, List.foldl_cons, h.1, ← ih h.2]
    congr 1
    ring

/-- The factor and the new bias of every channel of a convolution: normalising a value `v` of the
channel gives `v * f + c`. -/
structure ChannelMaps (o : Nat) (epsilon : F) (gamma beta mean var : Tensor F)
    (bias : Option (Tensor F)) (factors biases : Array F) : Prop where
  size_factors : factors.size = o
  size_biases : biases.size = o
  exists_map : ∀ channel < o, ∃ start f c, biasAt bias channel = .ok start ∧
    factors[channel]? = some f ∧ biases[channel]? = some (start * f + c) ∧
      ∀ v, normalized gamma beta mean var epsilon channel v = .ok (v * f + c)

theorem productAt_scaleChannels {factors : Array F} {count : Nat} {t : Nat × Nat} {f : F}
    (ht : t.2 < weight.data.size)
    (hf : factors[t.2 / (count / Nat.max factors.size 1)]? = some f) :
    productAt x (Graph.scaleChannels factors count weight) t = productAt x weight t * f := by
  simp only [productAt, Graph.scaleChannels, Array.getD_eq_getD_getElem?, Array.getElem?_mapIdx,
    Array.getElem?_eq_getElem ht, Option.map_some, Option.getD_some, hf]
  rw [mul_assoc]

/-- The filter of a position is found by dividing by the size of a filter. The number of elements
may have been cut to a word: then the last filter is out of range, or it is the only one. -/
theorem div_filterSize {o size channel r : Nat} (hc : channel < o) (hr : r < size)
    (hlt : channel * size + r < Word.wrap (o * size))
    (hlast : (o - 1) * size + r < Word.wrap (o * size)) :
    (channel * size + r) / (Word.wrap (o * size) / Nat.max o 1) = channel := by
  obtain ⟨m, rfl⟩ : ∃ m, o = m + 1 := ⟨o - 1, by omega⟩
  rw [Nat.add_sub_cancel] at hlast
  rw [show Nat.max (m + 1) 1 = m + 1 from Nat.max_eq_left (by omega)]
  -- A single filter has the number 0, whatever the cut leaves of its size. With more filters
  -- nothing was cut: otherwise the remainder would be too small for the last one.
  rcases Nat.eq_zero_or_pos m with rfl | hm
  · obtain rfl : channel = 0 := by omega
    simp only [Nat.zero_mul, Nat.zero_add, Nat.div_one] at hlt ⊢
    exact Nat.div_eq_of_lt hlt
  · have hsize : size ≤ m * size := Nat.le_mul_of_pos_left _ hm
    have hfits : (m + 1) * size < Word.modulus := by
      by_contra hge
      have hle : Word.wrap ((m + 1) * size) ≤ (m + 1) * size - Word.modulus := by
        rw [Word.wrap, Nat.mod_eq_sub_mod (by omega)]
        exact Nat.mod_le _ _
      have hword := Word.wrap_lt ((m + 1) * size)
      rw [Nat.succ_mul] at hge hle hlast hword
      omega
    rw [Word.wrap_of_lt hfits, Nat.mul_div_cancel_left _ (Nat.succ_pos m)]
    exact Tensor.mul_add_div_of_lt hr

variable {o : Nat} {epsilon : F} {gamma beta mean var t y : Tensor F} {bias : Option (Tensor F)}
  {factors biases : Array F} {d : ConvDims}

/-- Every term of a cell is scaled by the factor of the channel of the cell. -/
theorem productAt_of_mem_terms [Build] (hw : weight.shape = d.weight) (hsized : weight.Sized)
    (hfactors : factors.size = d.o) (hrange : InRange d p x weight)
    {image channel oy ox : Nat} (himage : image < d.n) (hchannel : channel < d.o)
    (hoy : oy < d.outH) (hox : ox < d.outW) {f : F} (hf : factors[channel]? = some f)
    {t : Nat × Nat} (ht : t ∈ d.terms p image channel oy ox) :
    productAt x (Graph.scaleChannels factors weight.data.size weight) t =
      productAt x weight t * f := by
  have hsize : weight.data.size = Word.wrap (d.o * d.filterSize) := by
    rw [Shape.eq_wrap_of_product hsized, hw]
    simp [ConvDims.weight, ConvDims.filterSize, Nat.mul_assoc]
  have hlt := (hrange image himage channel hchannel oy hoy ox hox t ht).2
  obtain ⟨r, hr, hplace, hother⟩ := ConvDims.exists_place ht
  -- The last filter is read at the same place, so that place is in range as well.
  obtain ⟨t', ht', hplace'⟩ := hother (d.o - 1)
  have hlast := (hrange image himage (d.o - 1) (by omega) oy hoy ox hox t' ht').2
  refine productAt_scaleChannels hlt ?_
  rw [hsize] at hlt hlast
  rw [hsize, hfactors, hplace, div_filterSize hchannel hr (hplace ▸ hlt) (hplace' ▸ hlast), hf]

/-- **A result of the normalised convolution is one of the scaled convolution.** -/
theorem conv_scaleChannels_of_batchNorm [Build] {output : Tensor F}
    (hmaps : ChannelMaps o epsilon gamma beta mean var bias factors biases)
    (ho : weight.shape.dim? 0 = some o) (hword : o < Word.modulus) (hsized : weight.Sized)
    (hconv : conv x weight bias p = .ok t) (hout : output.shape = t.shape)
    (hnorm : batchNorm t gamma beta mean var epsilon output = .ok y) :
    conv x (Graph.scaleChannels factors weight.data.size weight) (some ⟨.vector o, biases⟩) p =
      .ok y := by
  obtain ⟨d, hd, hx, hw, -, htshape, htsize, hcells⟩ := conv_eq_ok.1 hconv
  obtain ⟨n, channels, trailing, plane, hdims, -, hplane, hyshape, hysize, hnormal⟩ :=
    (batchNorm_eq_ok hout).1 hnorm
  rw [htshape, ConvDims.output] at hdims
  obtain ⟨rfl, rfl, rfl⟩ : d.n = n ∧ d.o = channels ∧ [d.outH, d.outW] = trailing := by
    simpa using hdims
  obtain rfl : d.o = o := by simpa [hw, ConvDims.weight, Shape.dim?] using ho
  have hrange : InRange d p x weight :=
    inRange_of_cells fun i hi => ⟨_, hcells i (by rw [htsize]; exact hi)⟩
  refine conv_eq_ok.2 ⟨d, hd, hx, hw, ?_, hyshape.trans htshape, hysize.trans htsize, ?_⟩
  · rintro b ⟨⟩
    exact Shape.numElements_vector hword
  · intro i hi
    have hit : i < t.data.size := hysize ▸ hi
    obtain ⟨himage, hchannel, hoy, hox⟩ := Tensor.coordinates_lt (htsize ▸ hit)
    have hvalue := hnormal i hit hi
    rw [hd.max_plane himage hchannel hoy hox hplane] at hvalue
    obtain ⟨start, f, c, hstart, hf, hb, hmap⟩ := hmaps.exists_map _ hchannel
    obtain ⟨hplaced, start', hstart', hterms, hcell⟩ := cell_eq_ok.1 (hcells i hit)
    obtain rfl : start = start' := by simpa [hstart] using hstart'
    rw [hmap, Except.ok.injEq] at hvalue
    rw [← hvalue, ← hcell]
    refine cell_eq_ok.2 ⟨hplaced, start * f + c, ?_, ?_, ?_⟩
    · exact Outcome.entry_eq_ok.2 hb
    · simpa [Graph.scaleChannels] using hterms
    · exact foldl_productAt_scaled (fun t' ht' => productAt_of_mem_terms hw hsized
        hmaps.size_factors hrange himage hchannel hoy hox hf ht') start

/-- **A result of the scaled convolution is one of the normalised convolution**, if the
normalisation can count the elements of a channel. Otherwise it breaks off. -/
theorem batchNorm_of_conv_scaleChannels [Build]
    (hmaps : ChannelMaps o epsilon gamma beta mean var bias factors biases)
    (ho : weight.shape.dim? 0 = some o) (hword : o < Word.modulus) (hsized : weight.Sized)
    (hbias : ∀ b ∈ bias, b.shape.numElements = some o ∧ b.Sized)
    (hstats : ∀ s ∈ [gamma, beta, mean, var], s.shape.numElements = some o ∧ s.Sized)
    (h : conv x (Graph.scaleChannels factors weight.data.size weight)
      (some ⟨.vector o, biases⟩) p = .ok y) :
    ∃ t, conv x weight bias p = .ok t ∧ t.WellFormed ∧
      ((Shape.product (t.shape.dims.drop 2)).isSome →
        batchNorm t gamma beta mean var epsilon (.blank t.shape) = .ok y) ∧
      (Shape.product (t.shape.dims.drop 2) = none →
        batchNorm t gamma beta mean var epsilon (.blank t.shape) = Outcome.crash) := by
  obtain ⟨d, hd, hx, hw, -, -, hsize, hcells⟩ := conv_eq_ok.1 h
  replace hw : weight.shape = d.weight := hw
  obtain rfl : d.o = o := by simpa [hw, ConvDims.weight, Shape.dim?] using ho
  -- The scaled filters have the same size, and the windows are the same. So no position is out of
  -- range, all windows can be placed, and the convolution has a result.
  have hexists : ∀ i < d.n * d.o * d.outH * d.outW, ∃ v, Tensor.cellAt d.o d.outH d.outW
      (d.cell p x (Graph.scaleChannels factors weight.data.size weight)
        (some ⟨.vector d.o, biases⟩)) i = .ok v :=
    fun i hi => ⟨_, hcells i (by rw [hsize]; exact hi)⟩
  have hrange : InRange d p x weight := by
    simpa [InRange, Graph.scaleChannels] using inRange_of_cells hexists
  obtain ⟨t, ht, htshape, htwell⟩ :=
    exists_conv bias hd hx hw hrange (placed_of_cells hexists) hbias
  have hdims : t.shape.dims = [d.n, d.o, d.outH, d.outW] := congrArg Shape.dims htshape
  have hfit : Normalizable t gamma beta mean var (.blank t.shape) d.o :=
    ⟨rfl, by rw [Shape.dim?, hdims]; rfl, fun s hs => (hstats s hs).1⟩
  refine ⟨t, ht, htwell, fun hcount => ?_, fun hnone => ?_⟩
  · obtain ⟨y', hy', -⟩ := hfit.exists_batchNorm htwell.exact (fun s hs => (hstats s hs).2) hcount
      epsilon
    have hscaled := conv_scaleChannels_of_batchNorm hmaps ho hword hsized ht rfl hy'
    exact Except.ok.inj (hscaled.symm.trans h) ▸ hy'
  · rw [hdims] at hnone
    exact batchNorm_of_not_counted epsilon rfl hdims (fun s hs => (hstats s hs).1) hnone

end Kernel

end NetPack
