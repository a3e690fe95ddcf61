import Mathlib.Data.List.GetD
import NetPack.Input.Spec
import NetPack.Proofs.Kernels.ChannelNormalization
import NetPack.Proofs.Persistence

/-!
# Preprocessing

What the runtime does to the pixels of an image. Scale and bias are fixed when the specification of
the input is made, in the order of its channels (`InputSpec.getElem?_channelBias`). The runtime
finds the bias of a pixel from its position alone, and this is the bias of the channel that the
pixel belongs to (`InputSpec.preprocess_ofImage`): pixels of the declared shape become
`pixel * scale + bias`, and pixels of any other shape are refused. The size of a plane is a plain
product, so a checked build may break off where the declared shape has a zero extent
(`InputSpec.not_forall_preprocess`).
-/

namespace NetPack

namespace Normalization

/-- The negated mean of a colour, divided by its deviation. -/
def shift (n : Normalization) (colour : Nat) : Binary32 :=
  -n.mean.toList.getD colour 0 / n.std.toList.getD colour 0

/-- What is added to the pixels of a channel: the shift of its colour, which comes in reverse order
for blue, green and red, or the average of all three. -/
def channelShift (n : Normalization) : ColorLayout → Nat → Binary32
  | .rgb, channel => n.shift channel
  | .bgr, channel => n.shift (2 - channel)
  | .grayscale, _ => Scalar.total [n.shift 0, n.shift 1, n.shift 2] / Scalar.count 3

end Normalization

namespace InputSpec

variable {name : String} {d : Descriptor} {n : Normalization} {layout : ColorLayout}
  {spec : InputSpec} {pixels y : Tensor Binary32} {bias : List Binary32} {scale : Binary32}

theorem length_channelBias (n : Normalization) (layout : ColorLayout) :
    (channelBias n layout).length = layout.channels := by
  cases layout <;> rfl

/-- The bias of a specification is that of its channels. -/
theorem getElem?_channelBias {channel : Nat} (h : channel < layout.channels) :
    (channelBias n layout)[channel]? = some (n.channelShift layout channel) := by
  cases layout with
  | rgb | bgr =>
    have hthree : channel < 3 := h
    obtain rfl | rfl | rfl : channel = 0 ∨ channel = 1 ∨ channel = 2 := by omega
    all_goals rfl
  | grayscale =>
    obtain rfl : channel = 0 := Nat.lt_one_iff.1 h
    rfl

/-- A pixel at a position, scaled and shifted. The planes of the image have `plane` pixels. -/
def shiftPixel (plane : Nat) (scale : Binary32) (bias : List Binary32) (v : Binary32) (i : Nat) :
    Binary32 :=
  v * scale + bias.getD (i / Nat.max plane 1 % bias.length) 0

/-- Every position finds a bias if there is one at all. -/
theorem shiftPixel_eq_ok (plane : Nat) (hbias : bias ≠ []) (v : Binary32) (i : Nat) :
    (do return v * scale + (← Outcome.entry bias.toArray
      (i / Nat.max plane 1 % bias.length)) : Outcome InputError Binary32) =
      .ok (shiftPixel plane scale bias v i) := by
  have hlt : i / Nat.max plane 1 % bias.length < bias.length :=
    Nat.mod_lt _ (List.length_pos_iff.2 hbias)
  rw [Outcome.entry_of_lt (by simpa using hlt), shiftPixel, List.getD_eq_getElem _ _ hlt]
  rfl

theorem preprocess_image [Build] {plane : Nat} (hshape : pixels.shape = d.shape)
    (hplane : Shape.product [d.height, d.width] = some plane) (hbias : bias ≠ []) :
    (image name d.shape layout scale bias).preprocess pixels =
      .ok ⟨pixels.shape, (pixels.data.toList.zipIdx.map fun p =>
        shiftPixel plane scale bias p.1 p.2).toArray⟩ := by
  simp only [preprocess, hshape, Descriptor.shape, Descriptor.dims, ne_eq, not_true_eq_false,
    if_false, hplane, Outcome.orCrash_some, Outcome.ok_bind]
  rw [Outcome.bind_eq_ok]
  exact ⟨_, Outcome.mapM_of_forall fun p _ => shiftPixel_eq_ok plane hbias p.1 p.2, rfl⟩

/-- The pixels of a plane are counted before the first of them is looked at. -/
theorem preprocess_of_not_counted [Build] (hshape : pixels.shape = d.shape)
    (hnone : Shape.product [d.height, d.width] = none) :
    (image name d.shape layout scale bias).preprocess pixels = Outcome.crash := by
  simp only [preprocess, hshape, Descriptor.shape, Descriptor.dims, ne_eq, not_true_eq_false,
    if_false, hnone]
  rfl

/-- The pixels of a plane can be counted in a release build, and where no extent is zero. -/
theorem isSome_product_plane [Build] (hpixels : pixels.Exact) (hshape : pixels.shape = d.shape)
    (hpositive : Build.checks = true → d.shape.Positive) :
    (Shape.product [d.height, d.width]).isSome := by
  cases hchecks : Build.checks with
  | false => exact Op.counted_release hchecks (.batchNorm 0 : Op Nat) d.shape
  | true =>
    have hlt : Word.product d.shape.dims < Word.modulus :=
      hshape ▸ hpixels.size_eq ▸ hpixels.size_lt
    exact Op.counted_of_positive (.batchNorm 0 : Op Nat) (hpositive hchecks) hlt

/-- The channel of a position selects the shift. -/
theorem elementAt_shiftPixel [Build] {plane : Nat} (hpixels : pixels.Exact)
    (hshape : pixels.shape = d.shape) (hchannels : d.channels = layout.channels)
    (hplane : Shape.product [d.height, d.width] = some plane) {image channel row column : Nat}
    (hcoords : Shape.Within [image, channel, row, column] d.dims) :
    Tensor.elementAt ⟨pixels.shape, (pixels.data.toList.zipIdx.map fun p =>
        shiftPixel plane scale (channelBias n layout) p.1 p.2).toArray⟩
      [image, channel, row, column] =
      pixels.elementAt [image, channel, row, column] * scale + n.channelShift layout channel := by
  have hlen : (channelBias n layout).length = d.channels := by
    rw [length_channelBias, hchannels]
  have hdims : pixels.shape.dims = d.dims := congrArg Shape.dims hshape
  have hplace := hpixels.rowMajor_lt (hdims ▸ hcoords)
  have hfound : Shape.rowMajor pixels.shape.dims [image, channel, row, column] /
      Nat.max plane 1 % d.channels = channel := by
    have hword := hpixels.size_eq ▸ hpixels.size_lt
    rw [hdims] at hword ⊢
    exact Shape.channel_rowMajor hplane hcoords hword
  have hchannel : channel < layout.channels :=
    hchannels ▸ (List.forall₂_cons.1 (List.forall₂_cons.1 hcoords).2).1
  rw [Tensor.elementAt_eq (by simpa using hplace), Tensor.elementAt_eq hplace]
  simp only [List.getElem_toArray, List.getElem_map, List.getElem_zipIdx, Array.getElem_toList,
    Nat.zero_add, shiftPixel, hlen, hfound, List.getD_eq_getElem?_getD,
    getElem?_channelBias hchannel, Option.getD_some]

/-- **Every pixel is shifted by the bias of its own channel.** Pixels of another shape than the
declared one are refused. On those of the declared shape preprocessing has a result if it can count
the pixels of a plane, as every release build can and every build can if no extent is zero;
otherwise it breaks off. -/
theorem preprocess_ofImage [Build] (hspec : ofImage name d n layout = .ok spec)
    (hpixels : pixels.Exact) :
    (pixels.shape ≠ d.shape →
      spec.preprocess pixels = Outcome.report (.pixels d.shape pixels.shape)) ∧
    (pixels.shape = d.shape →
      ((Shape.product [d.height, d.width]).isSome →
        ∃ y, spec.preprocess pixels = .ok y ∧ y.shape = d.shape ∧ y.Exact ∧
          (pixels.WellFormed → y.WellFormed) ∧
          ∀ image < d.batch, ∀ channel < d.channels, ∀ row < d.height, ∀ column < d.width,
            y.elementAt [image, channel, row, column] =
              pixels.elementAt [image, channel, row, column] * (1 / Scalar.count 255) +
                n.channelShift layout channel) ∧
      (Shape.product [d.height, d.width] = none → spec.preprocess pixels = Outcome.crash) ∧
      ((Build.checks = true → d.shape.Positive) →
        (Shape.product [d.height, d.width]).isSome)) := by
  obtain ⟨-, hchannels, rfl⟩ := ofImage_eq_ok.1 hspec
  refine ⟨fun hshape => ?_, fun hshape => ⟨fun hcount => ?_, preprocess_of_not_counted hshape,
    isSome_product_plane hpixels hshape⟩⟩
  · rw [preprocess, if_pos hshape]
    rfl
  · obtain ⟨plane, hplane⟩ := Option.isSome_iff_exists.1 hcount
    have hbias : channelBias n layout ≠ [] := by
      cases layout <;> simp [channelBias, colourBias, Colours.toList]
    have hsize : (pixels.data.toList.zipIdx.map fun p => shiftPixel plane
        (1 / Scalar.count 255) (channelBias n layout) p.1 p.2).toArray.size =
          pixels.data.size := by simp
    refine ⟨_, preprocess_image hshape hplane hbias, hshape, hpixels.of_shape_eq rfl hsize,
      fun hwell => Op.wellFormed_of_shape_eq hwell rfl hsize,
      fun image himage channel hchannel row hrow column hcolumn => ?_⟩
    exact elementAt_shiftPixel hpixels hshape hchannels hplane
      (by simp [Shape.Within, Descriptor.dims, himage, hchannel, hrow, hcolumn])

/-- A blue, a green and a red pixel. -/
def threePixels : Tensor Binary32 :=
  ⟨⟨[1, 3, 1, 1]⟩, #[Scalar.count 10, Scalar.count 20, Scalar.count 30]⟩

/-- The first channel is the blue one. -/
theorem preprocess_ofImage_threePixels :
    ∃ spec, ofImage "input" ⟨1, 3, 1, 1, .f32⟩ .standard .bgr = .ok spec ∧ threePixels.WellFormed ∧
      ∃ y, spec.preprocess threePixels = .ok y ∧
        y.elementAt [0, 0, 0, 0] = Scalar.count 10 * (1 / Scalar.count 255) +
          -Normalization.standard.mean.blue / Normalization.standard.std.blue := by
  have hspec : ofImage "input" ⟨1, 3, 1, 1, .f32⟩ .standard .bgr =
      .ok (image "input" ⟨[1, 3, 1, 1]⟩ .bgr (1 / Scalar.count 255) (channelBias .standard .bgr)) :=
    ofImage_eq_ok.2 ⟨by decide, rfl, rfl⟩
  have hpixels : threePixels.WellFormed := by decide
  obtain ⟨hcounted, -, hpositive⟩ := (preprocess_ofImage hspec hpixels.exact).2 rfl
  obtain ⟨y, hy, -, -, -, hcells⟩ := hcounted (hpositive fun _ => by decide)
  exact ⟨_, hspec, hpixels, y, hy, hcells 0 (by decide) 0 (by decide) 0 (by decide) 0 (by decide)⟩

/-- Images of three planes that are too large to count, but no image at all. -/
def noImages : Descriptor := ⟨0, 3, 2 ^ 40, 2 ^ 40, .f32⟩

/-- **Preprocessing may break off on no pixels at all.** -/
theorem not_forall_preprocess :
    ¬ ∀ (d : Descriptor) (n : Normalization) (layout : ColorLayout) (spec : InputSpec)
      (pixels : Tensor Binary32), ofImage "input" d n layout = .ok spec → pixels.WellFormed →
      pixels.shape = d.shape → ∃ y, spec.preprocess pixels = .ok y := by
  intro h
  have hspec : ofImage "input" noImages .standard .rgb =
      .ok (image "input" noImages.shape .rgb (1 / Scalar.count 255) (channelBias .standard .rgb)) :=
    ofImage_eq_ok.2 ⟨by decide, rfl, rfl⟩
  obtain ⟨y, hy⟩ := h _ _ _ _ ⟨noImages.shape, #[]⟩ hspec (by decide) rfl
  rw [preprocess_of_not_counted rfl (by decide)] at hy
  exact Outcome.crash_ne_ok hy

end InputSpec

end NetPack
