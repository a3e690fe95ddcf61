import Mathlib.Algebra.Field.Basic
import Mathlib.Tactic.Ring
import NetPack.Proofs.Kernels.ChannelScaling
import NetPack.Proofs.Lowering

/-!
# Folding one batch normalisation

`FoldData` collects the tensors that meet when a batch normalisation is folded into the convolution
before it, and `FoldData.Of` says that they are the operands of two neighbouring nodes and what is
computed from them. What a fold computes from two nodes of a valid graph is given by such data
(`Graph.FoldsTo.exists_data`), and the folded node computes what the two nodes compute one after the
other (`FoldData.Of.execute_folded`). The two nodes compute what the folded node computes, unless
the batch normalisation breaks off where it counts the elements of a channel
(`FoldData.Of.execute_pair`).
-/

namespace NetPack

/-- The tensors of a convolution and of the batch normalisation behind it. -/
structure FoldData (F : Type) where
  /-- Hyper-parameters of the convolution. -/
  hyper : ConvParams
  /-- What is added to the variance. -/
  epsilon : F
  weight : Tensor F
  bias : Option (Tensor F)
  gamma : Tensor F
  beta : Tensor F
  mean : Tensor F
  var : Tensor F
  /-- Number of output channels. -/
  channels : Nat
  /-- The factor of every channel. -/
  factors : Array F
  /-- The new bias of every channel. -/
  biases : Array F

namespace FoldData

variable {F : Type} [ExactScalar F]

/-- The folded weight. -/
def foldedWeight (d : FoldData F) : Tensor F :=
  Graph.scaleChannels d.factors d.weight.data.size d.weight

/-- The folded bias. -/
def foldedBias (d : FoldData F) : Tensor F := ⟨.vector d.channels, d.biases⟩

/-- The statistics of the channels. -/
def statistics (d : FoldData F) : List (Tensor F) := [d.gamma, d.beta, d.mean, d.var]

/-- The data belong to two nodes. -/
structure Of [Build] (d : FoldData F) (params : Table (Tensor F)) (conv norm : Node F) : Prop where
  conv_op : conv.op = .conv d.hyper
  norm_op : norm.op = .batchNorm d.epsilon
  conv_params : Graph.paramTensors params conv = d.weight :: d.bias.toList
  norm_params : Graph.paramTensors params norm = d.statistics
  maps : Kernel.ChannelMaps d.channels d.epsilon d.gamma d.beta d.mean d.var d.bias d.factors
    d.biases
  channels_eq : d.weight.shape.dim? 0 = some d.channels
  channels_lt : d.channels < Word.modulus
  weight_sized : d.weight.Sized
  bias_sized : ∀ b ∈ d.bias, b.shape.numElements = some d.channels ∧ b.Sized
  stats_sized : ∀ s ∈ d.statistics, s.shape.numElements = some d.channels ∧ s.Sized

variable {d : FoldData F} {params : Table (Tensor F)} {conv norm : Node F}

/-- The operation tells from the number of operands whether there is a bias. -/
theorem Of.execute_conv [Build] (h : d.Of params conv norm) (x : Tensor F) :
    conv.op.execute x (Graph.paramTensors params conv) = Kernel.conv x d.weight d.bias d.hyper := by
  rw [h.conv_op, h.conv_params]
  cases d.bias <;> rfl

theorem Of.execute_norm [Build] (h : d.Of params conv norm) (t : Tensor F) :
    norm.op.execute t (Graph.paramTensors params norm) = (do
      let output ← Outcome.orCrash (Tensor.zeros t.shape)
      Kernel.batchNorm t d.gamma d.beta d.mean d.var d.epsilon output) := by
  rw [h.norm_op, h.norm_params]
  rfl

/-- **The folded node computes what both nodes compute.** -/
theorem Of.execute_folded [Build] (h : d.Of params conv norm) {x t y : Tensor F}
    (hconv : conv.op.execute x (Graph.paramTensors params conv) = .ok t)
    (hnorm : norm.op.execute t (Graph.paramTensors params norm) = .ok y) :
    conv.op.execute x [d.foldedWeight, d.foldedBias] = .ok y := by
  rw [h.execute_conv] at hconv
  rw [h.execute_norm] at hnorm
  obtain ⟨output, houtput, hnorm⟩ := Outcome.bind_eq_ok.1 hnorm
  rw [h.conv_op]
  exact Kernel.conv_scaleChannels_of_batchNorm h.maps h.channels_eq h.channels_lt h.weight_sized
    hconv (Tensor.zeros_eq_some_iff.1 (Outcome.orCrash_eq_ok.1 houtput)).1 hnorm

/-- **Both nodes compute what the folded node computes**, if the batch normalisation can count the
elements of a channel. Otherwise it breaks off. -/
theorem Of.execute_pair [Build] (h : d.Of params conv norm) {x y : Tensor F}
    (hfolded : conv.op.execute x [d.foldedWeight, d.foldedBias] = .ok y) :
    ∃ t, conv.op.execute x (Graph.paramTensors params conv) = .ok t ∧
      (norm.op.Counted t.shape →
        norm.op.execute t (Graph.paramTensors params norm) = .ok y) ∧
      (¬ norm.op.Counted t.shape →
        norm.op.execute t (Graph.paramTensors params norm) = Outcome.crash) := by
  rw [h.conv_op] at hfolded
  obtain ⟨t, ht, hwell, hcounted, huncounted⟩ := Kernel.batchNorm_of_conv_scaleChannels h.maps
    h.channels_eq h.channels_lt h.weight_sized h.bias_sized h.stats_sized hfolded
  refine ⟨t, (h.execute_conv x).trans ht, ?_⟩
  rw [h.execute_norm, hwell.zeros, Outcome.orCrash_some, Outcome.ok_bind, h.norm_op, Op.Counted]
  exact ⟨hcounted, fun hnone => huncounted (Option.not_isSome_iff_eq_none.1 hnone)⟩

end FoldData

namespace Graph

variable {F : Type} [ExactScalar F] {g : Graph F} {conv norm : Node F} {epsilon : F}

theorem exists_foldChannel [Build] {gamma beta mean var : Tensor F} {bias : Option (Tensor F)}
    {channel channels : Nat} (epsilon : F) (hc : channel < channels)
    (hbias : ∀ b ∈ bias, b.shape.numElements = some channels ∧ b.Sized)
    (hstats : ∀ s ∈ [gamma, beta, mean, var], s.shape.numElements = some channels ∧ s.Sized) :
    ∃ start f c, Kernel.biasAt bias channel = .ok start ∧
      foldChannel epsilon gamma beta mean var bias channel = .ok (f, start * f + c) ∧
        ∀ v, Kernel.normalized gamma beta mean var epsilon channel v = .ok (v * f + c) := by
  have hlt : ∀ s ∈ [gamma, beta, mean, var], channel < s.data.size := fun s hs => by
    obtain ⟨hnum, hsized⟩ := hstats s hs
    rwa [hsized.size_eq_of_count hnum]
  simp only [List.forall_mem_cons] at hlt
  obtain ⟨hgamma, hbeta, hmean, hvar, -⟩ := hlt
  have hnormal : ∀ v, Kernel.normalized gamma beta mean var epsilon channel v =
      .ok (v * (gamma.data[channel] / Scalar.sqrt (var.data[channel] + epsilon)) +
        (beta.data[channel] - mean.data[channel] *
          (gamma.data[channel] / Scalar.sqrt (var.data[channel] + epsilon)))) := by
    intro v
    rw [Kernel.normalized, Tensor.entry_of_lt hgamma, Tensor.entry_of_lt hbeta,
      Tensor.entry_of_lt hmean, Tensor.entry_of_lt hvar]
    simp only [Outcome.ok_bind, Kernel.batchNormCell]
    refine congrArg Except.ok ?_
    ring
  obtain ⟨start, hstart⟩ := exists_biasAt hc hbias
  refine ⟨start, _, _, hstart, ?_, hnormal⟩
  -- The fold subtracts the mean from the old bias first.
  rw [foldChannel_eq epsilon hstart hgamma hbeta hmean hvar]
  refine congrArg Except.ok (Prod.ext rfl ?_)
  ring

/-- The factors and the new biases of all channels. -/
theorem exists_channelMaps [Build] {gamma beta mean var : Tensor F} {bias : Option (Tensor F)}
    {channels : Nat} (epsilon : F)
    (hbias : ∀ b ∈ bias, b.shape.numElements = some channels ∧ b.Sized)
    (hstats : ∀ s ∈ [gamma, beta, mean, var], s.shape.numElements = some channels ∧ s.Sized) :
    ∃ folded, (List.range channels).mapM (foldChannel epsilon gamma beta mean var bias) =
        .ok folded ∧
      Kernel.ChannelMaps channels epsilon gamma beta mean var bias (folded.map (·.1)).toArray
        (folded.map (·.2)).toArray := by
  have hchannel : ∀ c ∈ List.range channels, ∃ r,
      foldChannel epsilon gamma beta mean var bias c = .ok r := fun c hc => by
    obtain ⟨_, _, _, -, h, -⟩ := exists_foldChannel epsilon (List.mem_range.1 hc) hbias hstats
    exact ⟨_, h⟩
  obtain ⟨folded, hfolded⟩ := Outcome.exists_mapM_eq_ok hchannel
  obtain ⟨hlength, hget⟩ := Outcome.mapM_range_eq_ok.1 hfolded
  refine ⟨folded, hfolded, by simpa using hlength, by simpa using hlength, fun channel hc => ?_⟩
  obtain ⟨start, f, c, hstart, hpair, hnormal⟩ := exists_foldChannel epsilon hc hbias hstats
  have hlt : channel < folded.length := by omega
  have heq : folded[channel] = (f, start * f + c) := by
    rw [hget channel hlt] at hpair
    exact Except.ok.inj hpair
  refine ⟨start, f, c, hstart, ?_, ?_, hnormal⟩
  · simp [List.getElem?_eq_getElem hlt, heq]
  · simp [List.getElem?_eq_getElem hlt, heq]

/-- **What a fold computes** from two nodes of a valid graph. -/
theorem FoldsTo.exists_data [Build] {s : Scope} {weight bias : Tensor F}
    (h : FoldsTo epsilon g.params conv norm weight bias)
    (hsized : ∀ name t, g.params.find? name = some t → t.Sized)
    (hconv : Fits g.params s conv) (hnorm : Fits g.params (s.extend conv) norm)
    (hfold : foldable? g conv norm = some epsilon) :
    ∃ d : FoldData F, d.Of g.params conv norm ∧ d.foldedWeight = weight ∧ d.foldedBias = bias := by
  obtain ⟨⟨p, hop⟩, -, -, -, hnop⟩ := foldable?_eq_some.1 hfold
  obtain ⟨old, b, gamma, beta, mean, var, channels, hops, hnops, hdim, hword, hold, hb, hstats⟩ :=
    exists_operands hsized hconv hnorm hfold
  have hoption : b.toList[0]? = b := by cases b <;> rfl
  obtain ⟨old', gamma', beta', mean', var', count, folded, h⟩ := h
  simp only [paramAt?_eq hconv.bound, paramAt?_eq hnorm.bound, hops, hnops,
    List.getElem?_cons_zero, List.getElem?_cons_succ, Option.some.injEq, hoption] at h
  obtain ⟨rfl, rfl, rfl, rfl, rfl, hcount, hfolded, rfl, hbias⟩ := h
  obtain rfl := hold.size_eq_of_count hcount
  rw [hdim, Option.getD_some] at hfolded hbias
  obtain ⟨folded', hfolded', hmaps⟩ := exists_channelMaps epsilon hb hstats
  obtain rfl := Except.ok.inj (hfolded'.symm.trans hfolded)
  refine ⟨⟨p, epsilon, old, b, gamma, beta, mean, var, channels, _, _⟩,
    ⟨hop, hnop, hops, hnops, hmaps, hdim, hword, hold, hb, hstats⟩, rfl, ?_⟩
  exact (Tensor.ofArray_eq_ok_iff.1 hbias).1.symm

end Graph

end NetPack
