import NetPack.Op.Basic
import NetPack.Proofs.Kernels.Normalization
import NetPack.Proofs.Kernels.Pooling
import NetPack.Proofs.Kernels.Rows

/-!
# Operations whose shape is inferred

For every operation there is one lemma that says for which shapes of the input and the parameters a
shape is inferred, and which one (`Op.inferShape_conv` to `Op.inferShape_flatten`). On well-formed
tensors of these shapes the operation has a result of the inferred shape
(`Op.yields_of_inferShape`): the eight kernels never read beyond their operands. Where no extent is
zero, none of the result is (`Op.exists_execute`).

A checked build may break off on operands whose shape is inferred, because inference places no
window (`Op.Placed`) and counts no elements of a channel (`Op.Counted`). In a release build there is
no such operand (`Op.placed_release`, `Op.counted_release`).
-/

namespace NetPack

/-- The extents of a convolution are determined by the shapes of its operands. -/
theorem ConvDims.Fit.eq_of_shapes [Build] {p : ConvParams} {d d' : ConvDims} (hd : d.Fit p)
    (hd' : d'.Fit p) (hin : d.input = d'.input) (hweight : d.weight = d'.weight) : d = d' := by
  have hout := (ConvParams.outputShape_eq_ok.2 ⟨d, hd, rfl, rfl, rfl⟩).symm.trans
    (ConvParams.outputShape_eq_ok.2 ⟨d', hd', hin, hweight, rfl⟩)
  cases d
  cases d'
  simp_all [ConvDims.input, ConvDims.weight, ConvDims.output]

/-- The extents of a pooling are determined by the shape of the images. -/
theorem PoolDims.Fit.eq_of_shape [Build] {p : PoolParams} {d d' : PoolDims} (hd : d.Fit p)
    (hd' : d'.Fit p) (hin : d.input = d'.input) : d = d' := by
  have hout := (PoolParams.outputShape_eq_ok.2 ⟨d, hd, rfl, rfl⟩).symm.trans
    (PoolParams.outputShape_eq_ok.2 ⟨d', hd', hin, rfl⟩)
  cases d
  cases d'
  simp_all [PoolDims.input, PoolDims.output]

namespace Op

variable [Build] {α : Type} {input out : Shape} {shapes : List Shape}

/-! ### Shape inference -/

attribute [local simp] inferShape

theorem inferShape_conv {p : ConvParams} :
    (conv p : Op α).inferShape input shapes = .ok out ↔
      ∃ d : ConvDims, d.Fit p ∧ input = d.input ∧ out = d.output ∧
        ∃ bias, shapes = d.weight :: bias ∧ bias.length ≤ 1 ∧
          ∀ b ∈ bias, b.numElements = some d.o := by
  cases shapes with
  | nil => simp
  | cons weight bias =>
    simp only [inferShape, Outcome.report_bind]
    rw [Outcome.ite_eq_ok (by simp), Outcome.bind_eq_ok, Nat.not_lt]
    constructor
    · rintro ⟨hlen, _, hout, h⟩
      obtain ⟨d, hd, rfl, rfl, rfl⟩ := ConvParams.outputShape_eq_ok.1 hout
      cases bias with
      | nil => exact ⟨d, hd, rfl, (Outcome.pure_eq_ok_iff.1 h).symm, [], rfl, hlen, by simp⟩
      | cons b rest =>
        obtain rfl : rest = [] := by simpa using hlen
        obtain ⟨count, hcount, h⟩ := Outcome.bind_eq_ok.1 h
        rw [Outcome.ite_eq_ok (by simp), Outcome.pure_eq_ok_iff] at h
        obtain ⟨hb, rfl⟩ := h
        have hchannels : count = d.o := by simpa [ConvDims.output, Shape.dim?] using hb
        refine ⟨d, hd, rfl, rfl, [b], rfl, hlen, List.forall_mem_singleton.2 ?_⟩
        rw [Outcome.orCrash_eq_ok.1 hcount, hchannels]
    · rintro ⟨d, hd, rfl, rfl, bias', hcons, hlen, hbias⟩
      obtain ⟨rfl, rfl⟩ := List.cons.inj hcons
      refine ⟨hlen, d.output, ConvParams.outputShape_eq_ok.2 ⟨d, hd, rfl, rfl, rfl⟩, ?_⟩
      cases bias with
      | nil => rfl
      | cons b rest =>
        simp [hbias b List.mem_cons_self, ConvDims.output, Shape.dim?]

theorem inferShape_linear :
    (linear : Op α).inferShape input shapes = .ok out ↔
      ∃ n k o bias, input = .matrix n k ∧ out = .matrix n o ∧ shapes = .matrix o k :: bias ∧
        bias.length ≤ 1 ∧ ∀ b ∈ bias, b.numElements = some o := by
  obtain ⟨dims⟩ := input
  rcases shapes with _ | ⟨⟨weight⟩, bias⟩
  · simp
  · simp only [inferShape, Outcome.report_bind]
    rw [Outcome.ite_eq_ok (by simp), Nat.not_lt]
    constructor
    · rintro ⟨hlen, h⟩
      split at h
      · rename_i n k
        split at h
        · rename_i o k'
          rw [Outcome.ite_eq_ok (by simp), not_not] at h
          obtain ⟨rfl, h⟩ := h
          cases bias with
          | nil =>
            obtain rfl := Outcome.pure_eq_ok_iff.1 h
            exact ⟨n, k, o, [], rfl, rfl, rfl, hlen, by simp⟩
          | cons b rest =>
            obtain rfl : rest = [] := by simpa using hlen
            obtain ⟨count, hcount, h⟩ := Outcome.bind_eq_ok.1 h
            rw [Outcome.ite_eq_ok (by simp), Outcome.pure_eq_ok_iff, not_not] at h
            obtain ⟨rfl, rfl⟩ := h
            exact ⟨n, k, count, [b], rfl, rfl, rfl, hlen,
              List.forall_mem_singleton.2 (Outcome.orCrash_eq_ok.1 hcount)⟩
        · cases h
      · cases h
    · rintro ⟨n, k, o, bias', hin, rfl, hcons, hlen, hbias⟩
      obtain ⟨hw, rfl⟩ := List.cons.inj hcons
      obtain rfl : dims = [n, k] := congrArg Shape.dims hin
      obtain rfl : weight = [o, k] := congrArg Shape.dims hw
      refine ⟨hlen, ?_⟩
      cases bias with
      | nil => simp
      | cons b rest => simp [hbias b List.mem_cons_self]

theorem inferShape_batchNorm {epsilon : α} :
    (batchNorm epsilon).inferShape input shapes = .ok out ↔
      ∃ n channels trailing, input = ⟨n :: channels :: trailing⟩ ∧ out = input ∧
        shapes.length = 4 ∧ ∀ s ∈ shapes, s.numElements = some channels := by
  -- Any other number of parameters is refused before a shape is looked at.
  by_cases hlen : shapes.length = 4
  · obtain ⟨gamma, beta, mean, var, rfl⟩ := List.length_eq_four.1 hlen
    obtain ⟨dims⟩ := input
    rcases dims with _ | ⟨n, _ | ⟨channels, trailing⟩⟩
    · simp [Shape.dim?]
    · simp [Shape.dim?]
    · simp only [inferShape, Shape.dim?, List.getElem?_cons_succ, List.getElem?_cons_zero,
        Outcome.report_bind]
      constructor
      · intro h
        obtain ⟨misfit, hmisfit, h⟩ := Outcome.bind_eq_ok.1 h
        cases misfit with
        | some stat => cases h
        | none =>
          obtain rfl := Outcome.pure_eq_ok_iff.1 h
          exact ⟨n, channels, trailing, rfl, rfl, hlen, Shape.firstMisfit_eq_none.1 hmisfit⟩
      · rintro ⟨_, _, _, hcons, rfl, -, hstats⟩
        obtain ⟨rfl, rfl, rfl⟩ : n = _ ∧ channels = _ ∧ trailing = _ := by simpa using hcons
        rw [Shape.firstMisfit_eq_none.2 hstats]
        rfl
  · have hother : (batchNorm epsilon).inferShape input shapes =
        Outcome.report ((batchNorm epsilon).arityError shapes.length) := by
      rcases shapes with _ | ⟨_, _ | ⟨_, _ | ⟨_, _ | ⟨_, _ | ⟨_, _⟩⟩⟩⟩⟩ <;>
        first
        | rfl
        | exact absurd rfl hlen
    rw [hother]
    simp [hlen]

theorem inferShape_activation {kind : Activation} :
    (activation kind : Op α).inferShape input shapes = .ok out ↔ shapes = [] ∧ out = input := by
  cases shapes with
  | nil =>
    rw [inferShape, Outcome.pure_eq_ok_iff]
    simp [eq_comm]
  | cons s ss => simp

theorem inferShape_softmax :
    (softmax : Op α).inferShape input shapes = .ok out ↔
      shapes = [] ∧ input.rank ≠ 0 ∧ out = input := by
  cases shapes with
  | nil =>
    rw [inferShape, Outcome.ite_eq_ok (by simp), Outcome.pure_eq_ok_iff]
    simp [eq_comm]
  | cons s ss => simp

theorem inferShape_maxPool {p : PoolParams} :
    (maxPool p : Op α).inferShape input shapes = .ok out ↔
      shapes = [] ∧ ∃ d : PoolDims, d.Fit p ∧ input = d.input ∧ out = d.output := by
  cases shapes with
  | nil => simp [PoolParams.outputShape_eq_ok]
  | cons s ss => simp

theorem inferShape_globalAvgPool :
    (globalAvgPool : Op α).inferShape input shapes = .ok out ↔
      shapes = [] ∧ ∃ n c h w, input = ⟨[n, c, h, w]⟩ ∧ out = ⟨[n, c, 1, 1]⟩ := by
  cases shapes with
  | nil =>
    simp only [inferShape, true_and]
    constructor
    · intro h
      split at h
      · rename_i n c h' w hin
        exact ⟨n, c, h', w, Shape.nchw?_eq_some.1 hin, (Outcome.pure_eq_ok_iff.1 h).symm⟩
      · cases h
    · rintro ⟨n, c, h, w, rfl, rfl⟩
      rfl
  | cons s ss => simp

theorem inferShape_flatten :
    (flatten : Op α).inferShape input shapes = .ok out ↔
      shapes = [] ∧ ∃ n rest m, input = ⟨n :: rest⟩ ∧ Shape.product rest = some m ∧
        out = .matrix n m := by
  obtain ⟨dims⟩ := input
  cases shapes with
  | nil =>
    cases dims with
    | nil => simp
    | cons n rest =>
      simp only [inferShape, true_and, Outcome.bind_eq_ok, Outcome.orCrash_eq_ok,
        Outcome.pure_eq_ok_iff]
      constructor
      · rintro ⟨m, hm, rfl⟩
        exact ⟨n, rest, m, rfl, hm, rfl⟩
      · rintro ⟨_, _, m, hcons, hm, rfl⟩
        obtain ⟨rfl, rfl⟩ : n = _ ∧ rest = _ := by simpa using hcons
        exact ⟨m, hm, rfl⟩
  | cons s ss => simp

theorem inferShape_positive {op : Op α} (hinput : input.Positive)
    (hword : Word.product input.dims < Word.modulus) (hshapes : ∀ s ∈ shapes, s.Positive)
    (h : op.inferShape input shapes = .ok out) : out.Positive := by
  cases op with
  | conv p =>
    obtain ⟨d, hd, rfl, rfl, bias, rfl, -⟩ := inferShape_conv.1 h
    exact hd.output_positive hinput (hshapes _ List.mem_cons_self)
  | linear =>
    obtain ⟨n, k, o, bias, rfl, rfl, rfl, -⟩ := inferShape_linear.1 h
    have hn : 0 < n := hinput n List.mem_cons_self
    have ho : 0 < o := hshapes (.matrix o k) List.mem_cons_self o List.mem_cons_self
    simp [Shape.matrix, Shape.positive_mk, hn, ho]
  | batchNorm epsilon =>
    obtain ⟨_, _, _, -, rfl, -⟩ := inferShape_batchNorm.1 h
    exact hinput
  | activation kind => exact (inferShape_activation.1 h).2 ▸ hinput
  | softmax => exact (inferShape_softmax.1 h).2.2 ▸ hinput
  | maxPool p =>
    obtain ⟨-, d, hd, rfl, rfl⟩ := inferShape_maxPool.1 h
    exact hd.output_positive hinput
  | globalAvgPool =>
    obtain ⟨-, n, c, _, _, rfl, rfl⟩ := inferShape_globalAvgPool.1 h
    have hn : 0 < n := hinput n (by simp)
    have hc : 0 < c := hinput c (by simp)
    simp [Shape.positive_mk, hn, hc]
  | flatten =>
    obtain ⟨-, n, rest, m, rfl, hm, rfl⟩ := inferShape_flatten.1 h
    simp only [Shape.positive_mk, List.forall_mem_cons] at hinput
    obtain ⟨hn, hrest⟩ := hinput
    -- The product of the other extents is a word, so it is not cut to zero.
    have hlt : Word.product rest < Word.modulus :=
      lt_of_le_of_lt (Nat.le_mul_of_pos_left _ hn) hword
    obtain rfl := Option.some.inj (hm.symm.trans (Shape.product_of_pos hrest hlt))
    simp [Shape.matrix, Shape.positive_mk, hn, Word.product_pos hrest]

/-! ### Operands on which a build does not break off -/

/-- The build can place the windows of an operation on operands of the given shapes. -/
def Placed (op : Op α) (input : Shape) (shapes : List Shape) : Prop :=
  match op, shapes with
  | conv p, weight :: _ =>
    ∀ d : ConvDims, d.Fit p → input = d.input → weight = d.weight → d.Placed p
  | maxPool p, [] => ∀ d : PoolDims, d.Fit p → input = d.input → d.Placed p
  | _, _ => True

/-- The build can count the elements of a channel where an operation does. -/
def Counted (op : Op α) (input : Shape) : Prop :=
  match op with
  | batchNorm _ => (Shape.product (input.dims.drop 2)).isSome
  | _ => True

theorem placed_conv_iff {p : ConvParams} {d : ConvDims} (hd : d.Fit p)
    (bias : List Shape) : (conv p : Op α).Placed d.input (d.weight :: bias) ↔ d.Placed p := by
  constructor
  · exact fun h => h d hd rfl rfl
  · intro h d' hd' hin hweight
    exact hd.eq_of_shapes hd' hin hweight ▸ h

theorem placed_maxPool_iff {p : PoolParams} {d : PoolDims} (hd : d.Fit p) :
    (maxPool p : Op α).Placed d.input [] ↔ d.Placed p := by
  constructor
  · exact fun h => h d hd rfl
  · intro h d' hd' hin
    exact hd.eq_of_shape hd' hin ▸ h

theorem placed_release (h : Build.checks = false) (op : Op α) (input : Shape)
    (shapes : List Shape) : op.Placed input shapes := by
  unfold Placed
  split
  · exact fun d hd _ _ => hd.placed fun hchecks => by simp [h] at hchecks
  · exact fun d hd _ => hd.placed fun hchecks => by simp [h] at hchecks
  · trivial

theorem counted_release (h : Build.checks = false) (op : Op α) (input : Shape) :
    op.Counted input := by
  unfold Counted
  split
  · exact Option.isSome_iff_exists.2 ⟨_, Shape.numElements_release h ⟨input.dims.drop 2⟩⟩
  · trivial

/-- Without zero extents every build counts the elements of a channel. -/
theorem counted_of_positive (op : Op α) (hinput : input.Positive)
    (hword : Word.product input.dims < Word.modulus) : op.Counted input := by
  cases op with
  | batchNorm epsilon =>
    have hrest : ∀ d ∈ input.dims.drop 2, 0 < d := fun d hd => hinput d (List.mem_of_mem_drop hd)
    have hfirst : 0 < Word.product (input.dims.take 2) :=
      Word.product_pos fun d hd => hinput d (List.mem_of_mem_take hd)
    have hproduct := Word.product_append (input.dims.take 2) (input.dims.drop 2)
    rw [List.take_append_drop] at hproduct
    rw [hproduct] at hword
    have hlt : Word.product (input.dims.drop 2) < Word.modulus :=
      lt_of_le_of_lt (Nat.le_mul_of_pos_left _ hfirst) hword
    rw [Counted, Shape.product_of_pos hrest hlt]
    rfl
  | _ => trivial

/-! ### Execution -/

attribute [local simp] execute

variable [Scalar α] {x : Tensor α} {params : List (Tensor α)}

/-- A well-formed result of the inferred shape. -/
def Yields (op : Op α) (x : Tensor α) (params : List (Tensor α)) (out : Shape) : Prop :=
  ∃ y, op.execute x params = .ok y ∧ y.shape = out ∧ y.WellFormed

/-- A result of the inferred shape, in which again no extent is zero. -/
def Executes (op : Op α) (x : Tensor α) (params : List (Tensor α)) (out : Shape) : Prop :=
  ∃ y, op.execute x params = .ok y ∧ y.shape = out ∧ y.Proper

theorem yields_conv {p : ConvParams} (hx : x.WellFormed) (hparams : ∀ t ∈ params, t.WellFormed)
    (hplaced : (conv p : Op α).Placed x.shape (params.map (·.shape)))
    (h : (conv p : Op α).inferShape x.shape (params.map (·.shape)) = .ok out) :
    Yields (conv p) x params out := by
  obtain ⟨d, hd, hin, rfl, bias, hcons, hlen, hbias⟩ := inferShape_conv.1 h
  obtain ⟨weight, rest, rfl, hweight, rfl⟩ := List.map_eq_cons_iff.1 hcons
  have hrange := Kernel.inRange_of_wellFormed hd hin hweight hx (hparams weight List.mem_cons_self)
  have hwindows := hplaced d hd hin hweight
  -- Without a bias, with one, and with too many operands.
  rcases rest with _ | ⟨b, _ | ⟨_, _⟩⟩
  · exact Kernel.exists_conv none hd hin hweight hrange hwindows (by simp)
  · have hb : b.shape.numElements = some d.o ∧ b.Sized :=
      ⟨hbias _ List.mem_cons_self, (hparams b (by simp)).sized⟩
    exact Kernel.exists_conv (some b) hd hin hweight hrange hwindows (by simpa using hb)
  · simp at hlen

theorem yields_linear (hx : x.WellFormed) (hparams : ∀ t ∈ params, t.Proper)
    (hbytes : (out.numBytes? .f32).isSome)
    (h : (linear : Op α).inferShape x.shape (params.map (·.shape)) = .ok out) :
    Yields linear x params out := by
  obtain ⟨n, k, o, bias, hin, rfl, hcons, hlen, hbias⟩ := inferShape_linear.1 h
  obtain ⟨weight, rest, rfl, hweight, rfl⟩ := List.map_eq_cons_iff.1 hcons
  obtain ⟨hw, hpos⟩ := hparams weight List.mem_cons_self
  simp only [hweight, Shape.matrix, Shape.positive_mk, List.forall_mem_cons] at hpos
  obtain ⟨ho, hk, -⟩ := hpos
  rcases rest with _ | ⟨b, _ | ⟨_, _⟩⟩
  · exact Kernel.exists_linear none hin hweight hk ho hx hw (by simp) hbytes
  · exact Kernel.exists_linear (some b) hin hweight hk ho hx hw
      (by simpa using hbias _ List.mem_cons_self) hbytes
  · simp at hlen

omit [Build] [Scalar α] in
/-- A tensor of the shape and the size of a well-formed one is well-formed. -/
theorem wellFormed_of_shape_eq {y : Tensor α} (hx : x.WellFormed) (hshape : y.shape = x.shape)
    (hsize : y.data.size = x.data.size) : y.WellFormed := by
  rw [Tensor.WellFormed, hshape, hsize]
  exact hx

theorem yields_batchNorm {epsilon : α} (hx : x.WellFormed) (hparams : ∀ t ∈ params, t.WellFormed)
    (hcounted : (batchNorm epsilon).Counted x.shape)
    (h : (batchNorm epsilon).inferShape x.shape (params.map (·.shape)) = .ok out) :
    Yields (batchNorm epsilon) x params out := by
  obtain ⟨n, channels, trailing, hin, rfl, hlen, hstats⟩ := inferShape_batchNorm.1 h
  rw [List.length_map] at hlen
  obtain ⟨gamma, beta, mean, var, rfl⟩ := List.length_eq_four.1 hlen
  have hc : x.data.size ≠ 0 → 0 < channels := fun hsize => by
    rw [hx.size_eq, hin, Word.product_cons, Word.product_cons] at hsize
    exact Nat.pos_of_ne_zero (left_ne_zero_of_mul (right_ne_zero_of_mul hsize))
  obtain ⟨inner, hinner⟩ := Option.isSome_iff_exists.1 hcounted
  rw [hin, List.drop_succ_cons, List.drop_succ_cons, List.drop_zero] at hinner
  obtain ⟨y, hy, hshape, hsize⟩ :=
    Kernel.exists_batchNorm epsilon (Tensor.shape_blank x.shape) (congrArg Shape.dims hin) hinner hc
      fun s hs => ⟨hstats _ (List.mem_map_of_mem hs), (hparams s hs).sized⟩
  refine ⟨y, ?_, hshape, wellFormed_of_shape_eq hx hshape hsize⟩
  simp [hx.zeros, hy]

theorem yields_activation {kind : Activation} (hx : x.WellFormed)
    (h : (activation kind : Op α).inferShape x.shape (params.map (·.shape)) = .ok out) :
    Yields (activation kind) x params out := by
  obtain ⟨hnil, rfl⟩ := inferShape_activation.1 h
  obtain rfl := List.map_eq_nil_iff.1 hnil
  refine ⟨⟨x.shape, x.data.map kind.apply⟩, ?_, rfl, wellFormed_of_shape_eq hx rfl (by simp)⟩
  simp [hx.zeros, Kernel.activation_eq_ok kind (Tensor.shape_blank x.shape)]

/-- Softmax also has a result for a tensor without axes, whose shape is not inferred. -/
theorem yields_softmax (hx : x.WellFormed) : Yields softmax x [] x.shape := by
  obtain ⟨y, hy, hshape, hsize⟩ :=
    Kernel.exists_softmax (Tensor.shape_blank x.shape) (by simp [Tensor.blank, hx.size_eq])
  refine ⟨y, ?_, hshape, wellFormed_of_shape_eq hx hshape hsize⟩
  simp [hx.zeros, hy]

theorem yields_maxPool {p : PoolParams} (hx : x.WellFormed)
    (hplaced : (maxPool p : Op α).Placed x.shape (params.map (·.shape)))
    (h : (maxPool p : Op α).inferShape x.shape (params.map (·.shape)) = .ok out) :
    Yields (maxPool p) x params out := by
  obtain ⟨hnil, d, hd, hin, rfl⟩ := inferShape_maxPool.1 h
  obtain rfl := List.map_eq_nil_iff.1 hnil
  exact Kernel.exists_maxPool hd hin hx.size_eq (hplaced d hd hin)

theorem yields_globalAvgPool (hx : x.Proper)
    (h : (globalAvgPool : Op α).inferShape x.shape (params.map (·.shape)) = .ok out) :
    Yields globalAvgPool x params out := by
  obtain ⟨hnil, n, c, height, width, hin, rfl⟩ := inferShape_globalAvgPool.1 h
  obtain rfl := List.map_eq_nil_iff.1 hnil
  obtain ⟨y, hy, hshape, hwell⟩ := Kernel.exists_globalAvgPool hin hx.wellFormed hx.positive
  refine ⟨y, ?_, hshape, hwell⟩
  simp [hy]

theorem yields_flatten (hx : x.WellFormed)
    (h : (flatten : Op α).inferShape x.shape (params.map (·.shape)) = .ok out) :
    Yields flatten x params out := by
  obtain ⟨hnil, n, rest, m, hin, hm, rfl⟩ := inferShape_flatten.1 h
  obtain rfl := List.map_eq_nil_iff.1 hnil
  obtain ⟨y, hy, hshape, hwell⟩ := Kernel.exists_flatten hin hx hm
  refine ⟨y, ?_, hshape, hwell⟩
  simp [hy]

/-- **An operation whose shape is inferred has a result of that shape.** The input may have a zero
extent, except for averages over planes, which must not be empty. -/
theorem yields_of_inferShape {op : Op α} (hx : x.WellFormed)
    (hplanes : op = globalAvgPool → x.shape.Positive) (hparams : ∀ t ∈ params, t.Proper)
    (hplaced : op.Placed x.shape (params.map (·.shape))) (hcounted : op.Counted x.shape)
    (hbytes : (out.numBytes? .f32).isSome)
    (h : op.inferShape x.shape (params.map (·.shape)) = .ok out) : Yields op x params out := by
  have hwell : ∀ t ∈ params, t.WellFormed := fun t ht => (hparams t ht).wellFormed
  cases op with
  | conv p => exact yields_conv hx hwell hplaced h
  | linear => exact yields_linear hx hparams hbytes h
  | batchNorm epsilon => exact yields_batchNorm hx hwell hcounted h
  | activation kind => exact yields_activation hx h
  | softmax =>
    obtain ⟨hnil, -, rfl⟩ := inferShape_softmax.1 h
    obtain rfl := List.map_eq_nil_iff.1 hnil
    exact yields_softmax hx
  | maxPool p => exact yields_maxPool hx hplaced h
  | globalAvgPool => exact yields_globalAvgPool ⟨hx, hplanes rfl⟩ h
  | flatten => exact yields_flatten hx h

/-- **An operation whose shape is inferred breaks off** on operands on which the build cannot place
its windows or count the elements of a channel. -/
theorem execute_of_not_placed {op : Op α} (hx : x.WellFormed)
    (hnot : ¬ (op.Placed x.shape (params.map (·.shape)) ∧ op.Counted x.shape))
    (h : op.inferShape x.shape (params.map (·.shape)) = .ok out) :
    op.execute x params = Outcome.crash := by
  cases op with
  | conv p =>
    obtain ⟨d, hd, hin, -, bias, hcons, hlen, hbias⟩ := inferShape_conv.1 h
    obtain ⟨weight, rest, rfl, hweight, rfl⟩ := List.map_eq_cons_iff.1 hcons
    have hplaced : ¬ d.Placed p := by
      intro hplaced
      refine hnot ⟨?_, trivial⟩
      rw [hin, List.map_cons, hweight]
      exact (placed_conv_iff hd _).2 hplaced
    rcases rest with _ | ⟨b, _ | ⟨_, _⟩⟩
    · have hnone : ∀ b ∈ (none : Option (Tensor α)), b.shape.numElements = some d.o := by simp
      exact Kernel.conv_of_not_placed hd hin hweight hnone hplaced
    · have hb : ∀ b' ∈ some b, b'.shape.numElements = some d.o := by simpa using hbias
      exact Kernel.conv_of_not_placed hd hin hweight hb hplaced
    · simp at hlen
  | batchNorm epsilon =>
    obtain ⟨n, channels, trailing, hin, -, hlen, hstats⟩ := inferShape_batchNorm.1 h
    rw [List.length_map] at hlen
    obtain ⟨gamma, beta, mean, var, rfl⟩ := List.length_eq_four.1 hlen
    have hnone : Shape.product trailing = none := by
      rw [← Option.not_isSome_iff_eq_none]
      intro hsome
      exact hnot ⟨trivial, by rw [Counted, hin]; exact hsome⟩
    have hcrash := Kernel.batchNorm_of_not_counted epsilon (Tensor.shape_blank x.shape)
      (congrArg Shape.dims hin) (List.forall_mem_map.1 hstats) hnone
    simp [hx.zeros, hcrash]
  | maxPool p =>
    obtain ⟨hnil, d, hd, hin, -⟩ := inferShape_maxPool.1 h
    obtain rfl := List.map_eq_nil_iff.1 hnil
    refine Kernel.maxPool_of_not_placed hd hin fun hplaced => hnot ⟨?_, trivial⟩
    rw [hin]
    exact (placed_maxPool_iff hd).2 hplaced
  | _ => exact absurd ⟨trivial, trivial⟩ hnot

/-- Without zero extents in the operands there is none in the result. -/
theorem exists_execute {op : Op α} (hx : x.Proper) (hparams : ∀ t ∈ params, t.Proper)
    (hplaced : op.Placed x.shape (params.map (·.shape))) (hbytes : (out.numBytes? .f32).isSome)
    (h : op.inferShape x.shape (params.map (·.shape)) = .ok out) : Executes op x params out := by
  obtain ⟨y, hy, hshape, hwell⟩ :=
    yields_of_inferShape hx.wellFormed (fun _ => hx.positive) hparams hplaced
      (counted_of_positive op hx.positive hx.wellFormed.product_lt) hbytes h
  refine ⟨y, hy, hshape, hwell, hshape ▸ ?_⟩
  refine inferShape_positive hx.positive hx.wellFormed.product_lt ?_ h
  exact List.forall_mem_map.2 fun t ht => (hparams t ht).positive

end Op

end NetPack
