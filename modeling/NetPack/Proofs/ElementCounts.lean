import NetPack.Proofs.Exchange.Constants
import NetPack.Proofs.Kernels.Convolution
import NetPack.Proofs.Kernels.Normalization
import NetPack.Proofs.Kernels.Rows
import NetPack.Proofs.Kernels.Samples

/-!
# How many elements a tensor holds

`Tensor.Built` are the tensors that constructors and kernels give, one after the other and in any
order. Kernels that make their result check its size, so what they give is well-formed whatever they
have read (`Kernel.wellFormed_of_conv` and its siblings), and kernels that write into an output keep
its shape and its size. But zeros, drawn numbers and a new shape for old elements go by the product
of the extents that the plain operator of the build gives.

In a checked build that is the exact product or nothing, so every tensor is well-formed. In a
release build it is the low 64 bits of the product. So there every tensor holds as many elements as
these bits say, which is the exact product if that one is a word. This is kept by everything but
zeros, drawn numbers and new shapes: it holds of all tensors if these three are given no other shape
(`Tensor.Built.size_eq_product`). If they are, then a tensor can declare elements that it does not
hold (`Tensor.not_forall_size_eq_product`).
-/

namespace NetPack

namespace Shape

/-- The exact number of elements is a word. -/
def Counted (s : Shape) : Prop := Word.product s.dims < Word.modulus

instance : DecidablePred Counted := fun s =>
  inferInstanceAs (Decidable (Word.product s.dims < Word.modulus))

end Shape

namespace Kernel

variable {α : Type} [Scalar α] {x output y : Tensor α}

/-! ### Results that are written into an output -/

theorem shape_of_batchNorm [Build] {gamma beta mean var : Tensor α} {epsilon : α}
    (h : batchNorm x gamma beta mean var epsilon output = .ok y) :
    output.shape = x.shape ∧ y.shape = x.shape ∧ y.data.size = x.data.size := by
  have hout : output.shape = x.shape := by
    by_contra hne
    rw [batchNorm, if_pos (Ne.symm hne)] at h
    simp at h
  obtain ⟨_, _, _, _, -, -, -, hshape, hsize, -⟩ := (batchNorm_eq_ok hout).1 h
  exact ⟨hout, hshape, hsize⟩

theorem shape_of_activation {kind : Activation} (h : activation kind x output = .ok y) :
    output.shape = x.shape ∧ y.shape = x.shape ∧ y.data.size = x.data.size := by
  have hout : output.shape = x.shape := by
    by_contra hne
    rw [activation, if_pos (Ne.symm hne)] at h
    cases h
  rw [activation_eq_ok kind hout] at h
  obtain rfl := Except.ok.inj h
  exact ⟨hout, rfl, Array.size_map⟩

theorem shape_of_softmax [Build] (hx : x.Sized) (houtput : output.Sized)
    (h : softmax x output = .ok y) :
    output.shape = x.shape ∧ y.shape = x.shape ∧ y.data.size = x.data.size := by
  have hout : output.shape = x.shape := by
    by_contra hne
    rw [softmax, if_pos (Ne.symm hne)] at h
    cases h
  obtain ⟨y', hy', hshape, hsize⟩ := exists_softmax hout (hx.size_eq houtput hout)
  obtain rfl := Except.ok.inj (hy'.symm.trans h)
  exact ⟨hout, hshape, hsize⟩

end Kernel

namespace Tensor

/-- Tensors that are built by constructors and kernels. The shapes for zeros, for drawn numbers and
for old elements are in `P`. -/
inductive Built [Build] (P : Shape → Prop) : Tensor Binary32 → Prop
  | zeros (shape : Shape) (t : Tensor Binary32) (hshape : P shape)
      (h : Tensor.zeros shape = some t) : Built P t
  | drawn (shape : Shape) (draw : Nat → Binary32) (t : Tensor Binary32) (hshape : P shape)
      (h : Tensor.drawn shape draw = some t) : Built P t
  | ofArray (shape : Shape) (data : Array Binary32) (t : Tensor Binary32)
      (h : Tensor.ofArray shape data = .ok t) : Built P t
  | ofBytes (shape : Shape) (dtype : DType) (bytes : List UInt8) (t : Tensor Binary32)
      (h : Tensor.ofBytes shape dtype bytes = .ok t) : Built P t
  | reshape (shape : Shape) (t u : Tensor Binary32) (ht : Built P t) (hshape : P shape)
      (h : t.reshape shape = .ok u) : Built P u
  | set (t : Tensor Binary32) (i : Nat) (a : Binary32) (ht : Built P t) : Built P (t.set i a)
  | conv (x weight : Tensor Binary32) (bias : Option (Tensor Binary32)) (p : ConvParams)
      (y : Tensor Binary32) (hx : Built P x) (hweight : Built P weight)
      (hbias : ∀ b ∈ bias, Built P b) (h : Kernel.conv x weight bias p = .ok y) : Built P y
  | linear (x weight : Tensor Binary32) (bias : Option (Tensor Binary32)) (y : Tensor Binary32)
      (hx : Built P x) (hweight : Built P weight) (hbias : ∀ b ∈ bias, Built P b)
      (h : Kernel.linear x weight bias = .ok y) : Built P y
  | maxPool (x : Tensor Binary32) (p : PoolParams) (y : Tensor Binary32) (hx : Built P x)
      (h : Kernel.maxPool x p = .ok y) : Built P y
  | globalAvgPool (x y : Tensor Binary32) (hx : Built P x)
      (h : Kernel.globalAvgPool x = .ok y) : Built P y
  | flatten (x y : Tensor Binary32) (hx : Built P x) (h : Kernel.flatten x = .ok y) : Built P y
  | batchNorm (x gamma beta mean var output : Tensor Binary32) (epsilon : Binary32)
      (y : Tensor Binary32) (hx : Built P x) (hstats : ∀ s ∈ [gamma, beta, mean, var], Built P s)
      (houtput : Built P output)
      (h : Kernel.batchNorm x gamma beta mean var epsilon output = .ok y) : Built P y
  | activation (kind : Activation) (x output y : Tensor Binary32) (hx : Built P x)
      (houtput : Built P output) (h : Kernel.activation kind x output = .ok y) : Built P y
  | softmax (x output y : Tensor Binary32) (hx : Built P x) (houtput : Built P output)
      (h : Kernel.softmax x output = .ok y) : Built P y

variable {P : Shape → Prop} {α : Type} {t : Tensor Binary32}

theorem Sized.of_shape_eq [Build] {x y : Tensor α} (hx : x.Sized) (hshape : y.shape = x.shape)
    (hsize : y.data.size = x.data.size) : y.Sized := by
  rw [Sized, hsize, hshape]
  exact hx

theorem reshape_eq_ok [Build] {x y : Tensor α} {shape : Shape} :
    x.reshape shape = .ok y ↔ shape.numElements = some x.data.size ∧ y = ⟨shape, x.data⟩ := by
  rw [reshape, Outcome.bind_eq_ok]
  simp only [Outcome.orCrash_eq_ok, Outcome.report_bind]
  constructor
  · rintro ⟨count, hcount, h⟩
    rw [Outcome.ite_eq_ok (by simp), not_not] at h
    obtain ⟨rfl, h⟩ := h
    exact ⟨hcount, (Outcome.pure_eq_ok_iff.1 h).symm⟩
  · rintro ⟨hcount, rfl⟩
    refine ⟨_, hcount, ?_⟩
    rw [Outcome.ite_eq_ok (by simp)]
    exact ⟨by simp, rfl⟩

/-- **Every tensor holds as many elements as the build computes for its shape.** -/
theorem Built.sized [Build] (h : Built P t) : t.Sized := by
  induction h with
  | zeros shape t hshape h => exact (zeros_eq_some_iff.1 h).2.1
  | drawn shape draw t hshape h => exact (drawn_eq_some h).2
  | ofArray shape data t h => exact (ofArray_eq_ok_iff.1 h).2.sized
  | ofBytes shape dtype bytes t h => exact (ofBytes_eq_ok h).2.sized
  | reshape shape t u ht hshape h =>
    obtain ⟨hsize, rfl⟩ := reshape_eq_ok.1 h
    exact hsize
  | set t i a ht ih => exact ih.of_shape_eq rfl Array.size_setIfInBounds
  | conv x weight bias p y hx hweight hbias h => exact (Kernel.wellFormed_of_conv h).sized
  | linear x weight bias y hx hweight hbias h => exact (Kernel.wellFormed_of_linear h).sized
  | maxPool x p y hx h => exact (Kernel.wellFormed_of_maxPool h).sized
  | globalAvgPool x y hx h => exact (Kernel.wellFormed_of_globalAvgPool h).sized
  | flatten x y hx h => exact (Kernel.wellFormed_of_flatten h).sized
  | batchNorm x gamma beta mean var output epsilon y hx hstats houtput h ihx =>
    obtain ⟨-, hshape, hsize⟩ := Kernel.shape_of_batchNorm h
    exact ihx.of_shape_eq hshape hsize
  | activation kind x output y hx houtput h ihx =>
    obtain ⟨-, hshape, hsize⟩ := Kernel.shape_of_activation h
    exact ihx.of_shape_eq hshape hsize
  | softmax x output y hx houtput h ihx ihoutput =>
    obtain ⟨-, hshape, hsize⟩ := Kernel.shape_of_softmax ihx ihoutput h
    exact ihx.of_shape_eq hshape hsize

/-- Counts that are words stay so. -/
theorem Built.counted [Build] (hP : ∀ s, P s → s.Counted) (h : Built P t) : t.shape.Counted := by
  induction h with
  | zeros shape t hshape h => exact (zeros_eq_some_iff.1 h).1 ▸ hP shape hshape
  | drawn shape draw t hshape h => exact (drawn_eq_some h).1 ▸ hP shape hshape
  | ofArray shape data t h => exact (ofArray_eq_ok_iff.1 h).2.product_lt
  | ofBytes shape dtype bytes t h => exact (ofBytes_eq_ok h).2.product_lt
  | reshape shape t u ht hshape h =>
    obtain ⟨-, rfl⟩ := reshape_eq_ok.1 h
    exact hP shape hshape
  | set t i a ht ih => exact ih
  | conv x weight bias p y hx hweight hbias h => exact (Kernel.wellFormed_of_conv h).product_lt
  | linear x weight bias y hx hweight hbias h => exact (Kernel.wellFormed_of_linear h).product_lt
  | maxPool x p y hx h => exact (Kernel.wellFormed_of_maxPool h).product_lt
  | globalAvgPool x y hx h => exact (Kernel.wellFormed_of_globalAvgPool h).product_lt
  | flatten x y hx h => exact (Kernel.wellFormed_of_flatten h).product_lt
  | batchNorm x gamma beta mean var output epsilon y hx hstats houtput h ihx =>
    rwa [(Kernel.shape_of_batchNorm h).2.1]
  | activation kind x output y hx houtput h ihx => rwa [(Kernel.shape_of_activation h).2.1]
  | softmax x output y hx houtput h ihx =>
    rwa [(Kernel.shape_of_softmax hx.sized houtput.sized h).2.1]

/-- Elements are counted exactly where the exact count is a word. -/
theorem Sized.exact_iff [Build] {x : Tensor α} (hx : x.Sized) :
    x.data.size = Word.product x.shape.dims ↔ x.shape.Counted := by
  have hsize := Shape.eq_wrap_of_product hx
  constructor
  · intro hexact
    rw [Shape.Counted, ← hexact, hsize]
    exact Word.wrap_lt _
  · intro hcounted
    rw [hsize, Word.wrap_of_lt hcounted]

/-- In a checked build every tensor is well-formed. -/
theorem Built.wellFormed [Build] (hchecks : Build.checks = true) (h : Built P t) :
    t.WellFormed := (sized_checked_iff hchecks).1 h.sized

/-- The tensors of a checked build are the well-formed ones. -/
theorem built_iff_wellFormed : t.Built (fun _ => True) ↔ t.WellFormed :=
  ⟨Built.wellFormed rfl, fun h => .ofArray t.shape t.data t (ofArray_eq_ok_iff.2 ⟨rfl, h⟩)⟩

/-- **How many elements a tensor holds**: the product of its extents modulo `2 ^ 64`, which is the
product itself exactly where that one is a word. That is so of all tensors in a checked build, and
in every build if zeros, drawn numbers and new shapes are only asked for with such products. -/
theorem Built.size_eq_product [Build] (h : Built P t) :
    t.data.size = Word.product t.shape.dims % 2 ^ 64 ∧
      (t.data.size = Word.product t.shape.dims ↔ Word.product t.shape.dims < 2 ^ 64) ∧
      (Build.checks = true → t.WellFormed ∧ t.data.size = Word.product t.shape.dims) ∧
      ((∀ s, P s → Word.product s.dims < 2 ^ 64) →
        t.data.size = Word.product t.shape.dims) := by
  refine ⟨Shape.eq_wrap_of_product h.sized, h.sized.exact_iff, fun hchecks => ?_,
    fun hP => h.sized.exact_iff.2 (h.counted hP)⟩
  have hwell := h.wellFormed hchecks
  exact ⟨hwell, hwell.size_eq⟩

/-! #### Shapes for six elements and for none -/

/-- Six zeros under a new shape. -/
def sixZeros : Tensor Binary32 := ⟨.vector 6, Array.replicate 6 0⟩

theorem built_sixZeros : Built Shape.Counted sixZeros :=
  .reshape (.vector 6) ⟨.matrix 2 3, Array.replicate 6 0⟩ sixZeros
    (.zeros (.matrix 2 3) _ (by decide) rfl) (by decide) rfl

theorem size_eq_product_sixZeros :
    Built Shape.Counted sixZeros ∧ sixZeros.WellFormed ∧
      sixZeros.data.size = Word.product sixZeros.shape.dims := by
  obtain ⟨-, -, hchecked, hexact⟩ := Built.size_eq_product built_sixZeros
  exact ⟨built_sixZeros, (hchecked rfl).1, hexact fun _ hs => hs⟩

/-- No element under a shape that declares `2 ^ 64` of them. -/
def declared : Tensor Binary32 := ⟨.matrix 4294967296 4294967296, #[]⟩

theorem built_declared : @Built Build.release (fun _ => True) declared := by
  have hempty : @Built Build.release (fun _ => True) ⟨.vector 0, #[]⟩ :=
    @Built.ofArray Build.release _ (.vector 0) #[] _ rfl
  exact @Built.reshape Build.release _ (.matrix 4294967296 4294967296) _ declared hempty trivial rfl

/-- **A tensor of a release build can declare elements that it does not hold.** -/
theorem not_forall_size_eq_product :
    ¬∀ t, @Built Build.release (fun _ => True) t → t.data.size = Word.product t.shape.dims := by
  intro h
  have hsize := h declared built_declared
  simp [declared, Shape.matrix] at hsize

end Tensor

end NetPack
