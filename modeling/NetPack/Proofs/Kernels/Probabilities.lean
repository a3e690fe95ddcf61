import Mathlib.Algebra.Order.BigOperators.Group.List
import Mathlib.Algebra.Order.Field.Basic
import Mathlib.Analysis.SpecialFunctions.Exp
import NetPack.Proofs.Kernels.Coordinates
import NetPack.Proofs.Kernels.Samples

/-!
# Softmax gives probabilities

Softmax over exact numbers, where the exponential may be any strictly increasing function with
positive values (`ExpField`). In every row of the last axis the weights are positive, at most one
and together one, and they compare as the scores of the row do (`Kernel.softmax_weighs`). A row of
weights depends on nothing but its row of scores, and not on a constant that is added to all of
them.

The search for the largest score starts below all numbers, and no element of an ordered field is
there. So the kernel runs on `WithBot F`, the field with one element below it, and the tensors that
it is given hold numbers only. What the search starts with is gone after the first score of a row
(`ExpField.foldl_max_lowest`), so that the weights are numbers as well.
-/

namespace NetPack

/-- An ordered field with an exponential, of which only its order and its sign are known, and with
some function for the square root. -/
class ExpField (F : Type) extends Field F, LinearOrder F, IsStrictOrderedRing F where
  /-- The exponential. -/
  exp : F → F
  /-- The square root. -/
  sqrt : F → F
  exp_strictMono : StrictMono exp
  exp_pos : ∀ a, 0 < exp a

namespace ExpField

variable {F : Type} [ExpField F]

/-- The numbers of the field, and one element below all of them. The order is that of `WithBot`; an
operation on numbers is that of the field, and the exponential of the lowest element is zero. -/
instance : Scalar (WithBot F) where
  neg := WithBot.map (- ·)
  sub := WithBot.map₂ (· - ·)
  mul := WithBot.map₂ (· * ·)
  div := WithBot.map₂ (· / ·)
  sqrt := WithBot.map sqrt
  exp := WithBot.recBotCoe 0 fun v => (exp v : F)
  max := max
  lowest := ⊥
  count n := (n : F)
  lt a b := decide (a < b)
  same a b := decide (a = b)

/-! ### One row -/

/-- The largest score. -/
def peak : List F → F
  | [] => 0
  | a :: scores => scores.foldl max a

/-- The exponentials of a row of scores, none of them larger than that of zero. -/
def exponentials (scores : List F) : List F := scores.map fun a => exp (a - peak scores)

/-- The weights of a row of scores. -/
def shares (scores : List F) : List F :=
  (exponentials scores).map (· / (exponentials scores).sum)

theorem peak_map_add (c : F) {scores : List F} (h : scores ≠ []) :
    peak (scores.map (· + c)) = peak scores + c := by
  obtain ⟨a, scores, rfl⟩ := List.exists_cons_of_ne_nil h
  simp only [peak, List.map_cons]
  clear h
  induction scores generalizing a with
  | nil => rfl
  | cons b scores ih => rw [List.map_cons, List.foldl_cons, List.foldl_cons, max_add_add_right, ih]

/-- **A constant that is added to all scores makes no difference.** -/
theorem shares_map_add (c : F) (scores : List F) : shares (scores.map (· + c)) = shares scores := by
  by_cases h : scores = []
  · subst h
    rfl
  · have hsame : exponentials (scores.map (· + c)) = exponentials scores := by
      simp only [exponentials, List.map_map, Function.comp_def, peak_map_add c h,
        add_sub_add_right_eq_sub]
    rw [shares, shares, hsame]

/-- What makes weights of a row of scores probabilities. Two weights compare as their scores do. -/
structure Weighs (scores weights : List F) : Prop where
  length_eq : weights.length = scores.length
  pos : ∀ w ∈ weights, 0 < w
  le_one : ∀ w ∈ weights, w ≤ 1
  sum_eq : weights.sum = 1
  lt_iff : ∀ p ∈ scores.zip weights, ∀ q ∈ scores.zip weights, p.2 < q.2 ↔ p.1 < q.1
  eq_iff : ∀ p ∈ scores.zip weights, ∀ q ∈ scores.zip weights, p.2 = q.2 ↔ p.1 = q.1

theorem pos_of_mem_exponentials {scores : List F} {w : F} (h : w ∈ exponentials scores) :
    0 < w := by
  obtain ⟨a, -, rfl⟩ := List.mem_map.1 h
  exact exp_pos _

theorem sum_exponentials_pos {scores : List F} (h : scores ≠ []) :
    0 < (exponentials scores).sum :=
  List.sum_pos _ (fun _ => pos_of_mem_exponentials) (by simpa [exponentials] using h)

/-- The weight of a score. -/
theorem snd_of_mem_zip_shares {scores : List F} {p : F × F} (h : p ∈ scores.zip (shares scores)) :
    p.2 = exp (p.1 - peak scores) / (exponentials scores).sum := by
  rw [shares, exponentials, List.map_map, ← exponentials, List.zip_map_right, List.zip_eq_zipWith,
    List.zipWith_self] at h
  obtain ⟨_, hsame, rfl⟩ := List.mem_map.1 h
  obtain ⟨a, -, rfl⟩ := List.mem_map.1 hsame
  rfl

theorem weighs_shares {scores : List F} (h : scores ≠ []) : Weighs scores (shares scores) where
  length_eq := by simp [shares, exponentials]
  pos := by
    intro w hw
    obtain ⟨v, hv, rfl⟩ := List.mem_map.1 hw
    exact div_pos (pos_of_mem_exponentials hv) (sum_exponentials_pos h)
  le_one := by
    intro w hw
    obtain ⟨v, hv, rfl⟩ := List.mem_map.1 hw
    have hle := List.single_le_sum (fun u hu => (pos_of_mem_exponentials hu).le) v hv
    exact (div_le_one (sum_exponentials_pos h)).2 hle
  sum_eq := by
    simp only [shares, div_eq_mul_inv, List.sum_map_mul_right, List.map_id']
    exact mul_inv_cancel₀ (sum_exponentials_pos h).ne'
  lt_iff := by
    intro p hp q hq
    rw [snd_of_mem_zip_shares hp, snd_of_mem_zip_shares hq,
      div_lt_div_iff_of_pos_right (sum_exponentials_pos h), exp_strictMono.lt_iff_lt,
      sub_lt_sub_iff_right]
  eq_iff := by
    intro p hp q hq
    rw [snd_of_mem_zip_shares hp, snd_of_mem_zip_shares hq,
      div_left_inj' (sum_exponentials_pos h).ne', exp_strictMono.injective.eq_iff, sub_left_inj]

/-! ### The kernel on numbers -/

/-- The kernel finds the largest score. -/
theorem foldl_max_lowest {scores : List F} (h : scores ≠ []) :
    (scores.map ((↑) : F → WithBot F)).foldl Scalar.max Scalar.lowest = peak scores := by
  obtain ⟨a, scores, rfl⟩ := List.exists_cons_of_ne_nil h
  have hfold : ∀ (scores : List F) (a : F),
      (scores.map ((↑) : F → WithBot F)).foldl Scalar.max (a : WithBot F) =
        (scores.foldl max a : F) := by
    intro scores
    induction scores with
    | nil => exact fun a => rfl
    | cons b scores ih =>
      intro a
      rw [List.map_cons, List.foldl_cons, List.foldl_cons, ← ih]
      rfl
  rw [peak, ← hfold, List.map_cons, List.foldl_cons]
  rfl

theorem total_numbers (weights : List F) :
    Scalar.total (weights.map ((↑) : F → WithBot F)) = (weights.sum : F) := by
  have hfold : ∀ (weights : List F) (a : F),
      (weights.map ((↑) : F → WithBot F)).foldl (· + ·) (a : WithBot F) =
        (a + weights.sum : F) := by
    intro weights
    induction weights with
    | nil => simp
    | cons b weights ih =>
      intro a
      rw [List.map_cons, List.foldl_cons, List.sum_cons, ← add_assoc, ← ih]
      rfl
  have hzero : (-0 : WithBot F) = (0 : F) := congrArg _ neg_zero
  rw [Scalar.total, hzero, hfold, zero_add]

theorem softmaxRow_numbers {scores : List F} (h : scores ≠ []) :
    Kernel.softmaxRow (scores.map ((↑) : F → WithBot F)) = (shares scores).map (↑) := by
  have hexp : (scores.map ((↑) : F → WithBot F)).map
      (fun a : WithBot F => Scalar.exp (a - (peak scores : F))) =
        (exponentials scores).map (↑) := by
    rw [exponentials, List.map_map, List.map_map]
    rfl
  have hlt : Scalar.lt (0 : WithBot F) ((exponentials scores).sum : F) :=
    decide_eq_true (WithBot.coe_lt_coe.2 (sum_exponentials_pos h))
  simp only [Kernel.softmaxRow, foldl_max_lowest h]
  rw [hexp, total_numbers, if_pos hlt, shares, List.map_map, List.map_map]
  rfl

end ExpField

/-! ### Tensors of numbers -/

namespace Tensor

variable {F : Type} {t : Tensor F}

/-- A tensor of numbers. -/
def numbers (t : Tensor F) : Tensor (WithBot F) := ⟨t.shape, t.data.map (↑)⟩

theorem numbers_injective : Function.Injective (numbers : Tensor F → Tensor (WithBot F)) := by
  rintro ⟨shape, data⟩ ⟨shape', data'⟩ h
  obtain ⟨hshape, hdata⟩ := Tensor.mk.inj h
  rw [Tensor.mk.injEq]
  exact ⟨hshape, Array.map_inj_right (fun _ _ => WithBot.coe_inj.1) |>.1 hdata⟩

theorem rows_numbers (t : Tensor F) (width : Nat) :
    t.numbers.rows width = (t.rows width).map (List.map (↑)) := by
  simp only [rows, numbers, Array.size_map, List.map_map, Function.comp_def, ← Array.map_extract,
    Array.toList_map]

theorem length_flatMap_of_forall {α β : Type} {width : Nat} {l : List α} {f : α → List β}
    (hlength : ∀ a ∈ l, (f a).length = width) : (l.flatMap f).length = l.length * width := by
  rw [List.length_flatMap, List.map_congr_left hlength, List.map_const', List.sum_replicate_nat]

/-- Rows that are joined are found again. -/
theorem rows_flatMap {α β : Type} {shape : Shape} {width : Nat} {l : List α} {f : α → List β}
    (hlength : ∀ a ∈ l, (f a).length = width) (hwidth : 0 < width) :
    rows ⟨shape, (l.flatMap f).toArray⟩ width = l.map f := by
  have hlen := length_flatMap_of_forall hlength
  refine List.ext_getElem ?_ fun r _ hr => ?_
  · rw [rows, List.length_map, List.length_range, List.size_toArray, hlen,
      Nat.mul_div_cancel _ hwidth, List.length_map]
  · rw [List.length_map] at hr
    have hcount : (r + 1) * width - r * width = 1 * width := by
      rw [Nat.succ_mul, Nat.add_sub_cancel_left, Nat.one_mul]
    simp only [rows, List.getElem_map, List.getElem_range]
    rw [Array.toList_extract, List.extract_eq_take_drop, hcount, Kernel.drop_flatMap hlength,
      Kernel.take_flatMap fun row hrow => hlength row (List.mem_of_mem_drop hrow),
      List.drop_eq_getElem_cons hr, List.take_succ_cons, List.take_zero, List.flatMap_singleton]

end Tensor

namespace Kernel

open ExpField

/-! ### All rows -/

section HasRows

variable {F : Type} {x : Tensor F} {output : Tensor (WithBot F)}

/-- An input that holds what its shape says and whose rows have elements, and an output of its
shape. -/
structure HasRows [Build] (x : Tensor F) (output : Tensor (WithBot F)) : Prop where
  exact : x.Exact
  last_ne_zero : x.shape.last? ≠ some 0
  shape_output : output.shape = x.shape
  sized_output : output.Sized

namespace HasRows

variable [Build] (h : HasRows x output)
include h

theorem width_pos : 0 < x.shape.last?.getD 1 := by
  have hne := h.last_ne_zero
  cases hlast : x.shape.last? with
  | none => exact Nat.one_pos
  | some width => exact Nat.pos_of_ne_zero fun hzero => hne (hlast.trans (congrArg some hzero))

theorem width_dvd : x.shape.last?.getD 1 ∣ x.data.size :=
  ⟨_, by rw [h.exact.size_eq, Shape.product_eq_dropLast, Nat.mul_comm]; rfl⟩

end HasRows

end HasRows

variable {F : Type} [ExpField F] {x : Tensor F} {output : Tensor (WithBot F)}

/-- The weights of all rows. -/
def allShares (x : Tensor F) : Tensor F :=
  ⟨x.shape, ((x.rows (x.shape.last?.getD 1)).flatMap shares).toArray⟩

theorem length_shares {width : Nat} {row : List F} (hrow : row ∈ x.rows width) :
    (shares row).length = width := by
  rw [shares, exponentials, List.length_map, List.length_map, length_of_mem_rows hrow]

namespace HasRows

variable [Build] (h : HasRows x output)
include h

theorem size_allShares : (allShares x).data.size = x.data.size := by
  rw [allShares, List.size_toArray, Tensor.length_flatMap_of_forall fun _ => length_shares,
    Tensor.rows, List.length_map, List.length_range, Nat.div_mul_cancel h.width_dvd]

theorem exact_allShares : (allShares x).Exact := h.exact.of_shape_eq rfl h.size_allShares

/-- **Softmax on numbers** gives the weights of all rows. -/
theorem softmax_eq_ok : softmax x.numbers output = .ok (allShares x).numbers := by
  have hwidth : x.numbers.shape.last?.getD 1 = x.shape.last?.getD 1 := rfl
  have hsize : output.data.size = x.numbers.data.size := by
    rw [h.exact.size_eq_of_sized h.sized_output h.shape_output, Tensor.numbers, Array.size_map]
  have hdvd : x.shape.last?.getD 1 ∣ x.numbers.data.size := by
    rw [Tensor.numbers, Array.size_map]
    exact h.width_dvd
  have hrows : (x.numbers.rows (x.shape.last?.getD 1)).flatMap softmaxRow =
      ((x.rows (x.shape.last?.getD 1)).flatMap shares).map (↑) := by
    rw [Tensor.rows_numbers, List.flatMap_map, List.map_flatMap]
    refine List.flatMap_congr fun row hrow => softmaxRow_numbers ?_
    rw [← List.length_pos_iff, length_of_mem_rows hrow]
    exact h.width_pos
  have hshape : x.numbers.shape = output.shape := h.shape_output.symm
  rw [softmax, if_neg (not_not.2 hshape)]
  dsimp only
  rw [hwidth, if_neg h.width_pos.ne', softmaxRows_append hdvd hsize, hrows, h.shape_output,
    ← List.map_toArray]
  rfl

/-- A row of weights depends on its own row of scores. -/
theorem rowAt_allShares {lead : List Nat} (hlead : Shape.Within lead x.shape.dims.dropLast) :
    (allShares x).rowAt lead = shares (x.rowAt lead) := by
  have hscores := h.exact.getElem?_rows hlead h.width_pos
  have hweights := h.exact_allShares.getElem?_rows hlead h.width_pos
  have hrows : (allShares x).rows (x.shape.last?.getD 1) =
      (x.rows (x.shape.last?.getD 1)).map shares :=
    Tensor.rows_flatMap (fun _ => length_shares) h.width_pos
  have hshape : (allShares x).shape = x.shape := rfl
  rw [hshape, hrows, List.getElem?_map, hscores] at hweights
  exact (Option.some.inj hweights).symm

theorem weighs_rowAt {lead : List Nat} (hlead : Shape.Within lead x.shape.dims.dropLast) :
    Weighs (x.rowAt lead) ((allShares x).rowAt lead) := by
  rw [h.rowAt_allShares hlead]
  refine weighs_shares (List.length_pos_iff.1 ?_)
  rw [Tensor.rowAt, List.length_map, List.length_range]
  exact h.width_pos

/-- Without axes there is one weight. -/
theorem data_allShares (hdims : x.shape.dims = []) : (allShares x).data = #[1] := by
  have hsize : (allShares x).data.size = 1 := by
    rw [h.exact_allShares.size_eq, show (allShares x).shape.dims = [] from hdims]
    rfl
  have hrow : (allShares x).rowAt [] = [(allShares x).data.getD 0 0] := by
    simp [Tensor.rowAt, Tensor.elementAt, allShares, Shape.last?, hdims, Shape.rowMajor]
  have hlead : Shape.Within [] x.shape.dims.dropLast := by
    rw [hdims]
    exact List.Forall₂.nil
  have hone := (h.weighs_rowAt hlead).sum_eq
  rw [hrow, List.sum_singleton] at hone
  refine Array.ext hsize fun i hi _ => ?_
  obtain rfl : i = 0 := by omega
  rw [Array.getElem_eq_getD 0, hone]
  rfl

end HasRows

/-- **Softmax gives probabilities.** -/
theorem softmax_weighs [Build] (h : HasRows x output) :
    ∃ y : Tensor F, softmax x.numbers output = .ok y.numbers ∧ y.shape = x.shape ∧
      y.Exact ∧ (x.WellFormed → y.WellFormed) ∧
      (∀ lead, Shape.Within lead x.shape.dims.dropLast → Weighs (x.rowAt lead) (y.rowAt lead)) ∧
      (∀ (x' y' : Tensor F) (output' : Tensor (WithBot F)), HasRows x' output' →
        x'.shape = x.shape → softmax x'.numbers output' = .ok y'.numbers →
          ∀ lead c, Shape.Within lead x.shape.dims.dropLast →
            x'.rowAt lead = (x.rowAt lead).map (· + c) → y'.rowAt lead = y.rowAt lead) ∧
      (x.shape.dims = [] → y.data = #[1]) := by
  refine ⟨allShares x, h.softmax_eq_ok, rfl, h.exact_allShares,
    fun hwell => Op.wellFormed_of_shape_eq hwell rfl h.size_allShares,
    fun lead hlead => h.weighs_rowAt hlead, ?_, h.data_allShares⟩
  · intro x' y' output' h' hshape hy' lead c hlead hrow
    obtain rfl := Tensor.numbers_injective (Except.ok.inj (h'.softmax_eq_ok.symm.trans hy'))
    rw [h.rowAt_allShares hlead, h'.rowAt_allShares (hshape ▸ hlead), hrow, shares_map_add]

/-- The real numbers with their exponential. -/
noncomputable instance : ExpField ℝ where
  exp := Real.exp
  sqrt := Real.sqrt
  exp_strictMono := Real.exp_strictMono
  exp_pos := Real.exp_pos

/-- Two rows of scores, one of them with a tie. -/
noncomputable def twoRows : Tensor ℝ := ⟨.matrix 2 3, #[2, 1, 0, 5, 5, 5]⟩

/-- The weights of the second row are equal. -/
theorem softmax_weighs_twoRows :
    HasRows twoRows (.blank (.matrix 2 3)) ∧ ∃ y : Tensor ℝ,
      softmax twoRows.numbers (.blank (.matrix 2 3)) = .ok y.numbers ∧
        Weighs [2, 1, 0] (y.rowAt [0]) ∧ Weighs [5, 5, 5] (y.rowAt [1]) := by
  have h : HasRows twoRows (.blank (.matrix 2 3)) :=
    ⟨by decide, by simp [twoRows, Shape.matrix, Shape.last?], rfl, rfl⟩
  obtain ⟨y, hy, -, -, -, hweighs, -, -⟩ := softmax_weighs h
  exact ⟨h, y, hy, hweighs [0] (by simp [twoRows, Shape.matrix, Shape.Within]),
    hweighs [1] (by simp [twoRows, Shape.matrix, Shape.Within])⟩

end Kernel

end NetPack
