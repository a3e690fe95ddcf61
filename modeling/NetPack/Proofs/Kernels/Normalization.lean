import NetPack.Kernel.BatchNorm
import NetPack.Proofs.Kernels.Cells

/-!
# Batch normalisation

A batch normalisation works element by element: `Kernel.normalized` is one element of the result,
and the whole result is the array of these elements (`Kernel.batchNorm_eq_ok`). With one statistic
for each channel every element has a result (`Kernel.exists_batchNorm`), if the elements of a
channel can be counted. Otherwise nothing is computed (`Kernel.batchNorm_of_not_counted`).
-/

namespace NetPack

namespace Kernel

variable {α : Type} [Scalar α] {x gamma beta mean var output y : Tensor α} {epsilon : α}

/-- An element of a channel, normalised. -/
def normalized (gamma beta mean var : Tensor α) (epsilon : α) (channel : Nat) (v : α) :
    Outcome TensorError α := do
  return batchNormCell (← gamma.entry channel) (← beta.entry channel) (← mean.entry channel)
    (← var.entry channel) epsilon v

/-- **What a batch normalisation computes.** -/
theorem batchNorm_eq_ok [Build] (hout : output.shape = x.shape) :
    batchNorm x gamma beta mean var epsilon output = .ok y ↔
      ∃ n channels trailing inner, x.shape.dims = n :: channels :: trailing ∧
        (∀ s ∈ [gamma, beta, mean, var], s.shape.numElements = some channels) ∧
        Shape.product trailing = some inner ∧ y.shape = x.shape ∧ y.data.size = x.data.size ∧
        ∀ i (hx : i < x.data.size) (hy : i < y.data.size),
          normalized gamma beta mean var epsilon (i / Nat.max inner 1 % channels) x.data[i] =
            .ok y.data[i] := by
  rw [batchNorm, if_neg (not_not.2 hout.symm)]
  cases hdims : x.shape.dims with
  | nil => simp
  | cons n rest =>
    cases rest with
    | nil => simp
    | cons channels trailing =>
      simp only [Outcome.report_bind]
      constructor
      · intro h
        obtain ⟨misfit, hmisfit, h⟩ := Outcome.bind_eq_ok.1 h
        cases misfit with
        -- A statistic with another number of elements is reported.
        | some stat => cases h
        | none =>
          have hstats := Shape.firstMisfit_eq_none.1 hmisfit
          rw [List.forall_mem_map] at hstats
          obtain ⟨inner, hinner, h⟩ := Outcome.bind_eq_ok.1 h
          obtain ⟨elements, helements, h⟩ := Outcome.bind_eq_ok.1 h
          obtain rfl := Outcome.pure_eq_ok_iff.1 h
          obtain ⟨hlen, hcell⟩ := Outcome.mapM_zipIdx_eq_ok.1 helements
          refine ⟨n, channels, trailing, inner, rfl, hstats, Outcome.orCrash_eq_ok.1 hinner, hout,
            by simpa using hlen, fun i hx hy => ?_⟩
          exact hcell i (by simpa using hx) (by simpa using hy)
      · rintro ⟨_, _, _, inner, hcons, hstats, hinner, hshape, hsize, hcell⟩
        obtain ⟨rfl, rfl, rfl⟩ : n = _ ∧ channels = _ ∧ trailing = _ := by simpa using hcons
        rw [Shape.firstMisfit_eq_none.2 (List.forall_mem_map.2 hstats)]
        simp only [Outcome.ok_bind, hinner, Outcome.orCrash_some]
        refine Outcome.bind_eq_ok.2 ⟨y.data.toList, ?_, ?_⟩
        · refine Outcome.mapM_zipIdx_eq_ok.2 ⟨by simpa using hsize, fun i hx hy => ?_⟩
          exact hcell i (by simpa using hx) (by simpa using hy)
        · obtain ⟨shape, data⟩ := y
          obtain rfl := hshape
          rw [hout]
          rfl

/-- Where the elements of a channel cannot be counted, a batch normalisation breaks off. -/
theorem batchNorm_of_not_counted [Build] (epsilon : α) {n channels : Nat} {trailing : List Nat}
    (hout : output.shape = x.shape) (hx : x.shape.dims = n :: channels :: trailing)
    (hstats : ∀ s ∈ [gamma, beta, mean, var], s.shape.numElements = some channels)
    (hnone : Shape.product trailing = none) :
    batchNorm x gamma beta mean var epsilon output = Outcome.crash := by
  rw [batchNorm, if_neg (not_not.2 hout.symm), hx]
  dsimp only
  rw [Shape.firstMisfit_eq_none.2 (List.forall_mem_map.2 hstats)]
  simp only [Outcome.ok_bind, hnone, Outcome.orCrash_none, Outcome.crash_bind]

/-- With one statistic for each channel a batch normalisation has a result. -/
theorem exists_batchNorm [Build] (epsilon : α) {n channels inner : Nat} {trailing : List Nat}
    (hout : output.shape = x.shape) (hx : x.shape.dims = n :: channels :: trailing)
    (hinner : Shape.product trailing = some inner) (hc : x.data.size ≠ 0 → 0 < channels)
    (hstats : ∀ s ∈ [gamma, beta, mean, var], s.shape.numElements = some channels ∧ s.Sized) :
    ∃ y, batchNorm x gamma beta mean var epsilon output = .ok y ∧ y.shape = x.shape ∧
      y.data.size = x.data.size := by
  have hcell : ∀ p ∈ x.data.toList.zipIdx,
      ∃ v, normalized gamma beta mean var epsilon (p.2 / Nat.max inner 1 % channels) p.1 =
        .ok v := by
    intro p hp
    have hpos : 0 < channels := hc fun hzero => by
      rw [List.eq_nil_of_length_eq_zero (l := x.data.toList) (by simpa using hzero)] at hp
      simp at hp
    have hlt : ∀ s ∈ [gamma, beta, mean, var], p.2 / Nat.max inner 1 % channels < s.data.size :=
      fun s hs => by
        obtain ⟨hnum, hsized⟩ := hstats s hs
        rw [hsized.size_eq_of_count hnum]
        exact Nat.mod_lt _ hpos
    simp only [List.forall_mem_cons] at hlt
    obtain ⟨hgamma, hbeta, hmean, hvar, -⟩ := hlt
    rw [normalized, Tensor.entry_of_lt hgamma, Tensor.entry_of_lt hbeta, Tensor.entry_of_lt hmean,
      Tensor.entry_of_lt hvar]
    exact ⟨_, rfl⟩
  obtain ⟨elements, helements⟩ := Outcome.exists_mapM_eq_ok hcell
  obtain ⟨hlen, hcells⟩ := Outcome.mapM_zipIdx_eq_ok.1 helements
  refine ⟨⟨x.shape, elements.toArray⟩, batchNorm_eq_ok hout |>.2 ?_, rfl, by simpa using hlen⟩
  refine ⟨n, channels, trailing, inner, hx, fun s hs => (hstats s hs).1, hinner, rfl,
    by simpa using hlen, fun i hx hy => ?_⟩
  exact hcells i (by simpa using hx) (by simpa using hy)

end Kernel

end NetPack
