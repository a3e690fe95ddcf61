import NetPack.Proofs.Kernels.Coordinates
import NetPack.Proofs.Kernels.Normalization
import NetPack.Proofs.Operations

/-!
# Normalising every channel

What a batch normalisation makes of the element at given coordinates, at every number of axes: the
statistics that it uses are those of the second coordinate, and they are in range
(`Kernel.batchNorm_at_coordinates`). It counts the elements of a channel with the plain operator,
also where there is no element at all. So a checked build breaks off on some tensors without
elements (`Kernel.not_forall_batchNorm`), a release build never does.

A program has its result in the tensor that it was given for it. `Kernel.batchNormInto` is that
program: it makes all checks first and then overwrites one element after the other. Where
`Kernel.batchNorm` has a result, this is what the program leaves in the output, and where it has
none the output is left as it was.
-/

namespace NetPack

/-! ### Overwriting elements -/

namespace Tensor

variable {α : Type} {t : Tensor α} {vs : List α}

/-- Overwrites the elements from a position on, one after the other. -/
def overwrite (t : Tensor α) : Nat → List α → Tensor α
  | _, [] => t
  | i, v :: vs => (t.set i v).overwrite (i + 1) vs

theorem shape_overwrite (t : Tensor α) (i : Nat) (vs : List α) :
    (t.overwrite i vs).shape = t.shape := by
  induction vs generalizing t i with
  | nil => rfl
  | cons v vs ih => exact ih (t.set i v) (i + 1)

theorem size_set (t : Tensor α) (i : Nat) (v : α) : (t.set i v).data.size = t.data.size :=
  Array.size_setIfInBounds

/-- The first elements stay, those behind them are the new ones. -/
theorem toList_overwrite {i : Nat} (hlen : i + vs.length = t.data.size) :
    (t.overwrite i vs).data.toList = t.data.toList.take i ++ vs := by
  induction vs generalizing t i with
  | nil =>
    rw [List.length_nil, Nat.add_zero] at hlen
    rw [overwrite, List.append_nil, hlen, ← Array.length_toList, List.take_length]
  | cons v vs ih =>
    rw [List.length_cons] at hlen
    have hi : i < t.data.toList.length := by rw [Array.length_toList]; omega
    rw [overwrite, ih (by rw [size_set]; omega), set, Array.toList_setIfInBounds,
      List.take_add_one, List.take_set_of_le (Nat.le_refl i), List.getElem?_set_self hi,
      Option.toList_some, List.append_assoc, List.singleton_append]

theorem overwrite_all (hlen : vs.length = t.data.size) :
    t.overwrite 0 vs = { t with data := vs.toArray } := by
  have hdata : (t.overwrite 0 vs).data = vs.toArray := by
    rw [← Array.toList_inj, toList_overwrite (by omega), List.take_zero, List.nil_append]
  rw [← shape_overwrite t 0 vs, ← hdata]

end Tensor

/-- Computations that write into an output tensor, which is kept through errors. -/
abbrev Writing (α β : Type) := ExceptT (Fault TensorError) (StateM (Tensor α)) β

namespace Writing

variable {α β γ : Type} {t t' : Tensor α} {f : α × Nat → Outcome TensorError α}

/-- The result of a computation and the output that it leaves. -/
def outcome (w : Writing α β) (t : Tensor α) : Outcome TensorError β × Tensor α := w.run.run t

/-- A step that does not use the output. -/
def attempt (r : Outcome TensorError β) : Writing α β := ExceptT.mk (pure r)

/-- Computes the element at a position and writes it there. -/
def write (f : α × Nat → Outcome TensorError α) (p : α × Nat) : Writing α Unit := do
  let v ← attempt (f p)
  modify (·.set p.2 v)

theorem outcome_get_bind (g : Tensor α → Writing α β) :
    outcome (get >>= g) t = outcome (g t) t := rfl

theorem outcome_attempt_bind (r : Outcome TensorError β) (g : β → Writing α γ) :
    outcome (attempt r >>= g) t = match r with
      | .ok b => outcome (g b) t
      | .error e => (.error e, t) := by
  cases r <;> rfl

theorem outcome_write_bind (p : α × Nat) (g : Unit → Writing α β) :
    outcome (write f p >>= g) t = match f p with
      | .ok v => outcome (g ()) (t.set p.2 v)
      | .error e => (.error e, t) := by
  rw [write, bind_assoc, outcome_attempt_bind]
  rfl

/-- **A loop of writes** ends without an error exactly when every element can be computed, and then
it has overwritten the elements with the computed ones. -/
theorem outcome_forM_write_eq_ok {l : List α} {i : Nat} :
    outcome ((l.zipIdx i).forM (write f)) t = (.ok (), t') ↔
      ∃ vs, (l.zipIdx i).mapM f = .ok vs ∧ t.overwrite i vs = t' := by
  induction l generalizing t i with
  | nil =>
    have hend : outcome (([] : List α).zipIdx i |>.forM (write f)) t = (.ok (), t) := rfl
    rw [hend, List.zipIdx_nil, List.mapM_nil]
    constructor
    · intro h
      exact ⟨[], rfl, congrArg Prod.snd h⟩
    · rintro ⟨vs, hvs, rfl⟩
      obtain rfl := Outcome.pure_eq_ok_iff.1 hvs
      rfl
  | cons a l ih =>
    rw [List.zipIdx_cons, List.forM_eq_forM, List.forM_cons, outcome_write_bind, List.mapM_cons]
    cases hv : f (a, i) with
    | error e => simp
    | ok v =>
      simp only [Outcome.ok_bind]
      rw [← List.forM_eq_forM, ih]
      constructor
      · rintro ⟨vs, hvs, rfl⟩
        exact ⟨v :: vs, by rw [hvs]; rfl, rfl⟩
      · rintro ⟨_, hvs, rfl⟩
        obtain ⟨vs, htail, hcons⟩ := Outcome.bind_eq_ok.1 hvs
        obtain rfl := Outcome.pure_eq_ok_iff.1 hcons
        exact ⟨vs, htail, rfl⟩

end Writing

/-! ### Checks before the first write -/

namespace Kernel

variable {α : Type} [Scalar α] {x gamma beta mean var output y : Tensor α} {epsilon : α}

/-- The number of channels and of the elements of a channel, after all checks. -/
def channelAxes [Build] (x gamma beta mean var output : Tensor α) :
    Outcome TensorError (Nat × Nat) := do
  if x.shape ≠ output.shape then
    Outcome.report (.shapes "batch_norm (input vs output)" x.shape output.shape)
  let _ :: channels :: trailing := x.shape.dims
    | Outcome.report (.shapes "batch_norm (rank < 2)" x.shape gamma.shape)
  if let some stat ← Shape.firstMisfit channels ([gamma, beta, mean, var].map (·.shape)) then
    Outcome.report (.shapes "batch_norm (statistics)" x.shape stat)
  return (channels, Nat.max (← Outcome.orCrash (Shape.product trailing)) 1)

theorem batchNorm_eq [Build] : batchNorm x gamma beta mean var epsilon output = (do
    let (channels, inner) ← channelAxes x gamma beta mean var output
    let elements ← x.data.toList.zipIdx.mapM fun (v, i) =>
      normalized gamma beta mean var epsilon (i / inner % channels) v
    return { output with data := elements.toArray }) := by
  rw [batchNorm, channelAxes]
  by_cases hout : x.shape = output.shape
  · rw [if_neg (not_not.2 hout), if_neg (not_not.2 hout)]
    rcases x.shape.dims with _ | ⟨n, _ | ⟨channels, trailing⟩⟩
    · rfl
    · rfl
    · simp only [Outcome.report_bind, bind_assoc]
      refine bind_congr fun misfit => ?_
      cases misfit with
      | some stat => rfl
      | none =>
        cases Shape.product trailing <;> rfl
  · rw [if_pos hout, if_pos hout]
    rfl

/-- Writes the normalised elements of `x` into an output, after all checks. -/
def batchNormInto [Build] (x gamma beta mean var : Tensor α) (epsilon : α) : Writing α Unit := do
  let output ← get
  let (channels, inner) ← Writing.attempt (channelAxes x gamma beta mean var output)
  (x.data.toList.take output.data.size).zipIdx.forM <| Writing.write fun (v, i) =>
    normalized gamma beta mean var epsilon (i / inner % channels) v

/-- Where the batch normalisation has a result, the program leaves it in the output. -/
theorem batchNormInto_of_eq_ok [Build] (hsize : output.data.size = x.data.size)
    (h : batchNorm x gamma beta mean var epsilon output = .ok y) :
    Writing.outcome (batchNormInto x gamma beta mean var epsilon) output = (.ok (), y) := by
  rw [batchNorm_eq] at h
  obtain ⟨⟨channels, inner⟩, haxes, h⟩ := Outcome.bind_eq_ok.1 h
  obtain ⟨elements, helements, hy⟩ := Outcome.bind_eq_ok.1 h
  obtain rfl := Outcome.pure_eq_ok_iff.1 hy
  have hlen : elements.length = output.data.size := by
    rw [hsize, (Outcome.mapM_zipIdx_eq_ok.1 helements).1, Array.length_toList]
  have hall : x.data.toList.take output.data.size = x.data.toList := by
    rw [hsize, ← Array.length_toList, List.take_length]
  rw [batchNormInto, Writing.outcome_get_bind, Writing.outcome_attempt_bind, haxes]
  dsimp only
  rw [hall, Writing.outcome_forM_write_eq_ok]
  exact ⟨elements, helements, Tensor.overwrite_all hlen⟩

/-- Where the checks end without a value, nothing has been written. -/
theorem batchNormInto_of_channelAxes_eq_error [Build] {fault : Fault TensorError}
    (h : channelAxes x gamma beta mean var output = .error fault) :
    batchNorm x gamma beta mean var epsilon output = .error fault ∧
      Writing.outcome (batchNormInto x gamma beta mean var epsilon) output =
        (.error fault, output) := by
  constructor
  · rw [batchNorm_eq, h]
    rfl
  · rw [batchNormInto, Writing.outcome_get_bind, Writing.outcome_attempt_bind, h]

/-- What the checks ask for: an output of the shape of the input, at least two axes, and as many
elements in each statistic as there are channels. -/
structure Normalizable [Build] (x gamma beta mean var output : Tensor α) (channels : Nat) :
    Prop where
  shape_output : output.shape = x.shape
  second_axis : x.shape.dim? 1 = some channels
  statistics : ∀ s ∈ [gamma, beta, mean, var], s.shape.numElements = some channels

omit [Scalar α] in
theorem Normalizable.exists_dims [Build] {channels : Nat}
    (h : Normalizable x gamma beta mean var output channels) :
    ∃ n trailing, x.shape.dims = n :: channels :: trailing := by
  have hsecond := h.second_axis
  rw [Shape.dim?] at hsecond
  generalize x.shape.dims = dims at hsecond ⊢
  rcases dims with _ | ⟨n, _ | ⟨c, trailing⟩⟩
  · cases hsecond
  · cases hsecond
  · obtain rfl := Option.some.inj hsecond
    exact ⟨n, trailing, rfl⟩

omit [Scalar α] in
/-- Behind the checks only the elements of a channel are counted. -/
theorem Normalizable.channelAxes_eq [Build] {channels : Nat}
    (h : Normalizable x gamma beta mean var output channels) :
    channelAxes x gamma beta mean var output =
      (fun inner => (channels, Nat.max inner 1)) <$>
        Outcome.orCrash (Shape.product (x.shape.dims.drop 2)) := by
  obtain ⟨n, trailing, hdims⟩ := h.exists_dims
  have hstats := Shape.firstMisfit_eq_none (ε := TensorError).2 (List.forall_mem_map.2 h.statistics)
  rw [channelAxes, if_neg (not_not.2 h.shape_output.symm), hdims]
  simp only [Outcome.report_bind, hstats]
  cases hcount : Shape.product trailing <;> simp [hcount]

omit [Scalar α] in
/-- Statistics that the build can count are refused with an error. -/
theorem channelAxes_of_misfit [Build] (hstats : ∀ s ∈ [gamma, beta, mean, var], s.Sized)
    (h : ¬ ∃ channels, Normalizable x gamma beta mean var output channels) :
    ∃ e, channelAxes x gamma beta mean var output = Outcome.report e := by
  by_cases hout : x.shape = output.shape
  · rcases hdims : x.shape.dims with _ | ⟨n, _ | ⟨channels, trailing⟩⟩
    · exact ⟨_, by rw [channelAxes, if_neg (not_not.2 hout), hdims]⟩
    · exact ⟨_, by rw [channelAxes, if_neg (not_not.2 hout), hdims]⟩
    · have hcounted : ∀ s ∈ [gamma, beta, mean, var].map (·.shape), s.numElements.isSome :=
        List.forall_mem_map.2 fun s hs => Option.isSome_iff_exists.2 ⟨_, hstats s hs⟩
      obtain ⟨misfit, hmisfit⟩ : ∃ misfit, (Shape.firstMisfit channels
          ([gamma, beta, mean, var].map (·.shape)) : Outcome TensorError _) = .ok misfit :=
        Shape.exists_firstMisfit hcounted
      cases misfit with
      | none =>
        refine absurd ⟨channels, hout.symm, by rw [Shape.dim?, hdims]; rfl, ?_⟩ h
        exact List.forall_mem_map.1 (Shape.firstMisfit_eq_none.1 hmisfit)
      | some stat =>
        refine ⟨.shapes "batch_norm (statistics)" x.shape stat, ?_⟩
        rw [channelAxes, if_neg (not_not.2 hout), hdims]
        simp only [Outcome.report_bind, hmisfit]
        rfl
  · exact ⟨_, by rw [channelAxes, if_pos hout]; rfl⟩

omit [Scalar α] in
/-- The elements of a channel can be counted in a release build, and where there is an element. -/
theorem isSome_product_of_exact [Build] (hx : x.Exact)
    (h : Build.checks = true → x.data.size ≠ 0) :
    (Shape.product (x.shape.dims.drop 2)).isSome := by
  cases hchecks : Build.checks with
  | false => exact Op.counted_release hchecks (.batchNorm 0 : Op Nat) x.shape
  | true =>
    have hsize := hx.size_eq ▸ Nat.pos_of_ne_zero (h hchecks)
    exact Op.counted_of_positive (.batchNorm 0 : Op Nat) (Word.forall_pos_of_product_pos hsize)
      (hx.size_eq ▸ hx.size_lt)

/-! ### Elements -/

/-- An element with its statistics in range. -/
theorem normalized_of_lt {c : Nat} (hc : ∀ s ∈ [gamma, beta, mean, var], c < s.data.size) (v : α) :
    normalized gamma beta mean var epsilon c v =
      .ok (gamma.data.getD c 0 * (v - mean.data.getD c 0) *
        (1 / Scalar.sqrt (var.data.getD c 0 + epsilon)) + beta.data.getD c 0) := by
  simp only [List.forall_mem_cons] at hc
  obtain ⟨hgamma, hbeta, hmean, hvar, -⟩ := hc
  rw [normalized, Tensor.entry_of_lt hgamma, Tensor.entry_of_lt hbeta, Tensor.entry_of_lt hmean,
    Tensor.entry_of_lt hvar]
  simp only [Outcome.ok_bind, Array.getElem_eq_getD (0 : α)]
  rfl

/-- The element at coordinates is that of the second coordinate's channel. -/
theorem elementAt_of_batchNorm [Build] (hx : x.Exact) (hout : output.shape = x.shape)
    (h : batchNorm x gamma beta mean var epsilon output = .ok y) {i c : Nat} {ks : List Nat}
    (hcoords : Shape.Within (i :: c :: ks) x.shape.dims) :
    normalized gamma beta mean var epsilon c (x.elementAt (i :: c :: ks)) =
      .ok (y.elementAt (i :: c :: ks)) := by
  obtain ⟨n, channels, trailing, inner, hdims, -, hinner, hshape, hsize, hcell⟩ :=
    (batchNorm_eq_ok hout).1 h
  have hlt := hx.rowMajor_lt hcoords
  have hchannel :
      Shape.rowMajor x.shape.dims (i :: c :: ks) / Nat.max inner 1 % channels = c := by
    have hword := hx.size_eq ▸ hx.size_lt
    rw [hdims] at hcoords hword ⊢
    exact Shape.channel_rowMajor hinner hcoords hword
  have hvalue := hcell _ hlt (hsize ▸ hlt)
  rw [hchannel, Array.getElem_eq_getD 0, Array.getElem_eq_getD 0] at hvalue
  rw [Tensor.elementAt, Tensor.elementAt, hshape]
  exact hvalue

/-- Where the tensors go together and the elements of a channel can be counted, there is a
result. -/
theorem Normalizable.exists_batchNorm [Build] {channels : Nat} (hx : x.Exact)
    (hstats : ∀ s ∈ [gamma, beta, mean, var], s.Sized)
    (h : Normalizable x gamma beta mean var output channels)
    (hcount : (Shape.product (x.shape.dims.drop 2)).isSome) (epsilon : α) :
    ∃ y, batchNorm x gamma beta mean var epsilon output = .ok y ∧ y.shape = x.shape ∧
      y.data.size = x.data.size := by
  obtain ⟨n, trailing, hdims⟩ := h.exists_dims
  obtain ⟨inner, hinner⟩ := Option.isSome_iff_exists.1 hcount
  rw [hdims] at hinner
  have hchannels : x.data.size ≠ 0 → 0 < channels := fun hsize => by
    rw [hx.size_eq, hdims, Word.product_cons, Word.product_cons] at hsize
    exact Nat.pos_of_ne_zero (left_ne_zero_of_mul (right_ne_zero_of_mul hsize))
  exact Kernel.exists_batchNorm epsilon h.shape_output hdims hinner hchannels fun s hs =>
    ⟨h.statistics s hs, hstats s hs⟩

/-- **Batch normalisation is per channel at every number of axes.** Where the tensors go together
and the elements of a channel can be counted, it has a result, which the program leaves in the
output: the element at coordinates is made of the element at the same coordinates and the statistics
of the second one. Every release build counts them, every build does in a tensor that has elements,
and where a checked build does not it breaks off. Where the tensors do not go together, an error is
reported. Without a result the output is untouched. -/
theorem batchNorm_at_coordinates [Build] (x gamma beta mean var output : Tensor α) (epsilon : α)
    (hx : x.Exact) (hstats : ∀ s ∈ [gamma, beta, mean, var], s.Sized)
    (houtput : output.Sized) :
    ((∃ channels, Normalizable x gamma beta mean var output channels) →
      ((Shape.product (x.shape.dims.drop 2)).isSome →
        ∃ y, batchNorm x gamma beta mean var epsilon output = .ok y ∧
          Writing.outcome (batchNormInto x gamma beta mean var epsilon) output = (.ok (), y) ∧
          y.shape = x.shape ∧ y.Exact ∧ (x.WellFormed → y.WellFormed) ∧
          ∀ i c ks, Shape.Within (i :: c :: ks) x.shape.dims →
            (∀ s ∈ [gamma, beta, mean, var], c < s.data.size) ∧
            y.elementAt (i :: c :: ks) =
              gamma.data.getD c 0 * (x.elementAt (i :: c :: ks) - mean.data.getD c 0) *
                (1 / Scalar.sqrt (var.data.getD c 0 + epsilon)) + beta.data.getD c 0) ∧
      (Shape.product (x.shape.dims.drop 2) = none →
        batchNorm x gamma beta mean var epsilon output = Outcome.crash ∧
          Writing.outcome (batchNormInto x gamma beta mean var epsilon) output =
            (Outcome.crash, output))) ∧
    ((Build.checks = true → x.data.size ≠ 0) → (Shape.product (x.shape.dims.drop 2)).isSome) ∧
    ((¬ ∃ channels, Normalizable x gamma beta mean var output channels) →
      ∃ e, batchNorm x gamma beta mean var epsilon output = Outcome.report e ∧
        Writing.outcome (batchNormInto x gamma beta mean var epsilon) output =
          (Outcome.report e, output)) := by
  refine ⟨?_, isSome_product_of_exact hx, ?_⟩
  · rintro ⟨channels, hfit⟩
    refine ⟨fun hcount => ?_, fun hnone => ?_⟩
    · obtain ⟨y, hy, hshape, hsize⟩ := hfit.exists_batchNorm hx hstats hcount epsilon
      refine ⟨y, hy,
        batchNormInto_of_eq_ok (hx.size_eq_of_sized houtput hfit.shape_output) hy, hshape,
        hx.of_shape_eq hshape hsize, fun hwell => Op.wellFormed_of_shape_eq hwell hshape hsize,
        fun i c ks hcoords => ?_⟩
      have hrange : ∀ s ∈ [gamma, beta, mean, var], c < s.data.size := fun s hs => by
        obtain ⟨n, trailing, hdims⟩ := hfit.exists_dims
        rw [hdims] at hcoords
        rw [(hstats s hs).size_eq_of_count (hfit.statistics s hs)]
        exact (List.forall₂_cons.1 (List.forall₂_cons.1 hcoords).2).1
      have hvalue := elementAt_of_batchNorm hx hfit.shape_output hy hcoords
      rw [normalized_of_lt hrange] at hvalue
      exact ⟨hrange, (Except.ok.inj hvalue).symm⟩
    · refine batchNormInto_of_channelAxes_eq_error ?_
      rw [hfit.channelAxes_eq, hnone]
      rfl
  · intro hmisfit
    obtain ⟨e, he⟩ := channelAxes_of_misfit hstats hmisfit
    exact ⟨e, batchNormInto_of_channelAxes_eq_error he⟩

/-! #### Three channels -/

/-- Two samples of three channels with two elements each. -/
def numbered : Tensor Binary32 := ⟨⟨[2, 3, 2]⟩, ((List.range 12).map Scalar.count).toArray⟩

/-- A statistic for each of `channels` channels. -/
def numberedStatistic (channels : Nat) : Tensor Binary32 :=
  ⟨.vector channels, ((List.range channels).map Scalar.count).toArray⟩

/-- The last channel of the second sample, and a statistic with too few elements. -/
theorem batchNorm_at_coordinates_numbered :
    (numbered.Exact ∧ (numberedStatistic 3).Sized ∧ (numberedStatistic 2).Sized) ∧
    (∃ y, batchNorm numbered (numberedStatistic 3) (numberedStatistic 3) (numberedStatistic 3)
        (numberedStatistic 3) 0 (.blank ⟨[2, 3, 2]⟩) = .ok y ∧
      y.elementAt [1, 2, 0] =
        (Scalar.count 2 * (Scalar.count 10 - Scalar.count 2) *
          (1 / Scalar.sqrt (Scalar.count 2 + 0)) + Scalar.count 2 : Binary32)) ∧
    ∃ e, Writing.outcome (batchNormInto numbered (numberedStatistic 3) (numberedStatistic 3)
        (numberedStatistic 3) (numberedStatistic 2) 0) (.blank ⟨[2, 3, 2]⟩) =
      (Outcome.report e, .blank ⟨[2, 3, 2]⟩) := by
  have hx : numbered.Exact := by decide
  have hthree : (numberedStatistic 3).Sized := by decide
  have htwo : (numberedStatistic 2).Sized := by decide
  have hblank : (Tensor.blank ⟨[2, 3, 2]⟩ : Tensor Binary32).Sized := by decide
  refine ⟨⟨hx, hthree, htwo⟩, ?_, ?_⟩
  · obtain ⟨hfit, hcount, -⟩ := batchNorm_at_coordinates numbered (numberedStatistic 3)
      (numberedStatistic 3) (numberedStatistic 3) (numberedStatistic 3) (.blank ⟨[2, 3, 2]⟩) 0 hx
      (by simpa using hthree) hblank
    obtain ⟨y, hy, -, -, -, -, hcells⟩ :=
      (hfit ⟨3, rfl, rfl, by decide⟩).1 (hcount fun _ => by decide)
    exact ⟨y, hy, (hcells 1 2 [0] (by simp [Shape.Within, numbered])).2⟩
  · have hmisfit : ¬ ∃ channels, Normalizable numbered (numberedStatistic 3) (numberedStatistic 3)
        (numberedStatistic 3) (numberedStatistic 2) (.blank ⟨[2, 3, 2]⟩) channels := by
      rintro ⟨channels, hfit⟩
      have hgamma := hfit.statistics (numberedStatistic 3) (by simp)
      have hvar := hfit.statistics (numberedStatistic 2) (by simp)
      exact absurd (hvar.trans hgamma.symm) (by decide)
    obtain ⟨-, -, herror⟩ := batchNorm_at_coordinates numbered (numberedStatistic 3)
      (numberedStatistic 3) (numberedStatistic 3) (numberedStatistic 2) (.blank ⟨[2, 3, 2]⟩) 0 hx
      (by simpa using ⟨hthree, htwo⟩) hblank
    obtain ⟨e, -, he⟩ := herror hmisfit
    exact ⟨e, he⟩

/-! #### A tensor without elements -/

/-- No sample of one channel with `2 ^ 80` elements. -/
def noSample : Tensor Binary32 := ⟨⟨[0, 1, 1099511627776, 1099511627776]⟩, #[]⟩

/-- **A batch normalisation of a tensor without elements may break off**: the number of elements of
a channel is no word. -/
theorem not_forall_batchNorm :
    ¬ ∀ (x gamma beta mean var output : Tensor Binary32) (epsilon : Binary32) (channels : Nat),
      (∀ t ∈ [x, gamma, beta, mean, var, output], t.WellFormed) →
      Normalizable x gamma beta mean var output channels →
      ∃ y, batchNorm x gamma beta mean var epsilon output = .ok y := by
  intro h
  have hfit : Normalizable noSample (numberedStatistic 1) (numberedStatistic 1)
      (numberedStatistic 1) (numberedStatistic 1) noSample 1 := ⟨rfl, rfl, by decide⟩
  obtain ⟨y, hy⟩ := h noSample (numberedStatistic 1) (numberedStatistic 1) (numberedStatistic 1)
    (numberedStatistic 1) noSample 0 1 (by decide) hfit
  have hcrash : channelAxes noSample (numberedStatistic 1) (numberedStatistic 1)
      (numberedStatistic 1) (numberedStatistic 1) noSample = Outcome.crash := by
    rw [hfit.channelAxes_eq]
    decide
  exact Outcome.crash_ne_ok ((batchNormInto_of_channelAxes_eq_error hcrash).1.symm.trans hy)

end Kernel

end NetPack
