import NetPack.Proofs.Evaluation
import NetPack.Proofs.Kernels.Samples

/-!
# Batches sample by sample

A graph computes every sample of a batch as if it were alone. One operation does so by its kernel
(`Op.execute_sample`), and it leaves a batch of as many samples behind, which again have an axis of
their own. Along the nodes the tensors of the run on one sample are therefore the samples of the
tensors of the run on the batch (`Graph.Runs.sample`), and so is the result
(`Graph.evaluate_sample`).
-/

namespace NetPack

variable {α : Type} [Scalar α] {x y : Tensor α} {n i : Nat}

/-- **An operation on a batch is the operation on each sample.** -/
theorem Op.execute_sample [Build] {op : Op α} {params : List (Tensor α)} (hx : x.IsBatch n)
    (hi : i < n)
    (h : op.execute x params = .ok y) :
    y.IsBatch n ∧ op.execute (x.sample i) params = .ok (y.sample i) := by
  unfold execute at h
  split at h
  case h_1 | h_2 => exact Kernel.conv_sample hx hi h
  case h_3 | h_4 => exact Kernel.linear_sample hx hi h
  case h_8 => exact Kernel.maxPool_sample hx hi h
  case h_9 => exact Kernel.globalAvgPool_sample hx hi h
  case h_10 => exact Kernel.flatten_sample hx hi h
  case h_11 => exact absurd h Outcome.report_ne_ok
  -- The other kernels write into zeros, which can be counted for the sample as for the batch.
  all_goals
    obtain ⟨output, hzeros, h⟩ := Outcome.bind_eq_ok.1 h
    have hblank :=
      hx.zeros_sample hi (Option.isSome_iff_exists.2 ⟨_, Outcome.orCrash_eq_ok.1 hzeros⟩)
    obtain rfl := hx.exact.zeros_eq (Outcome.orCrash_eq_ok.1 hzeros)
    simp only [execute, hblank, Outcome.orCrash_some, Outcome.ok_bind]
  case h_5 => exact Kernel.batchNorm_sample rfl rfl hx hi h
  case h_6 =>
    obtain ⟨hy, hsample⟩ :=
      Kernel.activation_sample rfl (Tensor.shape_blank _) hx (Outcome.ofExcept_eq_ok.1 h)
    exact ⟨hy, Outcome.ofExcept_eq_ok.2 hsample⟩
  case h_7 =>
    have hsize : (Tensor.blank x.shape : Tensor α).data.size = x.data.size := by
      simp [Tensor.blank, hx.exact.size_eq]
    have hsize' : (Tensor.blank (x.sample i).shape : Tensor α).data.size =
        (x.sample i).data.size := by
      simp [Tensor.blank, hx.product_sample, hx.size_sample hi]
    obtain ⟨hy, hsample⟩ := Kernel.softmax_sample (Tensor.shape_blank _) hsize
      (Tensor.shape_blank _) hsize' hx hi (Outcome.ofExcept_eq_ok.1 h)
    exact ⟨hy, Outcome.ofExcept_eq_ok.2 hsample⟩

/-- An operation on a well-formed tensor has a well-formed result. -/
theorem Op.wellFormed_execute [Build] {op : Op α} {params : List (Tensor α)} (hx : x.WellFormed)
    (h : op.execute x params = .ok y) : y.WellFormed := by
  unfold execute at h
  split at h
  case h_1 | h_2 => exact Kernel.wellFormed_of_conv h
  case h_3 | h_4 => exact Kernel.wellFormed_of_linear h
  case h_8 => exact Kernel.wellFormed_of_maxPool h
  case h_9 => exact Kernel.wellFormed_of_globalAvgPool h
  case h_10 => exact Kernel.wellFormed_of_flatten h
  case h_11 => exact absurd h Outcome.report_ne_ok
  all_goals
    simp only [hx.zeros, Outcome.orCrash_some, Outcome.ok_bind] at h
  case h_5 =>
    obtain ⟨-, -, -, -, -, -, -, hshape, hsize, -⟩ := (Kernel.batchNorm_eq_ok rfl).1 h
    exact wellFormed_of_shape_eq hx hshape hsize
  case h_6 =>
    have h := Outcome.ofExcept_eq_ok.1 h
    rw [Kernel.activation_eq_ok _ (Tensor.shape_blank x.shape)] at h
    obtain rfl := Except.ok.inj h
    exact wellFormed_of_shape_eq hx rfl (by simp)
  case h_7 =>
    have h := Outcome.ofExcept_eq_ok.1 h
    obtain ⟨y', hy', hshape, hsize⟩ :=
      Kernel.exists_softmax (Tensor.shape_blank x.shape) (by simp [Tensor.blank, hx.size_eq])
    obtain rfl := Except.ok.inj (h.symm.trans hy')
    exact wellFormed_of_shape_eq hx hshape hsize

namespace Graph

variable {params : Table (Tensor α)} {env : Env α} {ns : List (Node α)} {name : String}

omit [Scalar α] in
theorem lookup_sample (env : Env α) (i : Nat) (name : String) :
    (env.map fun e => (e.1, e.2.sample i)).lookup name = (env.lookup name).map (·.sample i) :=
  Table.lookup_map_snd (fun _ (t : Tensor α) => t.sample i) env name

/-- **The tensors of a run on one sample are the samples of the tensors of the batch.** -/
theorem Runs.sample [Build] (henv : ∀ e ∈ env, e.2.IsBatch n) (hi : i < n)
    (h : Runs params ns env name y) :
    y.IsBatch n ∧ Runs params ns (env.map fun e => (e.1, e.2.sample i)) name (y.sample i) := by
  induction ns generalizing env with
  | nil =>
    rw [runs_nil] at h ⊢
    exact ⟨henv _ (Table.mem_of_lookup h), by rw [lookup_sample, h, Option.map_some]⟩
  | cons node ns ih =>
    obtain ⟨x, t, hx, ht, hrun⟩ := runs_cons.1 h
    obtain ⟨htbatch, htsample⟩ := Op.execute_sample (henv _ (Table.mem_of_lookup hx)) hi ht
    obtain ⟨hy, hsample⟩ := ih (List.forall_mem_cons.2 ⟨htbatch, henv⟩) hrun
    refine ⟨hy, runs_cons.2 ⟨x.sample i, t.sample i, ?_, htsample, hsample⟩⟩
    rw [lookup_sample, hx, Option.map_some]

/-- The result of a run on well-formed tensors is well-formed. -/
theorem Runs.wellFormed [Build] (henv : ∀ e ∈ env, e.2.WellFormed) (h : Runs params ns env name y) :
    y.WellFormed := by
  induction ns generalizing env with
  | nil => exact henv _ (Table.mem_of_lookup (runs_nil.1 h))
  | cons node ns ih =>
    obtain ⟨x, t, hx, ht, hrun⟩ := runs_cons.1 h
    have hwell := Op.wellFormed_execute (henv _ (Table.mem_of_lookup hx)) ht
    exact ih (List.forall_mem_cons.2 ⟨hwell, henv⟩) hrun

omit [Scalar α] in
/-- An input whose leading axis is dynamic accepts each sample of what it accepts. -/
theorem accepts_sample {input : ValueInfo} {shape : Shape} (haxis : 0 ∈ input.dynamicAxes)
    (h : accepts input shape = true) : accepts input (shape.withLeading 1) = true := by
  obtain ⟨name, ⟨expected⟩, dynamicAxes⟩ := input
  obtain ⟨given⟩ := shape
  cases given with
  | nil => exact h
  | cons d rest =>
    cases expected with
    | nil => simp [accepts] at h
    | cons e es =>
      -- Only the leading extent changes, and that one is not compared.
      have hcontains : dynamicAxes.contains 0 = true := by simpa using haxis
      simp only [accepts, Shape.withLeading_mk, List.length_cons, List.zip_cons_cons,
        List.zipIdx_cons, List.all_cons, hcontains, Bool.or_true, Bool.true_and] at h ⊢
      exact h

/-- **A graph computes every sample of a batch as if it were alone.** For an input with an axis
behind its dynamic leading axis, the result for one sample is exactly its slice of the result for
the batch. -/
theorem evaluate_sample [Build] {g : Graph α} (hrank : 2 ≤ g.input.shape.rank)
    (haxis : 0 ∈ g.input.dynamicAxes) (hx : x.Exact) (hn : x.shape.LeadsWith n)
    (hy : g.evaluate x = .ok y) (hi : i < n) :
    y.Exact ∧ (x.WellFormed → y.WellFormed) ∧ y.shape.LeadsWith n ∧
      g.evaluate (x.sample i) = .ok (y.sample i) := by
  obtain ⟨haccepts, hrun⟩ := evaluate_eq_ok.1 hy
  have hranks : g.input.shape.rank = x.shape.rank := by
    unfold accepts at haccepts
    rw [Bool.and_eq_true, beq_iff_eq] at haccepts
    exact haccepts.1
  have hbatch : x.IsBatch n := ⟨hx, hn, hranks ▸ hrank⟩
  obtain ⟨hybatch, hsample⟩ := hrun.sample (List.forall_mem_singleton.2 hbatch) hi
  exact ⟨hybatch.exact, fun hwell => hrun.wellFormed (List.forall_mem_singleton.2 hwell),
    hybatch.leads,
    evaluate_eq_ok.2 ⟨accepts_sample haxis haccepts, hsample⟩⟩

/-- A fully connected layer and a cut at zero, for any number of samples. -/
def classifier : Graph Binary32 where
  name := "classifier"
  input := ⟨"sample", ⟨[1, 2]⟩, [0]⟩
  output := ⟨"scores", ⟨[1, 2]⟩, [0]⟩
  nodes :=
    [⟨"dense", .linear, "sample", ["weight"], "logits", ⟨[1, 2]⟩⟩,
      ⟨"cut", .activation .relu, "logits", [], "scores", ⟨[1, 2]⟩⟩]
  params := .ofList [("weight", ⟨⟨[2, 2]⟩, #[1, 1, 0, 1]⟩)]

/-- Three samples for it. -/
def threeSamples : Tensor Binary32 := ⟨⟨[3, 2]⟩, #[1, 0, 0, 1, 1, 1]⟩

theorem evaluate_sample_classifier :
    classifier.Valid ∧ 2 ≤ classifier.input.shape.rank ∧ 0 ∈ classifier.input.dynamicAxes ∧
      threeSamples.WellFormed ∧ threeSamples.shape.LeadsWith 3 ∧
      ∃ y, classifier.evaluate threeSamples = .ok y ∧
        classifier.evaluate (threeSamples.sample 2) = .ok (y.sample 2) := by
  have hvalid : classifier.Valid := by decide
  have hrank : 2 ≤ classifier.input.shape.rank := by decide
  have haxis : 0 ∈ classifier.input.dynamicAxes := by decide
  have hx : threeSamples.WellFormed := by decide
  have hn : threeSamples.shape.LeadsWith 3 := rfl
  have hy : classifier.evaluate threeSamples =
      .ok ⟨⟨[3, 2]⟩, #[1, 0, 1, 1, Scalar.count 2, 1]⟩ := by decide +kernel
  obtain ⟨-, -, -, hsample⟩ := evaluate_sample hrank haxis hx.exact hn hy (by decide : 2 < 3)
  exact ⟨hvalid, hrank, haxis, hx, hn, _, hy, hsample⟩

end Graph

end NetPack
