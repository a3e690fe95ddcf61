import NetPack.Proofs.Blocks

/-!
# What folding leaves alone

A node that is in no pair stays as it is, and the nodes that stay keep their order. Their parameters
stay too, except for those with a name under which folding stores a weight or a bias
(`Graph.foldBatchNorms_frame`).

The exception is real: folding looks for no free name. A graph may have given such a name to a
parameter of its own, as a graph does that was folded before; another node that reads it then reads
what was stored there instead (`Graph.not_forall_untouched`).
-/

namespace NetPack

namespace Graph

variable {α : Type} {g g' : Graph α} {n : Node α}

/-- The node is in no pair that is folded. -/
def Untouched (g : Graph α) (n : Node α) : Prop :=
  ∀ c m, g.Folds c m → n ≠ c ∧ n ≠ m

/-- Folding stores no parameter under this name. -/
def Unwritten (g : Graph α) (name : String) : Prop :=
  ∀ c m, g.Folds c m → name ≠ foldedWeight c ∧ name ≠ foldedBias c

/-- The nodes that stay are those in no pair. -/
theorem kept_mem_iff (hg : g.Valid) :
    .kept n ∈ blocks g g.nodes ↔ n ∈ g.nodes ∧ g.Untouched n := by
  rw [kept_mem_blocks hg.nodup_nodes]
  refine and_congr_right fun _ => ?_
  exact forall_congr' fun c => forall_congr' fun m => imp_congr_left folded_mem_blocks

/-- **Folding touches nothing that it does not fold.** The nodes in no pair are all there
afterwards, unchanged and in the same order, and a parameter that such a node reads is the same as
before, if folding stores nothing under its name. -/
theorem foldBatchNorms_frame [Scalar α] {count : Nat} (hg : g.Valid)
    (h : g.foldBatchNorms = .ok (g', count)) :
    (∃ kept : List (Node α), kept.Sublist g.nodes ∧ kept.Sublist g'.nodes ∧
      ∀ n, n ∈ kept ↔ n ∈ g.nodes ∧ g.Untouched n) ∧
    ∀ n ∈ g.nodes, g.Untouched n → ∀ p ∈ n.params, g.Unwritten p →
      g'.params.find? p = g.params.find? p := by
  obtain ⟨f, hf, rfl, -, -⟩ := foldBatchNorms_eq_ok.1 h
  obtain ⟨hnodes, -, hframe⟩ := foldNodes_eq_ok hf
  constructor
  · refine ⟨keptNodes (blocks g g.nodes), ?_, ?_, fun n => ?_⟩
    · have hbefore := keptNodes_sublist_before (blocks g g.nodes)
      rwa [flatMap_before] at hbefore
    · rw [hnodes]
      exact keptNodes_sublist_after _
    · rw [mem_keptNodes, kept_mem_iff hg]
  · intro n hn huntouched p hp hunwritten
    have hkept : n ∈ f.nodes := by
      rw [hnodes]
      exact List.mem_map.2 ⟨.kept n, (kept_mem_iff hg).2 ⟨hn, huntouched⟩, rfl⟩
    rw [find?_usedParams hkept hp]
    exact hframe p fun c m hfolded => hunwritten c m (folded_mem_blocks.1 hfolded)

/-! #### A name that is in use -/

/-- A convolution whose only cell is the given number. -/
def scaling (name input output : String) (params : List String) : Node Binary32 :=
  ⟨name, .conv ⟨⟨1, 1⟩, ⟨0, 0⟩, 1⟩, input, params, output, ⟨[1, 1, 1, 1]⟩⟩

/-- A batch normalisation of single pixels. -/
def normalizing (name input output : String) : Node Binary32 :=
  ⟨name, .batchNorm 0, input, ["one", "zero", "zero", "one"], output, ⟨[1, 1, 1, 1]⟩⟩

/-- The second convolution reads a parameter with the name of the folded weight of the first one. -/
def reused : Graph Binary32 where
  name := "reused"
  input := .fixed "x" ⟨[1, 1, 1, 1]⟩
  output := .fixed "y" ⟨[1, 1, 1, 1]⟩
  nodes :=
    [scaling "c" "x" "a" ["weight"], normalizing "n" "a" "b",
      scaling "d" "b" "y" ["c.folded.weight", "zero"]]
  params := .ofList
    [("c.folded.weight", ⟨⟨[1, 1, 1, 1]⟩, #[Scalar.count 2]⟩), ("one", ⟨⟨[1]⟩, #[1]⟩),
      ("weight", ⟨⟨[1, 1, 1, 1]⟩, #[1]⟩), ("zero", ⟨⟨[1]⟩, #[0]⟩)]

theorem blocks_reused : blocks reused reused.nodes =
    [.folded (scaling "c" "x" "a" ["weight"]) (normalizing "n" "a" "b"),
      .kept (scaling "d" "b" "y" ["c.folded.weight", "zero"])] := rfl

theorem untouched_reused :
    reused.Untouched (scaling "d" "b" "y" ["c.folded.weight", "zero"]) :=
  ((kept_mem_iff (by decide)).1 (blocks_reused ▸ by simp)).2

theorem exists_foldBatchNorms_reused :
    ∃ g', reused.foldBatchNorms = .ok (g', 1) ∧
      g'.params.find? "c.folded.weight" = some ⟨⟨[1, 1, 1, 1]⟩, #[1]⟩ := by
  obtain ⟨g', hfold⟩ : ∃ g', reused.foldBatchNorms = .ok (g', 1) := ⟨_, rfl⟩
  have hweight : (reused.foldBatchNorms.toOption.bind fun r =>
      r.1.params.find? "c.folded.weight") = some ⟨⟨[1, 1, 1, 1]⟩, #[1]⟩ := by decide +kernel
  rw [hfold] at hweight
  exact ⟨g', hfold, hweight⟩

/-- What the second convolution adds stays. -/
theorem foldBatchNorms_frame_reused :
    ∃ g', reused.foldBatchNorms = .ok (g', 1) ∧
      scaling "d" "b" "y" ["c.folded.weight", "zero"] ∈ g'.nodes ∧
      g'.params.find? "zero" = some ⟨⟨[1]⟩, #[0]⟩ := by
  obtain ⟨g', hfold, -⟩ := exists_foldBatchNorms_reused
  obtain ⟨⟨kept, -, hsub, hkept⟩, hparams⟩ := foldBatchNorms_frame (by decide) hfold
  have hd : scaling "d" "b" "y" ["c.folded.weight", "zero"] ∈ reused.nodes := by simp [reused]
  refine ⟨g', hfold, hsub.subset ((hkept _).2 ⟨hd, untouched_reused⟩), ?_⟩
  rw [hparams _ hd untouched_reused "zero" (by simp [scaling])]
  · rfl
  · intro c m hfolds
    have hblock := folded_mem_blocks.2 hfolds
    rw [blocks_reused] at hblock
    simp only [List.mem_cons, Block.folded.injEq, reduceCtorEq, List.not_mem_nil, or_false]
      at hblock
    obtain ⟨rfl, rfl⟩ := hblock
    decide

/-- What it multiplies with does not. -/
theorem not_forall_untouched :
    ¬ ∀ (g g' : Graph Binary32) (count : Nat), g.Valid → g.foldBatchNorms = .ok (g', count) →
      ∀ n ∈ g.nodes, g.Untouched n → ∀ p ∈ n.params,
        g'.params.find? p = g.params.find? p := by
  intro h
  obtain ⟨g', hfold, hweight⟩ := exists_foldBatchNorms_reused
  have hsame := h reused g' 1 (by decide) hfold _ (by simp [reused]) untouched_reused
    "c.folded.weight" (by simp [scaling])
  rw [hweight] at hsame
  exact absurd hsame (by decide)

end Graph

end NetPack
