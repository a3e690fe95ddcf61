import Mathlib.Data.List.Infix
import NetPack.Proofs.Untouched

/-!
# What folding leaves over

One pass folds the pairs whose nodes follow each other. `Graph.Foldable` does not ask for that: a
batch normalisation is the only reader of a convolution, wherever it stands. So a pass leaves two
kinds of pairs over, and no others (`Graph.foldable_after_iff`): pairs with other nodes in between,
and pairs of a convolution that was just made and the next batch normalisation in a row of several.

A second pass finds neighbours of the second kind only. It does nothing exactly if there is no such
row (`Graph.foldBatchNorms_remaining`); a graph with both kinds shows that neither the first pass
leaves nothing over nor the second one does nothing (`Graph.not_forall_folded`).
-/

namespace NetPack

namespace Graph

variable {α : Type} {g g' : Graph α} {c m n : Node α} {ns : List (Node α)}

/-- The value of a convolution is not the output, and a batch normalisation is its only reader. -/
structure Foldable (g : Graph α) (conv norm : Node α) : Prop where
  mem_conv : conv ∈ g.nodes
  mem_norm : norm ∈ g.nodes
  isSome : (foldable? g conv norm).isSome

/-- A convolution and two batch normalisations follow each other, and each value is read by the next
node only. -/
structure Row (g : Graph α) (conv norm next : Node α) : Prop where
  adjacent : [conv, norm, next] <:+: g.nodes
  isSome : (foldable? g conv norm).isSome
  isNorm : (epsilonOf? next.op).isSome
  once : Private g norm next

/-! ### Pairs that are folded -/

theorem not_isConv_of_isNorm (h : (epsilonOf? n.op).isSome) : ¬ isConv n.op := by
  cases hop : n.op <;> simp_all [epsilonOf?, isConv]

theorem Foldable.isConv (h : g.Foldable c m) : isConv c.op := (foldable?_isSome.1 h.isSome).1

theorem Foldable.isNorm (h : g.Foldable c m) : (epsilonOf? m.op).isSome :=
  (foldable?_isSome.1 h.isSome).2.1

theorem Foldable.once (h : g.Foldable c m) : Private g c m := (foldable?_isSome.1 h.isSome).2.2

theorem Folds.foldable (h : g.Folds c m) : g.Foldable c m :=
  ⟨h.1.subset List.mem_cons_self, h.1.subset (List.mem_cons_of_mem _ List.mem_cons_self), h.2⟩

theorem Valid.eq_of_output (hg : g.Valid) (hm : m ∈ g.nodes) (hn : n ∈ g.nodes)
    (h : m.output = n.output) : m = n := by
  obtain ⟨-, -, -, hfit, -⟩ := valid_iff.1 hg
  exact List.inj_on_of_nodup_map hfit.nodup_outputs hm hn h

/-- A value with one reader has no second one. -/
theorem eq_of_single {value : String} (h : numReaders ns value = 1) (hm : m ∈ ns) (hn : n ∈ ns)
    (hmread : m.input = value) (hnread : n.input = value) : m = n := by
  rw [numReaders, List.countP_eq_length_filter] at h
  obtain ⟨reader, hreader⟩ := List.length_eq_one_iff.1 h
  have hone : ∀ k ∈ ns, k.input = value → k = reader := by
    intro k hk hread
    have hmem : k ∈ ns.filter fun n => n.input == value :=
      List.mem_filter.2 ⟨hk, by simpa using hread⟩
    rw [hreader] at hmem
    exact List.mem_singleton.1 hmem
  rw [hone m hm hmread, hone n hn hnread]

/-- A batch normalisation starts no pair. -/
theorem not_folds_of_isNorm (hn : (epsilonOf? n.op).isSome) (m : Node α) : ¬ g.Folds n m :=
  fun h => not_isConv_of_isNorm hn h.foldable.isConv

/-- A convolution ends no pair. -/
theorem not_folds_of_isConv (hn : isConv n.op) (c : Node α) : ¬ g.Folds c n :=
  fun h => not_isConv_of_isNorm h.foldable.isNorm hn

/-- A node reads the value of one convolution, so it is in at most one pair. -/
theorem Foldable.eq_left (hg : g.Valid) (h : g.Foldable c m) (h' : g.Foldable n m) : c = n :=
  hg.eq_of_output h.mem_conv h'.mem_conv (h.once.read.symm.trans h'.once.read)

theorem Foldable.eq_right (h : g.Foldable c m) (h' : g.Foldable c n) : m = n :=
  eq_of_single h.once.single h.mem_norm h'.mem_norm h.once.read h'.once.read

/-! ### Nodes before and after -/

/-- The nodes after folding are the nodes that stay and the folded ones. -/
theorem mem_map_after :
    n ∈ (blocks g g.nodes).map Block.after ↔
      .kept n ∈ blocks g g.nodes ∨ ∃ c m, g.Folds c m ∧ foldedNode c m = n := by
  rw [List.mem_map]
  constructor
  · rintro ⟨b | ⟨c, m⟩, hb, rfl⟩
    · exact .inl hb
    · exact .inr ⟨c, m, folded_mem_blocks.1 hb, rfl⟩
  · rintro (hkept | ⟨c, m, hfolds, rfl⟩)
    · exact ⟨_, hkept, rfl⟩
    · exact ⟨_, folded_mem_blocks.2 hfolds, rfl⟩

/-- A batch normalisation that is there afterwards has stayed. -/
theorem eq_kept_of_isNorm {b : Block α} (hb : b ∈ blocks g g.nodes)
    (hop : (epsilonOf? b.after.op).isSome) : b = .kept b.after := by
  cases b with
  | kept n => rfl
  | folded c m =>
    have hfolds : g.Folds c m := folded_mem_blocks.1 hb
    exact absurd hfolds.foldable.isConv (not_isConv_of_isNorm hop)

/-- A node that neither starts nor ends a pair stays. -/
theorem kept_of_not_folds (hg : g.Valid) (hn : n ∈ g.nodes) (hfirst : ∀ m, ¬ g.Folds n m)
    (hsecond : ∀ c, ¬ g.Folds c n) : .kept n ∈ blocks g g.nodes := by
  refine (kept_mem_iff hg).2 ⟨hn, fun c m hfolds => ⟨?_, ?_⟩⟩
  · rintro rfl
    exact hfirst m hfolds
  · rintro rfl
    exact hsecond c hfolds

/-- A value that is not between two folded nodes has as many readers as before. -/
theorem numReaders_after {bs : List (Block α)} {value : String}
    (h : ∀ c m, .folded c m ∈ bs → m.input ≠ value) :
    numReaders (bs.map Block.after) value = numReaders (bs.flatMap Block.before) value := by
  induction bs with
  | nil => rfl
  | cons b bs ih =>
    have hrest := ih fun c m hmem => h c m (List.mem_cons_of_mem _ hmem)
    unfold numReaders at hrest ⊢
    rw [List.map_cons, List.countP_cons, hrest, List.flatMap_cons, List.countP_append, Nat.add_comm]
    congr 1
    cases b with
    | kept n => simp [Block.before, Block.after, List.countP_cons]
    | folded c m =>
      have hm : m.input ≠ value := h c m List.mem_cons_self
      simp [Block.before, Block.after, foldedNode, List.countP_cons, hm]

section After

variable [Scalar α] {count : Nat} (hg : g.Valid) (h : g.foldBatchNorms = .ok (g', count))

include h in
theorem nodes_of_foldBatchNorms : g'.nodes = (blocks g g.nodes).map Block.after := by
  obtain ⟨f, hf, rfl, -, -⟩ := foldBatchNorms_eq_ok.1 h
  exact (foldNodes_eq_ok hf).1

include hg h

/-- Folding changes neither the readers of a value that it leaves nor the output. -/
theorem private_after_iff {node : Node α} (hn : n ∈ g.nodes) (hfree : ∀ m, ¬ g.Folds n m)
    (hnode : node.output = n.output) : Private g' node m ↔ Private g n m := by
  have hreaders : numReaders g'.nodes node.output = numReaders g.nodes n.output := by
    rw [nodes_of_foldBatchNorms h, hnode, numReaders_after, flatMap_before]
    intro c m hfolded hread
    have hfolds : g.Folds c m := folded_mem_blocks.1 hfolded
    obtain rfl : c = n := hg.eq_of_output hfolds.foldable.mem_conv hn
      (hfolds.foldable.once.read.symm.trans hread)
    exact hfree m hfolds
  have hout : g'.output = g.output := by
    obtain ⟨f, -, rfl, -, -⟩ := foldBatchNorms_eq_ok.1 h
    rfl
  constructor
  · rintro ⟨houtput, hsingle, hread⟩
    exact ⟨hnode ▸ hout ▸ houtput, hreaders ▸ hsingle, hnode ▸ hread⟩
  · rintro ⟨houtput, hsingle, hread⟩
    exact ⟨hnode ▸ hout ▸ houtput, hreaders ▸ hsingle, hnode ▸ hread⟩

theorem private_kept_iff (hc : .kept c ∈ blocks g g.nodes) :
    Private g' c m ↔ Private g c m := by
  obtain ⟨hmem, huntouched⟩ := (kept_mem_iff hg).1 hc
  exact private_after_iff hg h hmem (fun n hfolds => (huntouched c n hfolds).1 rfl) rfl

/-- The value of a folded node is the one that the batch normalisation had. -/
theorem private_foldedNode_iff (hfolds : g.Folds c n) :
    Private g' (foldedNode c n) m ↔ Private g n m :=
  private_after_iff hg h hfolds.foldable.mem_norm
    (not_folds_of_isNorm hfolds.foldable.isNorm) rfl

/-- **The pairs after folding**, in terms of the nodes before. -/
theorem foldable_after_iff :
    g'.Foldable c m ↔ (g.Foldable c m ∧ ¬ [c, m] <:+: g.nodes) ∨
      ∃ conv norm, g.Folds conv norm ∧ c = foldedNode conv norm ∧ m ∈ g.nodes ∧
        (epsilonOf? m.op).isSome ∧ Private g norm m := by
  have hnodes := nodes_of_foldBatchNorms h
  constructor
  · rintro ⟨hc, hm, hsome⟩
    obtain ⟨hconv, hnorm, honce⟩ := foldable?_isSome.1 hsome
    obtain ⟨b, hb, rfl⟩ := List.mem_map.1 (hnodes ▸ hm)
    rw [eq_kept_of_isNorm hb hnorm] at hb
    have hmem := ((kept_mem_iff hg).1 hb).1
    rcases mem_map_after.1 (hnodes ▸ hc) with hkept | ⟨conv, norm, hfolds, rfl⟩
    · obtain ⟨hc, huntouched⟩ := (kept_mem_iff hg).1 hkept
      have hbefore := foldable?_isSome.2 ⟨hconv, hnorm, (private_kept_iff hg h hkept).1 honce⟩
      exact .inl ⟨⟨hc, hmem, hbefore⟩, fun hadjacent =>
        (huntouched c _ ⟨hadjacent, hbefore⟩).1 rfl⟩
    · exact .inr ⟨conv, norm, hfolds, rfl, hmem, hnorm,
        (private_foldedNode_iff hg h hfolds).1 honce⟩
  · rintro (⟨hpair, hapart⟩ | ⟨conv, norm, hfolds, rfl, hm, hnorm, honce⟩)
    · have hc : .kept c ∈ blocks g g.nodes := by
        refine kept_of_not_folds hg hpair.mem_conv (fun n hfolds => ?_)
          (not_folds_of_isConv hpair.isConv)
        obtain rfl := hpair.eq_right hfolds.foldable
        exact hapart hfolds.1
      have hm : .kept m ∈ blocks g g.nodes := by
        refine kept_of_not_folds hg hpair.mem_norm (not_folds_of_isNorm hpair.isNorm)
          fun n hfolds => ?_
        obtain rfl := hpair.eq_left hg hfolds.foldable
        exact hapart hfolds.1
      have honce := (private_kept_iff hg h hc).2 hpair.once
      exact ⟨hnodes ▸ mem_map_after.2 (.inl hc), hnodes ▸ mem_map_after.2 (.inl hm),
        foldable?_isSome.2 ⟨hpair.isConv, hpair.isNorm, honce⟩⟩
    · have hkept : .kept m ∈ blocks g g.nodes := by
        refine kept_of_not_folds hg hm (not_folds_of_isNorm hnorm) fun c hfolds' => ?_
        -- The node would read the value of a convolution and that of a batch normalisation.
        obtain rfl := hg.eq_of_output hfolds'.foldable.mem_conv hfolds.foldable.mem_norm
          (hfolds'.foldable.once.read.symm.trans honce.read)
        exact not_folds_of_isNorm hfolds.foldable.isNorm m hfolds'
      have honce := (private_foldedNode_iff hg h hfolds).2 honce
      exact ⟨hnodes ▸ mem_map_after.2 (.inr ⟨conv, norm, hfolds, rfl⟩),
        hnodes ▸ mem_map_after.2 (.inl hkept),
        foldable?_isSome.2 ⟨hfolds.foldable.isConv, hnorm, honce⟩⟩

end After

/-! ### Neighbours after folding -/

/-- A node that is no convolution starts no pair. -/
theorem blocks_cons_of_not_isConv (h : ¬ isConv n.op) :
    blocks g (n :: ns) = .kept n :: blocks g ns := by
  cases ns with
  | nil => rfl
  | cons next rest =>
    have hnone : foldable? g n next = none := by
      rw [← Option.not_isSome_iff_eq_none, foldable?_isSome]
      exact fun hsome => h hsome.1
    rw [blocks, hnone]

/-- Behind a pair the next batch normalisation stays. -/
theorem infix_blocks (h : [c, n, m] <:+: ns) (hpair : (foldable? g c n).isSome)
    (hm : ¬ isConv m.op) : [.folded c n, .kept m] <:+: blocks g ns := by
  fun_induction blocks g ns with
  | case1 => exact absurd h.length_le (by simp)
  | case2 last => exact absurd h.length_le (by simp)
  | case3 conv norm rest epsilon hfold ih =>
    rw [List.infix_cons_iff, List.infix_cons_iff] at h
    rcases h with h | h | h
    · simp only [List.cons_prefix_cons] at h
      obtain ⟨rfl, rfl, t, rfl⟩ := h
      rw [List.singleton_append, blocks_cons_of_not_isConv hm]
      exact ⟨[], blocks g t, rfl⟩
    · rw [List.cons_prefix_cons] at h
      exact absurd (h.1 ▸ hpair) (not_foldable_norm hfold n)
    · exact List.infix_cons (ih h)
  | case4 conv norm rest hfold ih =>
    rw [List.infix_cons_iff] at h
    rcases h with h | h
    · simp only [List.cons_prefix_cons] at h
      obtain ⟨rfl, rfl, -⟩ := h
      rw [hfold] at hpair
      cases hpair
    · exact List.infix_cons (ih h)

section Next

variable [Scalar α] {count : Nat}

/-- **The pairs that the next pass folds** are those of a folded convolution and the next batch
normalisation in a row. -/
theorem folds_after_iff (hg : g.Valid) (h : g.foldBatchNorms = .ok (g', count)) :
    g'.Folds c m ↔ ∃ conv norm, g.Row conv norm m ∧ c = foldedNode conv norm := by
  have hnodes := nodes_of_foldBatchNorms h
  constructor
  · rintro ⟨hadjacent, hsome⟩
    obtain ⟨hconv, hnorm, honce⟩ := foldable?_isSome.1 hsome
    rw [hnodes, List.infix_map_iff] at hadjacent
    obtain ⟨bs, hbs, heq⟩ := hadjacent
    obtain ⟨b, bs, rfl, rfl, hrest⟩ := List.map_eq_cons_iff.1 heq.symm
    obtain ⟨b', rfl, rfl⟩ := List.map_eq_singleton_iff.1 hrest
    have hjoin := hbs.flatMap Block.before
    rw [flatMap_before, eq_kept_of_isNorm (hbs.subset (by simp)) hnorm] at hjoin
    have hb : b ∈ blocks g g.nodes := hbs.subset List.mem_cons_self
    cases b with
    | kept c =>
      -- The first pass would have folded these neighbours.
      have hbefore := foldable?_isSome.2 ⟨hconv, hnorm, (private_kept_iff hg h hb).1 honce⟩
      exact absurd rfl (((kept_mem_iff hg).1 hb).2 c _ ⟨hjoin, hbefore⟩).1
    | folded conv norm =>
      have hfolds : g.Folds conv norm := folded_mem_blocks.1 hb
      exact ⟨conv, norm, ⟨hjoin, hfolds.2, hnorm, (private_foldedNode_iff hg h hfolds).1 honce⟩,
        rfl⟩
  · rintro ⟨conv, norm, hrow, rfl⟩
    have hfolds : g.Folds conv norm :=
      ⟨(List.prefix_append [conv, norm] [m]).isInfix.trans hrow.adjacent, hrow.isSome⟩
    have honce := (private_foldedNode_iff hg h hfolds).2 hrow.once
    have hbs := infix_blocks hrow.adjacent hrow.isSome (not_isConv_of_isNorm hrow.isNorm)
    exact ⟨hnodes ▸ hbs.map Block.after,
      foldable?_isSome.2 ⟨hfolds.foldable.isConv, hrow.isNorm, honce⟩⟩

/-! ### The next pass -/

theorem foldNodes_of_not_foldable {params : Table (Tensor α)}
    (h : ∀ c m, [c, m] <:+: ns → ¬ (foldable? g c m).isSome) :
    foldNodes g params ns = .ok ⟨ns, params, 0⟩ := by
  fun_induction foldNodes g params ns with
  | case1 params => rfl
  | case2 params last => rfl
  | case3 params conv norm rest epsilon hfold =>
    exact absurd (hfold ▸ rfl) (h conv norm (List.prefix_append [conv, norm] rest).isInfix)
  | case4 params conv norm rest hfold ih =>
    rw [ih fun c m hmem => h c m (List.infix_cons hmem)]
    rfl

omit [Scalar α] in
theorem usedParams_usedParams (ns : List (Node α)) (params : Table (Tensor α)) :
    usedParams ns (usedParams ns params) = usedParams ns params := by
  refine Table.ext_find? fun name => ?_
  rw [usedParams, Table.find?_filter, usedParams, Table.find?_filter, Option.filter_filter]
  simp

/-- Folding once more does nothing if there is nothing left to fold. -/
theorem foldBatchNorms_again_iff (h : g.foldBatchNorms = .ok (g', count)) :
    g'.foldBatchNorms = .ok (g', 0) ↔ ∀ c m, ¬ g'.Folds c m := by
  constructor
  · intro hagain c m hfolds
    obtain ⟨f, hf, -, -, hzero⟩ := foldBatchNorms_eq_ok.1 hagain
    have hcount := (foldNodes_eq_ok hf).2.1
    rw [hzero, eq_comm, List.countP_eq_zero] at hcount
    exact hcount _ (folded_mem_blocks.2 hfolds) rfl
  · intro hnone
    obtain ⟨f, -, rfl, hvalid, -⟩ := foldBatchNorms_eq_ok.1 h
    refine foldBatchNorms_eq_ok.2 ⟨_, foldNodes_of_not_foldable fun c m hadjacent hsome =>
      hnone c m ⟨hadjacent, hsome⟩, ?_, hvalid, rfl⟩
    simp only [usedParams_usedParams]

/-- **What folding leaves over.** A pair that is there after folding had other nodes in between, or
its convolution was just made. A second pass does nothing exactly if no convolution was followed by
two batch normalisations. -/
theorem foldBatchNorms_remaining (hg : g.Valid) (h : g.foldBatchNorms = .ok (g', count)) :
    (∀ c m, g'.Foldable c m ↔ (g.Foldable c m ∧ ¬ [c, m] <:+: g.nodes) ∨
      ∃ conv norm, g.Folds conv norm ∧ c = foldedNode conv norm ∧ m ∈ g.nodes ∧
        (epsilonOf? m.op).isSome ∧ Private g norm m) ∧
    (g'.foldBatchNorms = .ok (g', 0) ↔ ∀ conv norm next, ¬ g.Row conv norm next) := by
  refine ⟨fun c m => foldable_after_iff hg h, ?_⟩
  rw [foldBatchNorms_again_iff h]
  simp only [folds_after_iff hg h]
  constructor
  · intro hnone conv norm next hrow
    exact hnone _ next ⟨conv, norm, hrow, rfl⟩
  · rintro hnone _ next ⟨conv, norm, hrow, rfl⟩
    exact hnone conv norm next hrow

/-- Folding the graph of the reused name leaves no pair. -/
theorem foldBatchNorms_remaining_reused :
    ∃ g', reused.foldBatchNorms = .ok (g', 1) ∧ g'.foldBatchNorms = .ok (g', 0) := by
  obtain ⟨g', hfold, -⟩ := exists_foldBatchNorms_reused
  refine ⟨g', hfold, (foldBatchNorms_remaining (by decide) hfold).2.2 ?_⟩
  rintro conv norm next ⟨hadjacent, -, hnorm, -⟩
  have hall : [conv, norm, next] = reused.nodes := hadjacent.eq_of_length rfl
  simp only [reused, List.cons.injEq] at hall
  obtain ⟨-, -, rfl, -⟩ := hall
  cases hnorm

end Next

/-! #### Pairs of both kinds -/

/-- One convolution is followed by two batch normalisations, the other by that of its value only
after them. -/
def leftover : Graph Binary32 where
  name := "leftover"
  input := .fixed "x" ⟨[1, 1, 1, 1]⟩
  output := .fixed "y" ⟨[1, 1, 1, 1]⟩
  nodes :=
    [scaling "far" "x" "d" ["weight"], scaling "near" "x" "a" ["weight"],
      normalizing "first" "a" "b", normalizing "second" "b" "c", normalizing "third" "d" "y"]
  params := .ofList
    [("one", ⟨⟨[1]⟩, #[1]⟩), ("weight", ⟨⟨[1, 1, 1, 1]⟩, #[1]⟩), ("zero", ⟨⟨[1]⟩, #[0]⟩)]

theorem foldable_leftover :
    leftover.Foldable (scaling "far" "x" "d" ["weight"]) (normalizing "third" "d" "y") :=
  ⟨by simp [leftover], by simp [leftover], by decide⟩

theorem row_leftover :
    leftover.Row (scaling "near" "x" "a" ["weight"]) (normalizing "first" "a" "b")
      (normalizing "second" "b" "c") where
  adjacent := ⟨[_], [_], rfl⟩
  isSome := by decide
  isNorm := rfl
  once := ⟨by decide, by decide, rfl⟩

/-- A pass may leave pairs over, and another pass may find more of them. -/
theorem not_forall_folded :
    (¬ ∀ (g g' : Graph Binary32) (count : Nat), g.Valid → g.foldBatchNorms = .ok (g', count) →
      ∀ c m, ¬ g'.Foldable c m) ∧
    ¬ ∀ (g g' : Graph Binary32) (count : Nat), g.Valid → g.foldBatchNorms = .ok (g', count) →
      g'.foldBatchNorms = .ok (g', 0) := by
  have hvalid : leftover.Valid := by decide
  obtain ⟨g', hfold⟩ : ∃ g', leftover.foldBatchNorms = .ok (g', 1) := ⟨_, rfl⟩
  constructor
  · intro h
    have hapart : ¬ [scaling "far" "x" "d" ["weight"], normalizing "third" "d" "y"] <:+:
        leftover.nodes := by
      simp [leftover, scaling, normalizing, List.infix_cons_iff]
    exact h leftover g' 1 hvalid hfold _ _
      ((foldable_after_iff hvalid hfold).2 (.inl ⟨foldable_leftover, hapart⟩))
  · intro h
    have hnone := (foldBatchNorms_again_iff hfold).1 (h leftover g' 1 hvalid hfold)
    exact hnone _ _ ((folds_after_iff hvalid hfold).2 ⟨_, _, row_leftover, rfl⟩)

end Graph

end NetPack
