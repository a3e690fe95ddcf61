import Mathlib.Data.List.Nodup
import Mathlib.Data.List.Pairwise
import NetPack.Convert.Fold
import NetPack.Proofs.Outcomes
import NetPack.Proofs.Tables
import NetPack.Proofs.Validity

/-!
# What folding does with the nodes

The pass that folds batch normalisations reads the nodes from left to right and takes one node or
two at a time. `Graph.blocks` cuts the nodes in the same way without looking at a parameter: a
`Block` is a node that is kept or a pair that becomes one node. The blocks join to the nodes of the
graph (`Graph.flatMap_before`), and the pairs are the neighbours that can be folded
(`Graph.folded_mem_blocks`): the cut never has to choose, because a batch normalisation is not a
convolution.

A pass that succeeds leaves one node for every block, and it touches the parameters only under the
names of what it has folded (`Graph.foldNodes_eq_ok`, `Graph.foldBatchNorms_eq_ok`).
-/

namespace NetPack

namespace Graph

variable {α : Type} {g g' : Graph α} {conv norm node : Node α} {ns : List (Node α)}

/-! ### Pairs -/

/-- The value of a convolution is read by the next node only. -/
structure Private (g : Graph α) (conv norm : Node α) : Prop where
  not_output : conv.output ≠ g.output.name
  single : numReaders g.nodes conv.output = 1
  read : norm.input = conv.output

theorem foldable?_eq_some {epsilon : α} :
    foldable? g conv norm = some epsilon ↔
      (∃ p, conv.op = .conv p) ∧ conv.output ≠ g.output.name ∧
        numReaders g.nodes conv.output = 1 ∧ norm.input = conv.output ∧
          norm.op = .batchNorm epsilon := by
  have hconv : isConv conv.op = true ↔ ∃ p, conv.op = .conv p := by
    cases conv.op <;> simp [isConv]
  have hnorm : epsilonOf? norm.op = some epsilon ↔ norm.op = .batchNorm epsilon := by
    cases norm.op <;> simp [epsilonOf?]
  rw [foldable?, Option.ite_none_right_eq_some, hnorm]
  simp only [Bool.and_eq_true, bne_iff_ne, beq_iff_eq, hconv, and_assoc]

theorem foldable?_isSome :
    (foldable? g conv norm).isSome ↔
      isConv conv.op ∧ (epsilonOf? norm.op).isSome ∧ Private g conv norm := by
  have hprivate : Private g conv norm ↔ conv.output ≠ g.output.name ∧
      numReaders g.nodes conv.output = 1 ∧ norm.input = conv.output :=
    ⟨fun h => ⟨h.not_output, h.single, h.read⟩, fun h => ⟨h.1, h.2.1, h.2.2⟩⟩
  have hguard : ∀ (b : Bool) (o : Option α), (if b then o else none).isSome ↔ b ∧ o.isSome := by
    intro b o
    cases b <;> simp
  rw [foldable?, hguard, hprivate]
  simp only [Bool.and_eq_true, bne_iff_ne, beq_iff_eq, and_assoc]
  tauto

/-- The node that takes the place of two folded nodes. -/
def foldedNode (conv norm : Node α) : Node α :=
  { conv with
    params := [foldedWeight conv, foldedBias conv]
    output := norm.output
    outputShape := norm.outputShape }

/-- No node of a valid graph occurs twice. -/
theorem Valid.nodup_nodes [Build] (hg : g.Valid) : g.nodes.Nodup := by
  obtain ⟨-, -, -, hfit, -⟩ := valid_iff.1 hg
  exact hfit.nodup.of_map _

/-! ### Blocks -/

/-- What the pass takes at a time. -/
inductive Block (α : Type) where
  /-- A node that stays. -/
  | kept (n : Node α)
  /-- A convolution and a batch normalisation that become one node. -/
  | folded (conv norm : Node α)

namespace Block

/-- The nodes of a block. -/
def before : Block α → List (Node α)
  | kept n => [n]
  | folded conv norm => [conv, norm]

/-- The node that a block becomes. -/
def after : Block α → Node α
  | kept n => n
  | folded conv norm => foldedNode conv norm

/-- Does the block become another node? -/
def isFolded : Block α → Bool
  | kept _ => false
  | folded _ _ => true

end Block

/-- The blocks of a list of nodes, in the order of the pass. -/
def blocks (g : Graph α) : List (Node α) → List (Block α)
  | [] => []
  | [last] => [.kept last]
  | conv :: norm :: rest =>
    match foldable? g conv norm with
    | some _ => .folded conv norm :: blocks g rest
    | none => .kept conv :: blocks g (norm :: rest)

/-- **The blocks join to the nodes.** -/
theorem flatMap_before (g : Graph α) (ns : List (Node α)) :
    (blocks g ns).flatMap Block.before = ns := by
  fun_induction blocks g ns with
  | case1 => rfl
  | case2 last => rfl
  | case3 conv norm rest _ _ ih => rw [List.flatMap_cons, ih]; rfl
  | case4 conv norm rest _ ih => rw [List.flatMap_cons, ih]; rfl

/-- What can be folded into a convolution is none. -/
theorem not_foldable_norm {epsilon : α} (h : foldable? g conv norm = some epsilon)
    (next : Node α) : ¬ (foldable? g norm next).isSome := by
  obtain ⟨-, -, -, -, hop⟩ := foldable?_eq_some.1 h
  intro hnext
  have hconv := (foldable?_isSome.1 hnext).1
  rw [hop] at hconv
  cases hconv

/-- **The pairs are the neighbours that can be folded.** -/
theorem folded_mem_blocks :
    .folded conv norm ∈ blocks g ns ↔
      [conv, norm] <:+: ns ∧ (foldable? g conv norm).isSome := by
  fun_induction blocks g ns with
  | case1 => simp
  | case2 last =>
    simp only [List.mem_singleton, reduceCtorEq, false_iff, not_and]
    intro h
    have := h.length_le
    simp at this
  | case3 c m rest epsilon hfold ih =>
    rw [List.mem_cons, ih, List.infix_cons_iff, List.infix_cons_iff]
    simp only [List.cons_prefix_cons, List.nil_prefix, and_true, Block.folded.injEq]
    constructor
    · rintro (⟨rfl, rfl⟩ | ⟨h, hsome⟩)
      · exact ⟨.inl ⟨rfl, rfl⟩, hfold ▸ rfl⟩
      · exact ⟨.inr (.inr h), hsome⟩
    · rintro ⟨h | ⟨rfl, -⟩ | h, hsome⟩
      · exact .inl h
      · exact absurd hsome (not_foldable_norm hfold norm)
      · exact .inr ⟨h, hsome⟩
  | case4 c m rest hfold ih =>
    rw [List.mem_cons, ih, List.infix_cons_iff (a := c)]
    simp only [List.cons_prefix_cons, List.nil_prefix, and_true, reduceCtorEq, false_or]
    constructor
    · rintro ⟨h, hsome⟩
      exact ⟨.inr h, hsome⟩
    · rintro ⟨⟨rfl, rfl⟩ | h, hsome⟩
      · rw [hfold] at hsome
        cases hsome
      · exact ⟨h, hsome⟩

/-- The pass folds two nodes: they follow each other and can be folded. -/
def Folds (g : Graph α) (conv norm : Node α) : Prop :=
  [conv, norm] <:+: g.nodes ∧ (foldable? g conv norm).isSome

/-- If no node occurs twice, then no node of a pair stays. -/
theorem kept_mem_blocks {n : Node α} (hns : ns.Nodup) :
    .kept n ∈ blocks g ns ↔
      n ∈ ns ∧ ∀ c m, .folded c m ∈ blocks g ns → n ≠ c ∧ n ≠ m := by
  have hjoin := flatMap_before g ns
  constructor
  · intro hkept
    have hn : n ∈ ns := by
      rw [← hjoin]
      exact List.mem_flatMap.2 ⟨_, hkept, List.mem_singleton_self n⟩
    rw [← hjoin, List.nodup_flatMap] at hns
    refine ⟨hn, fun c m hfolded => ?_⟩
    -- Two blocks have no node in common.
    have hsymm : Std.Symm (Function.onFun List.Disjoint (@Block.before α)) :=
      ⟨fun _ _ h _ hb ha => h ha hb⟩
    have hdisjoint := hns.2.forall hkept hfolded (by simp) List.mem_cons_self
    simpa [Block.before] using hdisjoint
  · rintro ⟨hn, huntouched⟩
    rw [← hjoin] at hn
    obtain ⟨b, hb, hmem⟩ := List.mem_flatMap.1 hn
    cases b with
    | kept n' =>
      obtain rfl : n = n' := List.mem_singleton.1 hmem
      exact hb
    | folded c m =>
      obtain ⟨hc, hm⟩ := huntouched c m hb
      rcases List.mem_cons.1 hmem with h | h
      · exact absurd h hc
      · exact absurd (List.mem_singleton.1 h) hm

/-- The nodes that stay, in their order. -/
def keptNodes (bs : List (Block α)) : List (Node α) :=
  bs.filterMap fun
    | .kept n => some n
    | .folded _ _ => none

theorem mem_keptNodes {bs : List (Block α)} {n : Node α} : n ∈ keptNodes bs ↔ .kept n ∈ bs := by
  rw [keptNodes, List.mem_filterMap]
  constructor
  · rintro ⟨_ | _, hb, ⟨⟩⟩
    exact hb
  · intro h
    exact ⟨_, h, rfl⟩

theorem keptNodes_sublist_before (bs : List (Block α)) :
    (keptNodes bs).Sublist (bs.flatMap Block.before) := by
  induction bs with
  | nil => exact .slnil
  | cons b bs ih =>
    cases b with
    | kept n => exact ih.cons_cons n
    | folded c m => exact (ih.cons m).cons c

theorem keptNodes_sublist_after (bs : List (Block α)) :
    (keptNodes bs).Sublist (bs.map Block.after) := by
  induction bs with
  | nil => exact .slnil
  | cons b bs ih =>
    cases b with
    | kept n => exact ih.cons_cons n
    | folded c m => exact ih.cons _

/-- The pairs, in their order. -/
def foldedPairs (bs : List (Block α)) : List (Node α × Node α) :=
  bs.filterMap fun
    | .kept _ => none
    | .folded conv norm => some (conv, norm)

theorem mem_foldedPairs {bs : List (Block α)} :
    (conv, norm) ∈ foldedPairs bs ↔ .folded conv norm ∈ bs := by
  rw [foldedPairs, List.mem_filterMap]
  constructor
  · rintro ⟨_ | _, hb, ⟨⟩⟩
    exact hb
  · intro h
    exact ⟨_, h, rfl⟩

theorem length_foldedPairs (bs : List (Block α)) :
    (foldedPairs bs).length = bs.countP Block.isFolded := by
  induction bs with
  | nil => rfl
  | cons b bs ih =>
    cases b with
    | kept n => rw [List.countP_cons_of_neg (by simp [Block.isFolded]), ← ih]; rfl
    | folded c m => rw [List.countP_cons_of_pos rfl, ← ih]; rfl

/-- If no node occurs twice, then no pair does. -/
theorem nodup_foldedPairs (hns : ns.Nodup) : (foldedPairs (blocks g ns)).Nodup := by
  have hsub : ∀ bs : List (Block α),
      ((foldedPairs bs).map Prod.fst).Sublist (bs.flatMap Block.before) := by
    intro bs
    induction bs with
    | nil => exact .slnil
    | cons b bs ih =>
      cases b with
      | kept n => exact ih.cons n
      | folded c m => exact (ih.cons m).cons_cons c
  have hfirst := hsub (blocks g ns)
  rw [flatMap_before] at hfirst
  exact (hfirst.nodup hns).of_map _

/-- Every pair makes the list of nodes shorter by one. -/
theorem length_map_after (bs : List (Block α)) :
    (bs.map Block.after).length + bs.countP Block.isFolded = (bs.flatMap Block.before).length := by
  induction bs with
  | nil => rfl
  | cons b bs ih =>
    have hb : b.before.length = (if b.isFolded then 1 else 0) + 1 := by cases b <;> rfl
    rw [List.map_cons, List.length_cons, List.countP_cons, List.flatMap_cons, List.length_append,
      hb, ← ih]
    omega

/-! ### One fold -/

section Fold

variable {epsilon : α} {params params' : Table (Tensor α)} {weight bias : Tensor α}

/-- The parameters after a fold. -/
def foldedParams (params : Table (Tensor α)) (conv : Node α) (weight bias : Tensor α) :
    Table (Tensor α) :=
  (params.insert (foldedWeight conv) weight).insert (foldedBias conv) bias

/-- Only the names of a fold change. -/
theorem find?_foldedParams_of_ne {name : String} (hw : name ≠ foldedWeight conv)
    (hb : name ≠ foldedBias conv) :
    (foldedParams params conv weight bias).find? name = params.find? name := by
  rw [foldedParams, Table.find?_insert_of_ne hb, Table.find?_insert_of_ne hw]

variable [Scalar α]

/-- A fold computes this weight and this bias from the parameters of both nodes. -/
def FoldsTo [Build] (epsilon : α) (params : Table (Tensor α)) (conv norm : Node α)
    (weight bias : Tensor α) : Prop :=
  ∃ old gamma beta mean var count folded, paramAt? params conv 0 = some old ∧
    paramAt? params norm 0 = some gamma ∧ paramAt? params norm 1 = some beta ∧
    paramAt? params norm 2 = some mean ∧ paramAt? params norm 3 = some var ∧
    old.shape.numElements = some count ∧
    (List.range ((old.shape.dim? 0).getD 0)).mapM
      (foldChannel epsilon gamma beta mean var (paramAt? params conv 1)) = .ok folded ∧
    scaleChannels (folded.map (·.1)).toArray count old = weight ∧
    Tensor.ofArray (.vector ((old.shape.dim? 0).getD 0)) (folded.map (·.2)).toArray = .ok bias

theorem foldPair_eq_ok [Build] :
    foldPair epsilon params conv norm = .ok (node, params') ↔
      ∃ weight bias, FoldsTo epsilon params conv norm weight bias ∧
        node = foldedNode conv norm ∧ params' = foldedParams params conv weight bias := by
  constructor
  · intro h
    simp only [foldPair] at h
    split at h
    case h_2 => cases h
    rename_i old hold
    split at h
    case h_2 => cases h
    rename_i gamma hgamma
    split at h
    case h_2 => cases h
    rename_i beta hbeta
    split at h
    case h_2 => cases h
    rename_i mean hmean
    split at h
    case h_2 => cases h
    rename_i var hvar
    obtain ⟨count, hcount, h⟩ := Outcome.bind_eq_ok.1 h
    obtain ⟨folded, hfolded, h⟩ := Outcome.bind_eq_ok.1 h
    split at h
    · cases h
    · rename_i bias hbias
      rw [Outcome.pure_eq_ok_iff, Prod.mk.injEq] at h
      obtain ⟨rfl, rfl⟩ := h
      exact ⟨_, bias, ⟨old, gamma, beta, mean, var, count, folded, hold, hgamma, hbeta, hmean,
        hvar, Outcome.orCrash_eq_ok.1 hcount, hfolded, rfl, hbias⟩, rfl, rfl⟩
  · rintro ⟨weight, bias, ⟨old, gamma, beta, mean, var, count, folded, hold, hgamma, hbeta, hmean,
      hvar, hcount, hfolded, rfl, hbias⟩, rfl, rfl⟩
    simp only [foldPair, hold, hgamma, hbeta, hmean, hvar, hcount, Outcome.orCrash_some, hfolded,
      Outcome.ok_bind, hbias]
    rfl

/-! ### All nodes -/

/-- **What a pass that succeeds leaves.** -/
theorem foldNodes_eq_ok [Build] {f : Folded α} (h : foldNodes g params ns = .ok f) :
    f.nodes = (blocks g ns).map Block.after ∧ f.count = (blocks g ns).countP Block.isFolded ∧
      ∀ name, (∀ c m, .folded c m ∈ blocks g ns → name ≠ foldedWeight c ∧ name ≠ foldedBias c) →
        f.params.find? name = params.find? name := by
  fun_induction foldNodes g params ns generalizing f with
  | case1 params =>
    obtain rfl := Outcome.pure_eq_ok_iff.1 h
    exact ⟨rfl, rfl, fun _ _ => rfl⟩
  | case2 params last =>
    obtain rfl := Outcome.pure_eq_ok_iff.1 h
    exact ⟨rfl, rfl, fun _ _ => rfl⟩
  | case3 params conv norm rest epsilon hfold ih =>
    obtain ⟨⟨node, params'⟩, hpair, h⟩ := Outcome.bind_eq_ok.1 h
    obtain ⟨f', hrest, h⟩ := Outcome.bind_eq_ok.1 h
    obtain rfl := Outcome.pure_eq_ok_iff.1 h
    obtain ⟨weight, bias, -, rfl, rfl⟩ := foldPair_eq_ok.1 hpair
    obtain ⟨hnodes, hcount, hframe⟩ := ih _ hrest
    have hblocks : blocks g (conv :: norm :: rest) = .folded conv norm :: blocks g rest := by
      rw [blocks, hfold]
    rw [hblocks]
    refine ⟨congrArg (foldedNode conv norm :: ·) hnodes, ?_, fun name hname => ?_⟩
    · rw [List.countP_cons_of_pos rfl, hcount]
    · obtain ⟨hw, hb⟩ := hname conv norm List.mem_cons_self
      have hrest := hframe name fun c m hmem => hname c m (List.mem_cons_of_mem _ hmem)
      rw [hrest, find?_foldedParams_of_ne hw hb]
  | case4 params conv norm rest hfold ih =>
    obtain ⟨f', hrest, h⟩ := Outcome.bind_eq_ok.1 h
    obtain rfl := Outcome.pure_eq_ok_iff.1 h
    obtain ⟨hnodes, hcount, hframe⟩ := ih hrest
    have hblocks : blocks g (conv :: norm :: rest) = .kept conv :: blocks g (norm :: rest) := by
      rw [blocks, hfold]
    rw [hblocks]
    refine ⟨congrArg (conv :: ·) hnodes, ?_, fun name hname => ?_⟩
    · rw [List.countP_cons_of_neg (by simp [Block.isFolded]), hcount]
    · exact hframe name fun c m hmem => hname c m (List.mem_cons_of_mem _ hmem)

/-- The parameters that some node reads. -/
def usedParams (ns : List (Node α)) (params : Table (Tensor α)) : Table (Tensor α) :=
  params.filter fun name _ => ns.any fun n => n.params.contains name

omit [Scalar α] in
theorem find?_usedParams {n : Node α} {name : String} (hn : n ∈ ns) (hname : name ∈ n.params) :
    (usedParams ns params).find? name = params.find? name := by
  have hany : (ns.any fun n => n.params.contains name) = true :=
    List.any_eq_true.2 ⟨n, hn, by simpa using hname⟩
  rw [usedParams, Table.find?_filter]
  simp only [hany]
  cases params.find? name <;> rfl

omit [Scalar α] in
theorem exists_mem_of_usedParams {name : String}
    (h : ((usedParams ns params).find? name).isSome) : ∃ n ∈ ns, name ∈ n.params := by
  rw [usedParams, Table.find?_filter] at h
  obtain ⟨t, ht⟩ := Option.isSome_iff_exists.1 h
  obtain ⟨n, hn, hname⟩ := List.any_eq_true.1 (Option.filter_eq_some_iff.1 ht).2
  exact ⟨n, hn, by simpa using hname⟩

/-- **When folding a graph succeeds, and what it gives.** -/
theorem foldBatchNorms_eq_ok [Build] {count : Nat} :
    g.foldBatchNorms = .ok (g', count) ↔ ∃ f, foldNodes g g.params g.nodes = .ok f ∧
      g' = { g with nodes := f.nodes, params := usedParams f.nodes f.params } ∧ g'.Valid ∧
        f.count = count := by
  rw [foldBatchNorms, Outcome.bind_eq_ok]
  refine exists_congr fun f => and_congr_right fun _ => ?_
  constructor
  · intro h
    obtain ⟨folded, hvalidate, h⟩ := Outcome.bind_eq_ok.1 h
    obtain ⟨hvalid, rfl⟩ := validate_eq_ok.1 (Outcome.mapError_eq_ok.1 hvalidate)
    obtain ⟨rfl, rfl⟩ := Prod.mk.inj (Outcome.pure_eq_ok_iff.1 h)
    exact ⟨rfl, hvalid, rfl⟩
  · rintro ⟨rfl, hvalid, rfl⟩
    have hvalidate := Outcome.mapError_eq_ok (f := ConvertError.ofModel).2
      (validate_eq_ok.2 ⟨hvalid, rfl⟩)
    exact Outcome.bind_eq_ok.2 ⟨_, hvalidate, rfl⟩

end Fold

end Graph

end NetPack
