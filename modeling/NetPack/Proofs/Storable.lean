import NetPack.Proofs.Compiling
import NetPack.Proofs.Json.Headers
import NetPack.Proofs.Operations

/-!
# Graphs that files can hold

The format of files asks of a graph that its counts and extents are words, that its parameters are
well-formed and that none of them has the name that the header keeps for itself. Most of that is in
`Graph.Storable`, which speaks of the input, the hyper-parameters and the parameters; the extents in
between are inferred from those, and what is inferred from words is words
(`Op.inferShape_words`, `Graph.Storable.counts`).

Folding batch normalisations keeps a graph storable (`Graph.Storable.foldBatchNorms`): a folded node
keeps the hyper-parameters of its convolution, a folded weight its shape, and a folded bias has one
element for every channel.
-/

namespace NetPack

/-! ### Inferred extents -/

theorem Window.FitsOn.lt {w : Window} {extent positions : Nat} (h : w.FitsOn extent positions) :
    positions < Word.modulus := by
  obtain ⟨m, -, -, h⟩ := h
  exact Word.eq_wrap_of_settle h ▸ Word.wrap_lt _

/-- **What is inferred from words is words.** -/
theorem Op.inferShape_words {α : Type} {op : Op α} {input out : Shape} {shapes : List Shape}
    (hinput : ∀ d ∈ input.dims, d < Word.modulus)
    (hshapes : ∀ s ∈ shapes, ∀ d ∈ s.dims, d < Word.modulus)
    (h : op.inferShape input shapes = .ok out) : ∀ d ∈ out.dims, d < Word.modulus := by
  cases op with
  | conv p =>
    obtain ⟨d, hd, rfl, rfl, bias, rfl, -⟩ := inferShape_conv.1 h
    have hn : d.n < Word.modulus := hinput d.n (by simp [ConvDims.input])
    have ho : d.o < Word.modulus :=
      hshapes d.weight List.mem_cons_self d.o (by simp [ConvDims.weight])
    simpa [ConvDims.output] using ⟨hn, ho, hd.rows.lt, hd.cols.lt⟩
  | linear =>
    obtain ⟨n, k, o, bias, rfl, rfl, rfl, -⟩ := inferShape_linear.1 h
    have hn : n < Word.modulus := hinput n (by simp [Shape.matrix])
    have ho : o < Word.modulus := hshapes _ List.mem_cons_self o (by simp [Shape.matrix])
    simpa [Shape.matrix] using ⟨hn, ho⟩
  | batchNorm epsilon =>
    obtain ⟨_, _, _, -, rfl, -⟩ := inferShape_batchNorm.1 h
    exact hinput
  | activation kind => exact (inferShape_activation.1 h).2 ▸ hinput
  | softmax => exact (inferShape_softmax.1 h).2.2 ▸ hinput
  | maxPool p =>
    obtain ⟨-, d, hd, rfl, rfl⟩ := inferShape_maxPool.1 h
    have hn : d.n < Word.modulus := hinput d.n (by simp [PoolDims.input])
    have hc : d.c < Word.modulus := hinput d.c (by simp [PoolDims.input])
    simpa [PoolDims.output] using ⟨hn, hc, hd.rows.lt, hd.cols.lt⟩
  | globalAvgPool =>
    obtain ⟨-, n, c, _, _, rfl, rfl⟩ := inferShape_globalAvgPool.1 h
    have hone : 1 < Word.modulus := by decide
    simpa using ⟨hinput n (by simp), hinput c (by simp), hone⟩
  | flatten =>
    obtain ⟨-, n, rest, count, rfl, hcount, rfl⟩ := inferShape_flatten.1 h
    have hrest : count < Word.modulus := Shape.lt_of_numElements (s := ⟨rest⟩) hcount
    simpa [Shape.matrix] using ⟨hinput n (by simp), hrest⟩

/-! ### Storable graphs -/

/-- A parameter that a file can hold under its name. -/
structure Container.Storable {α : Type} (name : String) (t : Tensor α) : Prop where
  unreserved : name ≠ "__metadata__"
  wellFormed : t.WellFormed
  extents : ∀ d ∈ t.shape.dims, d < Word.modulus

/-- What ends in another letter than the reserved name is not reserved. -/
theorem Container.append_ne_reserved {suffix : String} {c : Char} (name : String)
    (h : suffix.toList.getLast? = some c) (hc : c ≠ '_') : name ++ suffix ≠ "__metadata__" := by
  intro heq
  have hlast := congrArg (fun s : String => s.toList.getLast?) heq
  simp only [String.toList_append, List.getLast?_append, h, Option.some_or] at hlast
  exact hc (Option.some.inj hlast)

namespace Graph

variable {α : Type}

/-- All numbers that the other ones depend on are words, and a file can hold the parameters. -/
structure Storable (g : Graph α) : Prop where
  input : ∀ n ∈ g.input.counts, n < Word.modulus
  outputAxes : ∀ n ∈ g.output.dynamicAxes, n < Word.modulus
  ops : ∀ n ∈ g.nodes, ∀ k ∈ n.op.counts, k < Word.modulus
  params : ∀ name t, g.params.find? name = some t → Container.Storable name t

variable {g : Graph α}

theorem storable_of_counts (h : ∀ n ∈ g.toTopology.counts, n < Word.modulus)
    (hparams : ∀ name t, g.params.find? name = some t → Container.Storable name t) :
    g.Storable := by
  simp only [Topology.counts, List.forall_mem_append, List.forall_mem_flatMap] at h
  obtain ⟨⟨hinput, houtput⟩, hnodes⟩ := h
  exact ⟨hinput, fun n hn => houtput n (List.mem_append_right _ hn),
    fun n hn k hk => hnodes n hn k (List.mem_append_left _ hk), hparams⟩

theorem AllFit.outputShape_words {params : Table (Tensor α)} {ns : List (Node α)} {s : Scope}
    (hparams : ∀ name t, params.find? name = some t → ∀ d ∈ t.shape.dims, d < Word.modulus)
    (hs : ∀ v ∈ s.values, ∀ d ∈ v.2.dims, d < Word.modulus) (h : AllFit params s ns) :
    (∀ n ∈ ns, ∀ d ∈ n.outputShape.dims, d < Word.modulus) ∧
      ∀ v ∈ (ns.foldl Scope.extend s).values, ∀ d ∈ v.2.dims, d < Word.modulus := by
  -- Along the nodes all values in scope have extents that are words.
  induction ns generalizing s with
  | nil => exact ⟨by simp, hs⟩
  | cons n ns ih =>
    obtain ⟨hfit, hrest⟩ := h
    obtain ⟨input, hinput, hinfer⟩ := hfit.inferred
    have hn : ∀ d ∈ n.outputShape.dims, d < Word.modulus := by
      refine Op.inferShape_words (hs _ (Table.mem_of_lookup hinput)) ?_ hinfer
      rw [List.forall_mem_map]
      exact forall_mem_paramTensors hparams
    obtain ⟨hns, hfinal⟩ := ih (List.forall_mem_cons.2 ⟨hn, hs⟩) hrest
    exact ⟨List.forall_mem_cons.2 ⟨hn, hns⟩, hfinal⟩

/-- **All counts of a valid storable graph are words.** -/
theorem Storable.counts (h : g.Storable) (hg : g.Valid) :
    ∀ n ∈ g.toTopology.counts, n < Word.modulus := by
  obtain ⟨-, -, -, hfit, hout⟩ := valid_iff.1 hg
  have hinput : ∀ d ∈ g.input.shape.dims, d < Word.modulus :=
    fun d hd => h.input d (List.mem_append_left _ hd)
  obtain ⟨hnodes, hfinal⟩ := hfit.outputShape_words (fun name t ht => (h.params name t ht).extents)
    (List.forall_mem_singleton.2 hinput)
  have houtput := hfinal _ (Table.mem_of_lookup hout)
  simp only [Topology.counts, List.forall_mem_append, List.forall_mem_flatMap, ValueInfo.counts,
    Node.counts]
  exact ⟨⟨⟨hinput, fun d hd => h.input d (List.mem_append_right _ hd)⟩, houtput, h.outputAxes⟩,
    fun n hn => ⟨h.ops n hn, hnodes n hn⟩⟩

/-! ### Folding -/

variable [Scalar α] {params : Table (Tensor α)} {conv norm : Node α} {epsilon : α}
  {weight bias : Tensor α}

theorem FoldsTo.storable (h : FoldsTo epsilon params conv norm weight bias)
    (hparams : ∀ name t, params.find? name = some t → Container.Storable name t) :
    ∀ name t, (foldedParams params conv weight bias).find? name = some t →
      Container.Storable name t := by
  obtain ⟨old, _, _, _, _, _, folded, hold, -, -, -, -, -, -, rfl, hbias⟩ := h
  obtain ⟨oldName, -, hfind⟩ := Option.bind_eq_some_iff.1 hold
  have hstored := hparams oldName old hfind
  obtain ⟨rfl, hwell⟩ := Tensor.ofArray_eq_ok_iff.1 hbias
  intro name t ht
  rw [foldedParams, Table.find?_insert, Table.find?_insert] at ht
  by_cases hname : name = foldedBias conv
  · rw [if_pos hname] at ht
    obtain rfl := Option.some.inj ht
    refine ⟨hname ▸ Container.append_ne_reserved _ (c := 's') rfl (by decide), hwell, ?_⟩
    refine List.forall_mem_singleton.2 ?_
    cases hdim : old.shape.dim? 0 with
    | none => decide
    | some d => exact hstored.extents d (List.mem_of_getElem? hdim)
  · rw [if_neg hname] at ht
    by_cases hname' : name = foldedWeight conv
    · rw [if_pos hname'] at ht
      obtain rfl := Option.some.inj ht
      refine ⟨hname' ▸ Container.append_ne_reserved _ (c := 't') rfl (by decide), ?_,
        hstored.extents⟩
      rw [Tensor.WellFormed, scaleChannels, Array.size_mapIdx]
      exact hstored.wellFormed
    · rw [if_neg hname'] at ht
      exact hparams name t ht

theorem storable_foldNodes {ns : List (Node α)} {f : Folded α}
    (hparams : ∀ name t, params.find? name = some t → Container.Storable name t)
    (hops : ∀ n ∈ ns, ∀ k ∈ n.op.counts, k < Word.modulus)
    (h : foldNodes g params ns = .ok f) :
    (∀ n ∈ f.nodes, ∀ k ∈ n.op.counts, k < Word.modulus) ∧
      ∀ name t, f.params.find? name = some t → Container.Storable name t := by
  fun_induction foldNodes g params ns generalizing f with
  | case1 params =>
    obtain rfl := Outcome.pure_eq_ok_iff.1 h
    exact ⟨by simp, hparams⟩
  | case2 params last =>
    obtain rfl := Outcome.pure_eq_ok_iff.1 h
    exact ⟨hops, hparams⟩
  | case3 params conv norm rest epsilon hfold ih =>
    simp only [List.forall_mem_cons] at hops
    obtain ⟨⟨node, params'⟩, hpair, h⟩ := Outcome.bind_eq_ok.1 h
    obtain ⟨f', hrest, h⟩ := Outcome.bind_eq_ok.1 h
    obtain rfl := Outcome.pure_eq_ok_iff.1 h
    obtain ⟨weight, bias, hto, rfl, rfl⟩ := foldPair_eq_ok.1 hpair
    obtain ⟨hnodes, hfinal⟩ := ih _ (hto.storable hparams) hops.2.2 hrest
    exact ⟨List.forall_mem_cons.2 ⟨hops.1, hnodes⟩, hfinal⟩
  | case4 params conv norm rest hfold ih =>
    rw [List.forall_mem_cons] at hops
    obtain ⟨f', hrest, h⟩ := Outcome.bind_eq_ok.1 h
    obtain rfl := Outcome.pure_eq_ok_iff.1 h
    obtain ⟨hnodes, hfinal⟩ := ih hparams hops.2 hrest
    exact ⟨List.forall_mem_cons.2 ⟨hops.1, hnodes⟩, hfinal⟩

/-- **Folding keeps a graph storable**, and it gives a valid one. -/
theorem Storable.foldBatchNorms {g' : Graph α} {count : Nat} (hg : g.Storable)
    (h : g.foldBatchNorms = .ok (g', count)) :
    g'.Storable ∧ g'.Valid ∧ g'.input = g.input := by
  obtain ⟨f, hfold, rfl, hvalid, -⟩ := foldBatchNorms_eq_ok.1 h
  obtain ⟨hops, hparams⟩ := storable_foldNodes hg.params hg.ops hfold
  refine ⟨⟨hg.input, hg.outputAxes, hops, fun name t ht => ?_⟩, hvalid, rfl⟩
  rw [usedParams, Table.find?_filter] at ht
  exact hparams name t (Option.filter_eq_some_iff.1 ht).1

end Graph

/-! ### Compiled artifacts -/

namespace Artifact

/-- The graph is valid and can be stored, and it is fed as it is declared. -/
structure Storable (a : Artifact) : Prop where
  valid : a.graph.Valid
  graph : a.graph.Storable
  input : a.input.shape = a.graph.input.shape

theorem annotate_eq_ok {a a' : Artifact} {m : Metadata} :
    a.annotate m = .ok a' ↔ Text.allBlank a.name = false ∧ a.graph.nodes.isEmpty = false ∧
      a' = { a with metadata := some (m.describe a.name) } := by
  simp only [annotate, Outcome.throw_eq_error, Outcome.error_bind]
  rw [Outcome.ite_eq_ok (by simp), Outcome.ite_eq_ok (by simp), Outcome.pure_eq_ok_iff,
    Bool.not_eq_true, Bool.not_eq_true]
  exact and_congr_right fun _ => and_congr_right fun _ => eq_comm

theorem storable_of_compile {g : Graph Binary32} {input : InputSpec} {options : CompileOptions}
    {labels : Option Labels} {a : Artifact} (hg : g.Storable)
    (h : compile g input options labels = .ok a) : a.Storable := by
  obtain ⟨hmeets, ⟨graph, count⟩, hfold, rfl⟩ := compile_eq_ok.1 h
  obtain ⟨hstorable, hvalid, hsame⟩ := hg.foldBatchNorms hfold
  exact ⟨hvalid, hstorable, hmeets.input.trans (congrArg (·.shape) hsame.symm)⟩

theorem Storable.annotate {a a' : Artifact} {m : Metadata} (ha : a.Storable)
    (h : a.annotate m = .ok a') : a'.Storable := by
  obtain ⟨-, -, rfl⟩ := annotate_eq_ok.1 h
  exact ⟨ha.valid, ha.graph, ha.input⟩

/-- All counts in the header of a storable artifact are words. -/
theorem Storable.counts {a : Artifact} (ha : a.Storable) : ∀ n ∈ a.counts, n < Word.modulus := by
  have hgraph := ha.graph.counts ha.valid
  rw [Artifact.counts, List.forall_mem_append, ha.input]
  exact ⟨hgraph, fun d hd => ha.graph.input d (List.mem_append_left _ hd)⟩

end Artifact

end NetPack
