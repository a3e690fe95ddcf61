import NetPack.Proofs.Exchange.Lifted
import NetPack.Proofs.Exchange.RoundTrip
import NetPack.Proofs.Storable

/-!
# Graphs from exchange files can be stored

Everything that lifting takes for an extent or a count is small (`Exchange.lifted_of_toGraph`), so
it is a word (`Exchange.storable_of_toGraph`). The names of parameters are those of the file. A file
that was written from a storable graph gives none of them the name that containers keep for
themselves, and so what is read back from it can be stored (`Exchange.storable_of_validate`).

Writing forgets the sign of a zero, so the file of a graph is also that of the same graph without
negative zeros (`Exchange.encodeGraph_forgetSigns`), and that one is what the file says.
-/

namespace NetPack

/-! ### Signs of zeros -/

/-- The operation with the positive zero in place of the negative one. -/
def Op.forgetSign : Op Binary32 → Op Binary32
  | .batchNorm epsilon => .batchNorm (if epsilon.isZero then ⟨0⟩ else epsilon)
  | op => op

/-- The node with the positive zero in place of the negative one. -/
def Node.forgetSign (n : Node Binary32) : Node Binary32 := { n with op := n.op.forgetSign }

/-- The graph without negative zeros in its operations. -/
def Graph.forgetSigns (g : Graph Binary32) : Graph Binary32 :=
  { g with nodes := g.nodes.map Node.forgetSign }

namespace Exchange

theorem noNegativeZero_forgetSigns (g : NetPack.Graph Binary32) :
    NoNegativeZero g.forgetSigns := by
  refine List.forall_mem_map.2 fun n _ => ?_
  show n.op.forgetSign ≠ _
  cases n.op with
  | batchNorm epsilon =>
    simp only [Op.forgetSign, ne_eq, Op.batchNorm.injEq]
    split
    · decide
    · rename_i hzero
      rintro rfl
      exact hzero rfl
  | _ => simp [Op.forgetSign]

theorem boundsOf_forgetSign (n : Node Binary32) : boundsOf n.forgetSign = boundsOf n := by
  obtain ⟨name, op, input, params, output, outputShape⟩ := n
  cases op <;> rfl

theorem encode_ofNode_forgetSign (params : Table (Tensor Binary32)) (n : Node Binary32) :
    (Operator.ofNode params n.forgetSign).encode = (Operator.ofNode params n).encode := by
  obtain ⟨name, op, input, ps, output, outputShape⟩ := n
  cases op with
  | batchNorm epsilon =>
    by_cases hzero : epsilon.isZero = true
    · have hepsilon : (singleAttribute "epsilon" (if epsilon.isZero then ⟨0⟩ else epsilon)).encode =
          (singleAttribute "epsilon" epsilon).encode := by
        rw [if_pos hzero]
        simp only [Attribute.encode, singleAttribute, hzero]
        rfl
      simp only [Node.forgetSign, Op.forgetSign, Operator.encode, Operator.ofNode, operatorOf,
        List.flatMap_cons, List.flatMap_nil, hepsilon]
      rfl
    · simp only [Node.forgetSign, Op.forgetSign, if_neg hzero]
  | _ => rfl

/-- **The file of a graph does not know the signs of zeros.** -/
theorem encodeGraph_forgetSigns (g : NetPack.Graph Binary32) :
    encodeGraph g.forgetSigns = encodeGraph g := by
  have hoperators : (g.forgetSigns.nodes.map (Operator.ofNode g.params)).flatMap
      (fun o => Wire.bytesField 1 o.encode) =
      (g.nodes.map (Operator.ofNode g.params)).flatMap fun o => Wire.bytesField 1 o.encode := by
    simp only [NetPack.Graph.forgetSigns, List.map_map, List.flatMap_map, Function.comp_def,
      encode_ofNode_forgetSign]
  have hbounds : g.forgetSigns.nodes.flatMap boundsOf = g.nodes.flatMap boundsOf := by
    simp only [NetPack.Graph.forgetSigns, List.flatMap_map, boundsOf_forgetSign]
  have hparams : g.forgetSigns.params = g.params := rfl
  have hname : g.forgetSigns.name = g.name := rfl
  have hinput : g.forgetSigns.input = g.input := rfl
  have houtput : g.forgetSigns.output = g.output := rfl
  simp only [encodeGraph, Model.ofGraph, Model.encode, Graph.encode, hparams, hname, hinput,
    houtput, hoperators, hbounds]

/-! ### The whole graph -/

theorem lt_of_small {n : Nat} (hn : Small n) : n < Word.modulus := by
  rw [Small] at hn
  simp only [Word.modulus]
  omega

theorem words_of_small {op : Op Binary32} (hop : op.Small) : ∀ n ∈ op.counts, n < Word.modulus := by
  have haxes : ∀ a : Axes, a.Small → ∀ n ∈ a.toList, n < Word.modulus := fun a ha n hn =>
    lt_of_small (small_toList ha n hn)
  cases op with
  | conv p =>
    simp only [Op.counts, List.forall_mem_append, List.forall_mem_singleton]
    exact ⟨⟨haxes _ hop.1, haxes _ hop.2.1⟩, lt_of_small hop.2.2⟩
  | maxPool p =>
    simp only [Op.counts, List.forall_mem_append]
    exact ⟨⟨haxes _ hop.1, haxes _ hop.2.1⟩, haxes _ hop.2.2⟩
  | _ => simp [Op.counts]

/-- The extents and the dynamic axes of what can be declared are words. -/
theorem words_of_redeclared {v : ValueInfo} {batch : Nat} (hv : Redeclared v batch)
    (hbatch : batch < Word.modulus) : ∀ n ∈ v.counts, n < Word.modulus := by
  obtain ⟨-, first, rest, hshape, hrest, haxes⟩ :=
    exists_of_declaredShape (storable_ofInfo v).bounded hv
  rw [ValueInfo.counts, hshape, List.forall_mem_append, List.forall_mem_cons]
  have hrest : ∀ n ∈ rest, n < Word.modulus := fun n hn => lt_of_small (hrest n hn).2
  rcases haxes with ⟨haxes, -, hfirst⟩ | ⟨haxes, rfl⟩
  · exact ⟨⟨lt_of_small hfirst, hrest⟩, by simp [haxes]⟩
  · exact ⟨⟨hbatch, hrest⟩, by rw [haxes]; decide⟩

/-- **The graph of an exchange model can be stored**, if none of its constants has the reserved
name. -/
theorem storable_of_toGraph {m : Model} {batch : Nat} {g : NetPack.Graph Binary32}
    (hm : m.Bounded)
    (hnames : ∀ graph ∈ m.graph, ∀ t ∈ graph.initializers, t.name ≠ "__metadata__")
    (hbatch : batch < Word.modulus) (h : toGraph m batch = .ok g) : g.Storable := by
  have hg := lifted_of_toGraph hm h
  refine ⟨words_of_redeclared hg.input hbatch,
    fun n hn => words_of_redeclared hg.output hbatch n (List.mem_append_right _ hn),
    fun n hn => words_of_small (hg.nodes n hn).2, fun p t ht => ?_⟩
  obtain ⟨-, graph, hgraph, c, hc, rfl⟩ := hg.constants p t ht
  have ht := hg.writable c.name t ht
  exact ⟨hnames graph hgraph c hc, ht.wellFormed, fun d hd => lt_of_small (ht.small d hd)⟩

/-- **What is read back from the file of a storable graph can be stored.** -/
theorem storable_of_validate {g g' : NetPack.Graph Binary32} {batch : Nat} {report : Report}
    (hg : ∀ name t, g.params.find? name = some t → name ≠ "__metadata__")
    (hbatch : batch < Word.modulus) (hlen : (encodeGraph g).length < Word.modulus)
    (h : validate (encodeGraph g) batch = .ok (g', report)) : g'.Storable := by
  have hm : (Model.ofGraph g.forgetSigns).Storable :=
    storable_ofGraph (noNegativeZero_forgetSigns g)
  have hread : Model.decode? (encodeGraph g) = some (.ofGraph g.forgetSigns) := by
    rw [← encodeGraph_forgetSigns] at hlen ⊢
    exact Model.decode?_encode hm hlen
  have hnames : ∀ graph ∈ (Model.ofGraph g.forgetSigns).graph, ∀ t ∈ graph.initializers,
      t.name ≠ "__metadata__" := by
    rw [graph_ofGraph]
    rintro _ ⟨⟩
    rw [loweredGraph, List.forall_mem_map]
    rintro ⟨name, t⟩ he
    rcases mem_constantTensors.1 he with hfind | ⟨n, -, hbound⟩
    · exact hg name t hfind
    · rcases mem_boundTensors hbound with ⟨rfl, rfl⟩ | ⟨rfl, rfl⟩
      · exact Container.append_ne_reserved _ (c := 'n') rfl (by decide)
      · exact Container.append_ne_reserved _ (c := 'x') rfl (by decide)
  obtain ⟨m, hdecode, -, hlift, -⟩ := exists_of_validate h
  obtain rfl : m = .ofGraph g.forgetSigns := Option.some.inj (hdecode.symm.trans hread)
  exact storable_of_toGraph hm.bounded hnames hbatch hlift

end Exchange

end NetPack
