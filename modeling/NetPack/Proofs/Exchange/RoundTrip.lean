import NetPack.Proofs.Exchange.Accepted
import NetPack.Proofs.Exchange.Lifting

/-!
# Graphs that survive an exchange file

An exchange file that was written from a graph passes every check on the way back: the schema, the
check of the structure (`Exchange.inspect_ofGraph`), lifting and validation. What comes out is the
graph (`Exchange.Restorable.validate`).
-/

namespace NetPack

namespace Exchange

open Wire

variable {g : NetPack.Graph Binary32} {batch : Nat}

/-! ### The numbers of the file -/

theorem eq_zero_of_isZero {x : Binary32} (h : x.isZero = true) (hne : x ≠ ⟨0x80000000⟩) :
    x = ⟨0⟩ := by
  obtain ⟨bits⟩ := x
  have hbits : bits.toNat % 2147483648 = 0 := by
    have hmask : bits &&& 0x7fffffff = 0 := by simpa [Binary32.isZero] using h
    have hand : bits.toNat &&& 2147483647 = 0 := congrArg UInt32.toNat hmask
    exact (Nat.and_two_pow_sub_one_eq_mod bits.toNat 31).symm.trans hand
  have hlt := bits.toNat_lt
  have hcases : bits.toNat = 0 ∨ bits.toNat = 2147483648 := by omega
  rcases hcases with hzero | hnegative
  · rw [UInt32.toNat_inj.1 (hzero.trans rfl : bits.toNat = (0 : UInt32).toNat)]
  · exact absurd (congrArg Binary32.mk (UInt32.toNat_inj.1 (hnegative.trans rfl))) hne

theorem storable_intAttribute (name : String) {i : Int} (h : Long i) :
    (intAttribute name i).Storable where
  single := fun _ => rfl
  int := h
  ints := by simp [intAttribute, Attribute.named]
  type := by simp [intAttribute, Attribute.named, Short]

theorem storable_intsAttribute (name : String) (ns : List Nat) :
    (intsAttribute name ns).Storable where
  single := fun _ => rfl
  int := by simp [intsAttribute, Attribute.named, Long]
  ints := List.forall_mem_map.2 fun n _ => long_signed n
  type := by simp [intsAttribute, Attribute.named, Short]

theorem storable_singleAttribute (name : String) {x : Binary32} (h : x ≠ ⟨0x80000000⟩) :
    (singleAttribute name x).Storable where
  single := fun hzero => eq_zero_of_isZero hzero h
  int := by simp [singleAttribute, Attribute.named, Long]
  ints := by simp [singleAttribute, Attribute.named]
  type := by simp [singleAttribute, Attribute.named, Short]

/-- No number that a batch normalisation adds to the variance is the negative zero. -/
def NoNegativeZero (g : NetPack.Graph Binary32) : Prop :=
  ∀ n ∈ g.nodes, n.op ≠ .batchNorm ⟨0x80000000⟩

theorem storable_ofNode {n : Node Binary32} (params : Table (Tensor Binary32))
    (h : n.op ≠ .batchNorm ⟨0x80000000⟩) : (Operator.ofNode params n).Storable := by
  have hone : Long 1 := by simp [Long]
  have hlast : Long (-1) := by simp [Long]
  rw [Operator.Storable, attributes_ofNode]
  cases hop : n.op with
  | conv p =>
    simp only [operatorOf, List.forall_mem_append, List.forall_mem_map, List.forall_mem_cons]
    exact ⟨fun s _ => storable_intsAttribute _ _, storable_intsAttribute _ _,
      storable_intsAttribute _ _, storable_intsAttribute _ _,
      storable_intAttribute _ (long_signed _), by simp⟩
  | linear => exact List.forall_mem_singleton.2 (storable_intAttribute _ hone)
  | batchNorm epsilon =>
    have hne : epsilon ≠ ⟨0x80000000⟩ := fun heq => h (heq ▸ hop)
    exact List.forall_mem_singleton.2 (storable_singleAttribute _ hne)
  | activation kind => cases kind <;> simp [operatorOf]
  | maxPool p =>
    simp only [operatorOf, List.forall_mem_cons]
    exact ⟨storable_intsAttribute _ _, storable_intsAttribute _ _, storable_intsAttribute _ _,
      by simp⟩
  | globalAvgPool => simp [operatorOf]
  | flatten => exact List.forall_mem_singleton.2 (storable_intAttribute _ hone)
  | softmax => exact List.forall_mem_singleton.2 (storable_intAttribute _ hlast)

theorem storable_ofTensor (name : String) (t : Tensor Binary32) :
    (Initializer.ofTensor name t).Storable where
  dims := List.forall_mem_map.2 fun n _ => long_signed n
  dataType := by simp [Initializer.ofTensor, singleType, Short]

theorem storable_ofInfo (v : ValueInfo) : (Value.ofInfo v).Storable := by
  refine ⟨by simp [singleType, Short], fun dims hdims => ?_⟩
  obtain rfl := Option.some.inj hdims
  rw [List.forall_mem_map]
  rintro ⟨size, axis⟩ -
  show Dimension.Storable (if _ then _ else _)
  split
  · trivial
  · exact long_signed size

/-- Everything that is written of a graph can be stored. -/
theorem storable_ofGraph (h : NoNegativeZero g) : (Model.ofGraph g).Storable where
  irVersion := by simp [Model.ofGraph, writtenIrVersion, Long]
  operatorSets := by simp [Model.ofGraph, writtenOperatorVersion, OperatorSet.Storable, Long]
  graph := by
    rw [graph_ofGraph]
    rintro _ ⟨⟩
    exact ⟨List.forall_mem_map.2 fun n hn => storable_ofNode g.params (h n hn),
      List.forall_mem_map.2 fun e _ => storable_ofTensor e.1 e.2,
      List.forall_mem_singleton.2 (storable_ofInfo g.input),
      List.forall_mem_singleton.2 (storable_ofInfo g.output)⟩

/-! ### The structure of the file -/

theorem known_ofNode (params : Table (Tensor Binary32)) (n : Node Binary32) :
    knownOperators.contains (Operator.ofNode params n).type = true := by
  rw [type_ofNode]
  cases n.op with
  | activation kind => cases kind <;> rfl
  | _ => rfl

/-- Names of values and of constants are defined. -/
structure Defines (defined : List String) (g : NetPack.Graph Binary32) (scope : Graph.Scope) :
    Prop where
  values : ∀ v ∈ scope.values, v.1 ∈ defined
  constants : ∀ e ∈ constantTensors g, e.1 ∈ defined

theorem inspectOperator_ofNode {n : Node Binary32} {scope : Graph.Scope} {defined : List String}
    (hn : n ∈ g.nodes) (hfit : Graph.Fits g.params scope n) (hdefines : Defines defined g scope)
    (index : Nat) :
    inspectOperator defined (.ofNode g.params n, index) = .ok (n.output :: defined) := by
  obtain ⟨input, hinput, -⟩ := hfit.inferred
  have hinputs : ∀ i ∈ (Operator.ofNode g.params n).inputs, i ∈ defined := by
    rw [inputs_ofNode, List.forall_mem_cons, List.forall_mem_append, List.forall_mem_map]
    refine ⟨hdefines.values _ (Table.mem_of_lookup hinput), fun p hp => ?_, fun e he => ?_⟩
    · obtain ⟨t, ht⟩ := Option.isSome_iff_exists.1 (hfit.bound p hp)
      exact hdefines.constants (p, t) (mem_constantTensors.2 (.inl ht))
    · exact hdefines.constants e (mem_constantTensors.2 (.inr ⟨n, hn, he⟩))
  have hmissing : (Operator.ofNode g.params n).inputs.find?
      (fun i => !i.isEmpty && !defined.contains i) = none := by
    refine List.find?_eq_none.2 fun i hi => ?_
    simp [hinputs i hi]
  simp only [inspectOperator, known_ofNode, hmissing]
  rfl

theorem foldlM_inspectOperator {ns : List (Node Binary32)} {scope : Graph.Scope}
    {defined : List String} (hns : ∀ n ∈ ns, n ∈ g.nodes) (hfit : Graph.AllFit g.params scope ns)
    (hdefines : Defines defined g scope) (k : Nat) :
    ∃ defined', ((ns.map (Operator.ofNode g.params)).zipIdx k).foldlM inspectOperator defined =
        .ok defined' ∧ Defines defined' g (ns.foldl Graph.Scope.extend scope) := by
  -- The check of the structure collects names only. They always cover the scope of validation.
  induction ns generalizing scope defined k with
  | nil => exact ⟨defined, rfl, hdefines⟩
  | cons n ns ih =>
    rw [List.forall_mem_cons] at hns
    have hdefines' : Defines (n.output :: defined) g (scope.extend n) :=
      ⟨List.forall_mem_cons.2 ⟨List.mem_cons_self,
        fun v hv => List.mem_cons_of_mem _ (hdefines.values v hv)⟩,
        fun e he => List.mem_cons_of_mem _ (hdefines.constants e he)⟩
    rw [List.map_cons, List.zipIdx_cons, List.foldlM_cons,
      inspectOperator_ofNode hns.1 hfit.1 hdefines, Outcome.ok_bind]
    exact ih hns.2 hfit.2 hdefines' (k + 1)

/-- The report on the exchange file of a graph. -/
def reportFor (g : NetPack.Graph Binary32) : Report :=
  ⟨writtenProducer, writtenIrVersion, writtenOperatorVersion, g.nodes.length,
    (constantTensors g).length⟩

/-- **The file of a valid graph passes the check of its structure.** -/
theorem inspect_ofGraph (hg : g.Valid) : inspect (.ofGraph g) = .ok (reportFor g) := by
  obtain ⟨-, -, -, hfit, hout⟩ := Graph.valid_iff.1 hg
  have hsets : (Model.ofGraph g).operatorSets.find?
      (fun s => s.domain == "" || s.domain == "ai.onnx") = some ⟨"", writtenOperatorVersion⟩ := rfl
  have hversion : (writtenOperatorVersion < ExchangeError.versions.1 ||
      ExchangeError.versions.2 < writtenOperatorVersion) = false := rfl
  have hnames : (loweredGraph g).inputs.map (·.name) ++ (loweredGraph g).initializers.map (·.name) =
      g.input.name :: (constantTensors g).map (·.1) := by
    simp only [loweredGraph, List.map_map, List.map_cons, List.map_nil]
    rfl
  have hstart : Defines (g.input.name :: (constantTensors g).map (·.1)) g (.initial g) :=
    ⟨List.forall_mem_singleton.2 List.mem_cons_self,
      fun e he => List.mem_cons_of_mem _ (List.mem_map_of_mem he)⟩
  obtain ⟨defined, hrun, hdefines⟩ := foldlM_inspectOperator (fun _ hn => hn) hfit hstart 0
  have hrun' : (loweredGraph g).operators.zipIdx.foldlM inspectOperator
      (g.input.name :: (constantTensors g).map (·.1)) = .ok defined := hrun
  have hmem : g.output.name ∈ defined := hdefines.values _ (Table.mem_of_lookup hout)
  have hmissing : (loweredGraph g).outputs.find? (fun o => !defined.contains o.name) = none := by
    refine List.find?_eq_none.2 (List.forall_mem_singleton.2 ?_)
    simpa [Value.ofInfo] using hmem
  have hcounts : (loweredGraph g).operators.length = g.nodes.length ∧
      (loweredGraph g).initializers.length = (constantTensors g).length :=
    ⟨List.length_map _, List.length_map _⟩
  have houtputs : (loweredGraph g).outputs.isEmpty = false := rfl
  simp only [inspect, graph_ofGraph, hsets, hversion, hnames, hrun', Outcome.ok_bind, houtputs,
    hmissing, hcounts.1, hcounts.2]
  rfl

/-! ### The way there and back -/

/-- **A graph that was written to an exchange file is read back.** -/
theorem Restorable.validate (hg : Restorable g batch) (hzero : NoNegativeZero g)
    (hlen : (encodeGraph g).length < Word.modulus) :
    Exchange.validate (encodeGraph g) batch = .ok (g, reportFor g) := by
  have hdecode : decode (encodeGraph g) = .ok (.ofGraph g) := by
    have hread : Model.decode? (encodeGraph g) = some (.ofGraph g) :=
      Model.decode?_encode (storable_ofGraph hzero) hlen
    rw [decode, hread]
  have hvalid : toValidGraph (.ofGraph g) batch = .ok g := by
    have hcheck : g.validate = .ok g := Graph.validate_eq_ok.2 ⟨hg.valid, rfl⟩
    rw [toValidGraph, toGraph_ofGraph hg, Outcome.ok_bind, hcheck]
    rfl
  rw [Exchange.validate, hdecode, Outcome.liftM_eq_ofExcept, Outcome.ofExcept_ok, Outcome.ok_bind,
    inspect_ofGraph hg.valid]
  dsimp only
  rw [hvalid]
  rfl

theorem validate_encodeGraph (hg : Portable g batch) (hzero : NoNegativeZero g)
    (hlen : (encodeGraph g).length < Word.modulus) :
    validate (encodeGraph g) batch = .ok (g, reportFor g) :=
  hg.restorable.validate hzero hlen

/-! ### Other batch sizes -/

theorem ofInfo_atBatch {v : ValueInfo} (haxes : v.dynamicAxes = [0]) (b : Nat) :
    Value.ofInfo (v.atBatch b) = .ofInfo v := by
  obtain ⟨name, ⟨_ | ⟨n, rest⟩⟩, axes⟩ := v
  · rfl
  · obtain rfl : axes = [0] := haxes
    simp [Value.ofInfo, ValueInfo.atBatch, List.zipIdx_cons]

theorem boundTensors_atBatch (n : Node Binary32) (b : Nat) :
    boundTensors (n.atBatch b) = boundTensors n := rfl

theorem constantTensors_atBatch (g : NetPack.Graph Binary32) (b : Nat) :
    constantTensors (g.atBatch b) = constantTensors g := by
  simp only [constantTensors, Graph.atBatch, List.flatMap_map, boundTensors_atBatch]

/-- The file says nothing about the batch size. -/
theorem ofGraph_atBatch (hinput : g.input.dynamicAxes = [0]) (houtput : g.output.dynamicAxes = [0])
    (b : Nat) : Model.ofGraph (g.atBatch b) = .ofGraph g := by
  have hnodes : (g.atBatch b).nodes.map (Operator.ofNode g.params) =
      g.nodes.map (.ofNode g.params) := by
    simp only [Graph.atBatch, List.map_map]
    rfl
  have hbounds : (g.atBatch b).nodes.flatMap boundsOf = g.nodes.flatMap boundsOf := by
    simp only [Graph.atBatch, List.flatMap_map]
    rfl
  have hin : Value.ofInfo (g.atBatch b).input = .ofInfo g.input := ofInfo_atBatch hinput b
  have hout : Value.ofInfo (g.atBatch b).output = .ofInfo g.output := ofInfo_atBatch houtput b
  have hparams : (g.atBatch b).params = g.params := rfl
  have hname : (g.atBatch b).name = g.name := rfl
  simp only [Model.ofGraph, hparams, hname, hnodes, hbounds, hin, hout]

theorem reportFor_atBatch (g : NetPack.Graph Binary32) (b : Nat) :
    reportFor (g.atBatch b) = reportFor g := by
  have hnodes : (g.atBatch b).nodes.length = g.nodes.length := List.length_map _
  simp only [reportFor, hnodes, constantTensors_atBatch]

theorem Liftable.atBatch (hg : Liftable g) (b : Nat) : Liftable (g.atBatch b) := by
  obtain ⟨⟨hgraph, hnodes, hinput, houtputs, hparams⟩, hsmall, hproper⟩ := hg
  have hfresh : ∀ v, Fresh g v → Fresh (g.atBatch b) v := fun v hv => by
    rw [Fresh, constantTensors_atBatch]
    exact hv
  refine ⟨⟨hgraph, List.forall_mem_map.2 hnodes, hfresh _ hinput,
    List.forall_mem_map.2 fun n hn => hfresh _ (houtputs n hn), fun p t ht => ?_⟩,
    List.forall_mem_map.2 hsmall, hproper⟩
  obtain ⟨hne, hbounds⟩ := hparams p t ht
  exact ⟨hne, List.forall_mem_map.2 hbounds⟩

end Exchange

end NetPack
