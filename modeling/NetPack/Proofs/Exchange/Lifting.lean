import NetPack.Proofs.Batches
import NetPack.Proofs.Exchange.Constants
import NetPack.Proofs.Exchange.Operands

/-!
# Lowering and lifting a graph

The exchange model of a graph is lifted node by node. Along the way the values that lifting knows
are exactly those in the scope of validation (`Exchange.valuesOf`), each under its own name, so
every node finds the value that it reads, and its shape is inferred as it was recorded. What is left
in the end is the graph itself (`Exchange.toGraph_ofGraph`), if it is `Exchange.Restorable`: in
particular its batch size has to be the one that symbolic axes are given.
-/

namespace NetPack

namespace Exchange

open Wire

/-! ### Declared values -/

/-- From some axis on no axis is dynamic. -/
theorem zipIdx_ofInfo {axes : List Nat} (rest : List Nat) (k : Nat) (haxes : ∀ a ∈ axes, a < k) :
    (rest.zipIdx k).map (fun (size, axis) =>
      if axes.contains axis then Dimension.param (axisName axis) else .value (signed size)) =
      rest.map fun size => .value (signed size) := by
  induction rest generalizing k with
  | nil => rfl
  | cons d rest ih =>
    have haxis : axes.contains k = false := by
      rw [List.contains_eq_mem, decide_eq_false_iff_not]
      exact fun hmem => Nat.lt_irrefl k (haxes k hmem)
    rw [List.zipIdx_cons, List.map_cons, ih (k + 1) fun a ha => Nat.lt_succ_of_lt (haxes a ha),
      List.map_cons]
    simp only [haxis]
    rfl

theorem foldlM_extents {step : List Nat × List Nat → Dimension × Nat →
      Except ExchangeError (List Nat × List Nat)}
    (hstep : ∀ n k sizes dynamic, 0 < n →
      step (sizes, dynamic) (.value (Int.ofNat n), k) = .ok (sizes ++ [n], dynamic))
    {rest : List Nat} (hrest : ∀ d ∈ rest, 0 < d ∧ Small d) (k : Nat) (sizes dynamic : List Nat) :
    ((rest.map fun size => Dimension.value (signed size)).zipIdx k).foldlM step (sizes, dynamic) =
      .ok (sizes ++ rest, dynamic) := by
  induction rest generalizing k sizes with
  | nil => simp
  | cons d rest ih =>
    rw [List.forall_mem_cons] at hrest
    obtain ⟨⟨hpos, hsmall⟩, hrest⟩ := hrest
    rw [List.map_cons, List.zipIdx_cons, List.foldlM_cons, signed_of_small hsmall,
      hstep d k sizes dynamic hpos, Outcome.ok_bind, ih hrest, List.append_assoc]
    rfl

/-- The declaration of a value is read as that value, its shape and its dynamic axes. -/
def Redeclared (v : ValueInfo) (batch : Nat) : Prop :=
  declaredShape (.ofInfo v) batch = .ok (v.shape, v.dynamicAxes)

theorem redeclared_of_extents {v : ValueInfo} {batch : Nat} (dims : List Dimension)
    (hbytes : (v.shape.numBytes? .f32).isSome) (hne : dims ≠ [])
    (htype : (Value.ofInfo v).type = .tensor singleType (some dims))
    (hextents : declaredExtents v.name batch dims = .ok (v.shape.dims, v.dynamicAxes)) :
    Redeclared v batch := by
  have hname : (Value.ofInfo v).name = v.name := rfl
  have hempty : dims.isEmpty = false := by simpa using hne
  have hnone : ((⟨v.shape.dims⟩ : Shape).numBytes? .f32).isNone = false := by
    rw [Option.isNone_eq_false_iff]
    exact hbytes
  simp only [Redeclared, declaredShape, htype, Option.getD_some, hempty, hname, hextents,
    Outcome.ok_bind, hnone]
  rfl

/-- A value whose leading axis, and no other one, is dynamic. -/
theorem redeclared_of_dynamic {name : String} {batch : Nat} {rest : List Nat}
    (hrest : ∀ d ∈ rest, 0 < d ∧ Small d)
    (hbytes : ((⟨batch :: rest⟩ : Shape).numBytes? .f32).isSome) :
    Redeclared ⟨name, ⟨batch :: rest⟩, [0]⟩ batch := by
  refine redeclared_of_extents (.param "batch" :: rest.map fun size => .value (signed size))
    hbytes (by simp) ?_ ?_
  · simp only [Value.ofInfo, List.zipIdx_cons, List.map_cons]
    rw [zipIdx_ofInfo rest 1 (by simp)]
    rfl
  · rw [declaredExtents, List.zipIdx_cons, List.foldlM_cons]
    exact foldlM_extents (fun i k sizes dynamic hi => by simp [hi]) hrest 1 [batch] [0]

/-- A value without dynamic axes. -/
theorem redeclared_of_fixed {name : String} {batch : Nat} {dims : List Nat} (hne : dims ≠ [])
    (hdims : ∀ d ∈ dims, 0 < d ∧ Small d) (hbytes : ((⟨dims⟩ : Shape).numBytes? .f32).isSome) :
    Redeclared ⟨name, ⟨dims⟩, []⟩ batch := by
  refine redeclared_of_extents (dims.map fun size => .value (signed size)) hbytes
    (by simpa using hne) ?_ ?_
  · rw [Value.ofInfo, zipIdx_ofInfo dims 0 (by simp)]
  · exact foldlM_extents (fun i k sizes dynamic hi => by simp [hi]) hdims 0 [] []

/-- A value whose leading axis, and no other one, is dynamic and has the given extent. -/
structure Declared (v : ValueInfo) (batch : Nat) : Prop where
  axes : v.dynamicAxes = [0]
  leads : v.shape.LeadsWith batch
  positive : v.shape.Positive
  bytes : (v.shape.numBytes? .f32).isSome

theorem Declared.redeclared {v : ValueInfo} {batch : Nat} (hv : Declared v batch) :
    Redeclared v batch := by
  obtain ⟨haxes, hlead, hpos, hbytes⟩ := hv
  have hsmall := Shape.small_of_numBytes? hpos hbytes
  obtain ⟨name, ⟨_ | ⟨n, rest⟩⟩, axes⟩ := v
  · cases hlead
  · obtain rfl : n = batch := Shape.leadsWith_mk.1 hlead
    obtain rfl : axes = [0] := haxes
    rw [Shape.positive_mk, List.forall_mem_cons] at hpos
    rw [List.forall_mem_cons] at hsmall
    exact redeclared_of_dynamic (fun d hd => ⟨hpos.2 d hd, hsmall.2 d hd⟩) hbytes

/-! ### One node -/

/-- The parameters that a node reads, with their names. -/
def namedParams (params : Table (Tensor Binary32)) (n : Node Binary32) :
    List (String × Tensor Binary32) :=
  n.params.filterMap fun p => (params.find? p).map (p, ·)

theorem map_namedParams (params : Table (Tensor Binary32)) (n : Node Binary32) :
    (namedParams params n).map (·.2.shape) = (Graph.paramTensors params n).map (·.shape) := by
  simp only [namedParams, Graph.paramTensors, List.map_filterMap]
  refine List.filterMap_congr fun p _ => ?_
  cases params.find? p <;> rfl

section Node

variable {g : NetPack.Graph Binary32} {batch : Nat} {n : Node Binary32} {scope : Graph.Scope}
  {s : Lifting}

/-- The inputs of an operator: the value that is read, the parameters and the bounds. -/
theorem inputs_ofNode (params : Table (Tensor Binary32)) (n : Node Binary32) :
    (Operator.ofNode params n).inputs =
      n.input :: (n.params ++ (boundTensors n).map (·.1)) := by
  simp only [Operator.ofNode, boundsOf_eq_map, List.map_map, List.cons_append]
  rfl

/-- No input is left out. -/
theorem given_inputs (hg : Named g) (hfresh : Fresh g n.input)
    (hbound : ∀ p ∈ n.params, (g.params.find? p).isSome) :
    ∀ i ∈ (Operator.ofNode g.params n).inputs, i ≠ "" := by
  rw [inputs_ofNode, List.forall_mem_cons, List.forall_mem_append, List.forall_mem_map]
  refine ⟨hfresh.1, fun p hp => ?_, fun e he => ?_⟩
  · obtain ⟨t, ht⟩ := Option.isSome_iff_exists.1 (hbound p hp)
    exact (hg.params p t ht).1
  · rcases mem_boundTensors he with rfl | rfl <;> simp

/-- The constants among the inputs are the parameters and the bounds. -/
theorem split_inputs (hg : Named g) (hconst : Provides (constantsFor g) g.params n)
    (hfresh : Fresh g n.input) (hbound : ∀ p ∈ n.params, (g.params.find? p).isSome) :
    (Operator.ofNode g.params n).valueOperands (constantsFor g) = [n.input] ∧
      (Operator.ofNode g.params n).constantOperands (constantsFor g) =
        n.params ++ (boundTensors n).map (·.1) := by
  have hoperands := Operator.operands_eq (given_inputs hg hfresh hbound)
  rw [inputs_ofNode] at hoperands
  refine Operator.split_of_value hoperands ?_ (lookup_of_fresh hfresh)
  rw [List.forall_mem_append, List.forall_mem_map]
  refine ⟨fun p hp => ?_, fun e he => ?_⟩
  · obtain ⟨t, -, ht⟩ := hconst.params p hp
    rw [ht]
    exact Option.some_ne_none t
  · rw [hconst.bounds e he]
    exact Option.some_ne_none e.2

/-- The parameters of a node are the constants that are no bounds. -/
theorem parametersOf_ofNode (hactivation : ∀ kind, n.op = .activation kind → n.params = []) :
    parametersOf n.op (n.params ++ (boundTensors n).map (·.1)) = n.params := by
  cases hop : n.op with
  | activation kind => rw [parametersOf, hactivation kind hop]
  | _ => simp [parametersOf, boundTensors, hop]

/-- The values that lifting knows, each under its own name. -/
def valuesOf (scope : Graph.Scope) : List (String × String × Shape) :=
  scope.values.map fun v => (v.1, v.1, v.2)

theorem lookup_valuesOf (scope : Graph.Scope) (name : String) :
    (valuesOf scope).lookup name = (scope.values.lookup name).map (name, ·) :=
  Table.lookup_map_snd Prod.mk scope.values name

/-- What is known behind a node that was lifted. -/
def Lifting.extend (s : Lifting) (params : Table (Tensor Binary32)) (n : Node Binary32) :
    Lifting where
  values := (n.output, n.output, n.outputShape) :: s.values
  nodes := s.nodes ++ [n]
  params := (namedParams params n).foldl (fun t (p, tensor) => t.insert p tensor) s.params

/-- The graph is read back from its exchange file at the given batch size. -/
structure Restorable (g : NetPack.Graph Binary32) (batch : Nat) : Prop where
  valid : g.Valid
  named : Named g
  small : ∀ n ∈ g.nodes, n.op.Small
  params : ∀ p t, g.params.find? p = some t → Writable t
  used : ∀ p t, g.params.find? p = some t → ∃ n ∈ g.nodes, p ∈ n.params
  input : Redeclared g.input batch
  output : Redeclared g.output batch

theorem Restorable.small_filterShape (hg : Restorable g batch) (n : Node Binary32) :
    ∀ shape ∈ filterShape g.params n, ∀ d ∈ shape.dims, Small d := by
  intro shape hshape
  obtain ⟨t, ht, rfl⟩ := Option.map_eq_some_iff.1 hshape
  obtain ⟨p, -, hfind⟩ := Option.bind_eq_some_iff.1 ht
  exact (hg.params p t hfind).small

theorem liftNode_ofNode (hg : Restorable g batch) (hn : n ∈ g.nodes)
    (hfit : Graph.Fits g.params scope n) (hfresh : Fresh g n.input)
    (hvalues : s.values = valuesOf scope) (index : Nat) :
    liftNode (constantsFor g) s (.ofNode g.params n, index) = .ok (s.extend g.params n) := by
  obtain ⟨input, hinput, hinfer⟩ := hfit.inferred
  have hconst := provides_constantsFor hg.named hn hfit.bound
  have hactivation : ∀ kind, n.op = .activation kind → n.params = [] := fun kind hop => by
    rw [hop] at hinfer
    have hnil := (Op.inferShape_activation.1 hinfer).1
    refine List.eq_nil_iff_forall_not_mem.2 fun p hp => ?_
    obtain ⟨t, ht, -⟩ := hconst.params p hp
    have hmem : t ∈ Graph.paramTensors g.params n := List.mem_filterMap.2 ⟨p, hp, ht⟩
    rw [List.map_eq_nil_iff.1 hnil] at hmem
    simp at hmem
  have hkernel : ∀ p, n.op = .maxPool p → p.kernel.hasZero = false := fun p hop => by
    rw [hop] at hinfer
    obtain ⟨-, d, hd, -⟩ := Op.inferShape_maxPool.1 hinfer
    exact hd.kernel
  have hname : nodeName (Operator.ofNode g.params n) index = n.name := by
    have hne : n.name.isEmpty = false := by simpa using hg.named.nodes n hn
    show (if n.name.isEmpty then _ else n.name) = n.name
    rw [hne]
    rfl
  have hlookup : s.values.lookup n.input = some (n.input, input) := by
    rw [hvalues, lookup_valuesOf, hinput]
    rfl
  have hop := liftOperator_ofNode input.rank (hg.small n hn) hconst (hg.small_filterShape n)
    hactivation hkernel
  -- The constants hold the same tensors as the parameters of the graph.
  have htensors : namedConstants (constantsFor g) n.params = namedParams g.params n := by
    refine List.filterMap_congr fun p hp => ?_
    obtain ⟨t, hfind, hlook⟩ := hconst.params p hp
    rw [hfind, hlook]
  obtain ⟨hvalue, hconstants⟩ := split_inputs hg.named hconst hfresh hfit.bound
  have hgiven : n.output ≠ "" := (hg.named.outputs n hn).1
  refine liftNode_eq_ok_iff.2 ⟨n.input, n.input, input, n.output, hvalue, hlookup, rfl, hgiven,
    .inr ⟨n.op, n.outputShape, ?_, ?_, ?_⟩⟩
  · rw [hname]
    exact hop
  · rw [hconstants, parametersOf_ofNode hactivation, htensors, map_namedParams, hinfer]
  · rw [hconstants, parametersOf_ofNode hactivation, htensors, hname]
    rfl

end Node

/-! ### All nodes -/

section Nodes

variable {g : NetPack.Graph Binary32} {batch : Nat} {ns : List (Node Binary32)}
  {scope : Graph.Scope} {s : Lifting}

/-- **The nodes are lifted one after the other**, in step with validation. -/
theorem foldlM_liftNode (hg : Restorable g batch) (hns : ∀ n ∈ ns, n ∈ g.nodes)
    (hfit : Graph.AllFit g.params scope ns) (hscope : ∀ v ∈ scope.values, Fresh g v.1)
    (hvalues : s.values = valuesOf scope) (k : Nat) :
    ((ns.map (Operator.ofNode g.params)).zipIdx k).foldlM (liftNode (constantsFor g)) s =
        .ok (ns.foldl (·.extend g.params ·) s) ∧
      (ns.foldl (·.extend g.params ·) s).values = valuesOf (ns.foldl Graph.Scope.extend scope) := by
  -- Lifting and validation walk along the same nodes. The values that both know stay the same
  -- (`hvalues`), and no constant is among them (`hscope`).
  induction ns generalizing scope s k with
  | nil => exact ⟨rfl, hvalues⟩
  | cons n ns ih =>
    rw [List.forall_mem_cons] at hns
    obtain ⟨input, hinput, -⟩ := hfit.1.inferred
    have hfresh : Fresh g n.input := hscope _ (Table.mem_of_lookup hinput)
    have hnode := liftNode_ofNode hg hns.1 hfit.1 hfresh hvalues k
    have hscope' : ∀ v ∈ (scope.extend n).values, Fresh g v.1 :=
      List.forall_mem_cons.2 ⟨hg.named.outputs n hns.1, hscope⟩
    have hvalues' : (s.extend g.params n).values = valuesOf (scope.extend n) :=
      congrArg ((n.output, n.output, n.outputShape) :: ·) hvalues
    rw [List.map_cons, List.zipIdx_cons, List.foldlM_cons, hnode, Outcome.ok_bind]
    exact ih hns.2 hfit.2 hscope' hvalues' (k + 1)

theorem nodes_foldl_extend (params : Table (Tensor Binary32)) (ns : List (Node Binary32))
    (s : Lifting) : (ns.foldl (·.extend params ·) s).nodes = s.nodes ++ ns := by
  induction ns generalizing s with
  | nil => simp
  | cons n ns ih =>
    rw [List.foldl_cons, ih, Lifting.extend, List.append_assoc]
    rfl

theorem params_foldl_extend (params : Table (Tensor Binary32)) (ns : List (Node Binary32))
    (s : Lifting) : (ns.foldl (·.extend params ·) s).params =
      (ns.flatMap (namedParams params)).foldl (fun t e => t.insert e.1 e.2) s.params := by
  induction ns generalizing s with
  | nil => rfl
  | cons n ns ih =>
    rw [List.foldl_cons, ih, List.flatMap_cons, List.foldl_append]
    rfl

/-- The parameters that the nodes read are all of them. -/
theorem ofList_namedParams
    (hused : ∀ p t, g.params.find? p = some t → ∃ n ∈ g.nodes, p ∈ n.params) :
    Table.ofList (g.nodes.flatMap (namedParams g.params)) = g.params := by
  have hmem : ∀ e : String × Tensor Binary32, e ∈ g.nodes.flatMap (namedParams g.params) ↔
      (∃ n ∈ g.nodes, e.1 ∈ n.params) ∧ g.params.find? e.1 = some e.2 := by
    intro e
    simp only [List.mem_flatMap, namedParams, List.mem_filterMap, Option.map_eq_some_iff]
    constructor
    · rintro ⟨n, hn, p, hp, t, ht, rfl⟩
      exact ⟨⟨n, hn, hp⟩, ht⟩
    · rintro ⟨⟨n, hn, hp⟩, ht⟩
      exact ⟨n, hn, e.1, hp, e.2, ht, rfl⟩
  -- Both tables are sorted, so it is enough to look up names.
  refine Table.ext_find? fun name => ?_
  rw [Table.find?_ofList fun e he => ((hmem e).1 he).2]
  split
  · rfl
  · rename_i hnot
    cases hfind : g.params.find? name with
    | none => rfl
    | some t =>
      exact absurd (List.mem_map_of_mem ((hmem (name, t)).2 ⟨hused name t hfind, hfind⟩)) hnot

end Nodes

/-! ### The whole graph -/

/-- The graph of an exchange model. -/
def loweredGraph (g : NetPack.Graph Binary32) : Graph where
  operators := g.nodes.map (.ofNode g.params)
  name := g.name
  initializers := (constantTensors g).map fun e => .ofTensor e.1 e.2
  inputs := [.ofInfo g.input]
  outputs := [.ofInfo g.output]

theorem graph_ofGraph (g : NetPack.Graph Binary32) :
    (Model.ofGraph g).graph = some (loweredGraph g) := by
  rw [loweredGraph, ← initializers_eq_map]
  rfl

variable {g : NetPack.Graph Binary32} {batch : Nat}

theorem constantsOf_loweredGraph (hparams : ∀ p t, g.params.find? p = some t → Writable t) :
    constantsOf (loweredGraph g) = .ok (constantsFor g) := by
  have hwritable : ∀ e ∈ constantTensors g, Writable e.2 := by
    rintro ⟨name, t⟩ he
    rcases mem_constantTensors.1 he with hfind | ⟨n, -, hbound⟩
    · exact hparams name t hfind
    · rcases mem_boundTensors hbound with he | he <;>
        · rw [Prod.mk.injEq] at he
          rw [he.2]
          exact writable_scalar _
  have hfold := foldlM_toTensor hwritable []
  rw [List.append_nil] at hfold
  exact hfold

theorem renameIn_self (v : String) (n : Node Binary32) : renameIn v v n = n := by
  have hself : ∀ name : String, (if name = v then v else name) = name := fun name => by
    split
    · exact (‹name = v›).symm
    · rfl
  simp only [renameIn, hself]

/-- What is known before the first node. -/
def Lifting.initial (g : NetPack.Graph Binary32) : Lifting :=
  ⟨[(g.input.name, g.input.name, g.input.shape)], [], .empty⟩

/-- What is known behind the last node. -/
def Lifting.final (g : NetPack.Graph Binary32) : Lifting :=
  g.nodes.foldl (·.extend g.params ·) (initial g)

theorem foldlM_loweredGraph (hg : Restorable g batch) :
    (loweredGraph g).operators.zipIdx.foldlM (liftNode (constantsFor g)) (.initial g) =
        .ok (.final g) ∧
      (Lifting.final g).values.lookup g.output.name =
        some (g.output.name, g.output.shape) := by
  obtain ⟨-, -, -, hfit, hout⟩ := Graph.valid_iff.1 hg.valid
  have hstart : ∀ v ∈ (Graph.Scope.initial g).values, Fresh g v.1 :=
    List.forall_mem_singleton.2 hg.named.input
  obtain ⟨hrun, hvalues⟩ := foldlM_liftNode (s := .initial g) hg (fun _ hn => hn) hfit
    hstart rfl 0
  have hscope : (g.nodes.foldl Graph.Scope.extend (.initial g)).values.lookup g.output.name =
      some g.output.shape := hout
  refine ⟨hrun, ?_⟩
  rw [Lifting.final, hvalues, lookup_valuesOf, hscope]
  rfl

theorem nodes_final (g : NetPack.Graph Binary32) (v : String) :
    (Lifting.final g).nodes.map (renameIn v v) = g.nodes := by
  rw [Lifting.final, nodes_foldl_extend, Lifting.initial, List.nil_append]
  exact (List.map_congr_left fun n _ => renameIn_self v n).trans (List.map_id _)

theorem params_final (hg : Restorable g batch) : (Lifting.final g).params = g.params := by
  rw [Lifting.final, params_foldl_extend]
  exact ofList_namedParams hg.used

/-- **Lifting undoes lowering.** -/
theorem toGraph_ofGraph (hg : Restorable g batch) : toGraph (.ofGraph g) batch = .ok g := by
  obtain ⟨hrun, hlookup⟩ := foldlM_loweredGraph hg
  have hdata : (loweredGraph g).inputs.filter
      (fun v => ((constantsFor g).lookup v.name).isNone) = [.ofInfo g.input] := by
    have hnone : (constantsFor g).lookup (Value.ofInfo g.input).name = none :=
      lookup_of_fresh hg.named.input
    rw [loweredGraph, List.filter_cons_of_pos (by rw [hnone]; rfl), List.filter_nil]
  have hname : (loweredGraph g).name.isEmpty = false := by
    simpa [loweredGraph] using hg.named.graph
  refine toGraph_eq_ok_iff.2 ⟨loweredGraph g, constantsFor g, .ofInfo g.input, g.input.shape,
    g.input.dynamicAxes, .final g, .ofInfo g.output, g.output.name, g.output.shape,
    g.output.dynamicAxes, graph_ofGraph g, constantsOf_loweredGraph hg.params, hdata, hg.input,
    hrun, rfl, hlookup, hg.output, ?_⟩
  have hnodes : (Lifting.final g).nodes.map
      (renameIn g.output.name (Value.ofInfo g.output).name) = g.nodes := nodes_final g _
  rw [hname, hnodes, params_final hg]
  rfl

/-! ### Graphs with proper parameters -/

/-- The names can be told apart, the numbers are small, and no parameter is empty. -/
structure Liftable (g : NetPack.Graph Binary32) : Prop where
  named : Named g
  small : ∀ n ∈ g.nodes, n.op.Small
  params : ∀ p t, g.params.find? p = some t → t.Proper ∧ (t.shape.numBytes? .f32).isSome

/-- A valid graph that can be lifted, with dynamic leading axes of the given extent. -/
structure Portable (g : NetPack.Graph Binary32) (batch : Nat) : Prop where
  valid : g.Valid
  liftable : Liftable g
  used : ∀ p t, g.params.find? p = some t → ∃ n ∈ g.nodes, p ∈ n.params
  input : Declared g.input batch
  output : Declared g.output batch

theorem Portable.restorable (hg : Portable g batch) : Restorable g batch where
  valid := hg.valid
  named := hg.liftable.named
  small := hg.liftable.small
  params p t ht := .of_proper (hg.liftable.params p t ht).1 (hg.liftable.params p t ht).2
  used := hg.used
  input := hg.input.redeclared
  output := hg.output.redeclared

end Exchange

end NetPack
