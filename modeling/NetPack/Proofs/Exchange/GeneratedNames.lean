import NetPack.Proofs.Exchange.Operands
import NetPack.Proofs.NodeNames

/-!
# Names of operators that have none

A node is called as its operator. An operator without a name is called after its type and its
position, and nothing keeps another tool from giving that very name to another operator: the first
operator `relu_0`, which has no name, and a second one that is called `relu_0` become two nodes
`relu_0` (`Exchange.not_forall_nodup_nodeNames`).

This is the only way in which two nodes get the same name, if the names that are given differ. Two
names that are made up differ already in the number behind the last underscore
(`Exchange.position_of_nodeName`), and an operator that changes nothing leaves no node, so its name
does not count. What follows for validation is that it refuses a lifted graph for the name of a node
only if a name that was made up meets a given one (`Exchange.toGraph_nodeNames`).
-/

namespace NetPack

namespace Exchange

namespace Graph

/-- The names that operators have of their own. -/
def givenNames (graph : Graph) : List String :=
  (graph.operators.map (·.name)).filter fun name => !name.isEmpty

/-- The names of the nodes that operators become. -/
def nodeNames (graph : Graph) : List String := graph.computing.map fun o => nodeName o.1 o.2

/-- An operator without a name would be called like another one, and both become nodes. -/
def Clash (graph : Graph) : Prop :=
  ∃ o ∈ graph.computing, o.1.name = "" ∧ ∃ o' ∈ graph.computing, o'.1.name = nodeName o.1 o.2

instance : DecidablePred Clash := fun graph =>
  inferInstanceAs (Decidable (∃ o ∈ graph.computing, o.1.name = "" ∧
    ∃ o' ∈ graph.computing, o'.1.name = nodeName o.1 o.2))

end Graph

section Names

variable {o o' : Operator} {k k' : Nat}

theorem nodeName_of_ne (h : o.name ≠ "") : nodeName o k = o.name := by
  simp [nodeName, h]

theorem toList_nodeName (h : o.name = "") :
    (nodeName o k).toList = (Text.lowercase o.type).toList ++ '_' :: k.repr.toList := by
  simp [nodeName, h, toString]

/-- **A name that is made up tells the position.** -/
theorem position_of_nodeName (ho : o.name = "") (ho' : o'.name = "")
    (h : nodeName o k = nodeName o' k') : k = k' := by
  have hlist := congrArg String.toList h
  rw [toList_nodeName ho, toList_nodeName ho'] at hlist
  exact (Tracer.append_number_inj hlist).2

end Names

/-! ### Names of nodes -/

namespace Graph

variable {graph : Graph} {o o' : Operator × Nat}

theorem mem_computing : o ∈ graph.computing ↔
    graph.operators[o.2]? = some o.1 ∧ o.1.isAlias = false := by
  simp [computing, List.mem_zipIdx_iff_getElem?]

theorem nodup_computing (graph : Graph) : graph.computing.Nodup := by
  refine List.Nodup.filter _ (List.Nodup.of_map (·.2) ?_)
  rw [List.zipIdx_map_snd]
  exact List.nodup_range'

/-- Operators with the same name of their own are one. -/
theorem eq_of_givenNames (hgiven : graph.givenNames.Nodup) (ho : o ∈ graph.operators.zipIdx)
    (ho' : o' ∈ graph.operators.zipIdx) (hname : o.1.name ≠ "") (h : o.1.name = o'.1.name) :
    o = o' := by
  have hnames : graph.givenNames =
      (graph.operators.zipIdx.filter fun o => !o.1.name.isEmpty).map (·.1.name) := by
    conv_lhs => rw [givenNames, ← List.zipIdx_map_fst 0 graph.operators, List.map_map,
      List.filter_map]
    rfl
  rw [hnames] at hgiven
  refine List.inj_on_of_nodup_map hgiven (List.mem_filter.2 ⟨ho, ?_⟩)
    (List.mem_filter.2 ⟨ho', ?_⟩) h
  · simpa using hname
  · simpa [← h] using hname

theorem not_nodup_of_clash (h : graph.Clash) : ¬ graph.nodeNames.Nodup := by
  obtain ⟨o, ho, hempty, o', ho', hname⟩ := h
  have hgiven : o'.1.name ≠ "" := hname ▸ nodeName_ne_empty _ _
  intro hnodup
  have hsame : o = o' := List.inj_on_of_nodup_map hnodup ho ho'
    ((nodeName_of_ne hgiven).trans hname).symm
  exact hgiven (hsame ▸ hempty)

/-- **Where given names differ, two nodes get the same name only by a clash.** -/
theorem nodup_of_not_clash (hgiven : graph.givenNames.Nodup) (hclash : ¬ graph.Clash) :
    graph.nodeNames.Nodup := by
  refine (List.nodup_map_iff_inj_on graph.nodup_computing).2 fun o ho o' ho' hname => ?_
  by_cases hempty : o.1.name = ""
  · by_cases hempty' : o'.1.name = ""
    · -- Two names that are made up: the positions agree, and with them the operators.
      have hposition := position_of_nodeName hempty hempty' hname
      have hat := (mem_computing.1 ho).1
      rw [hposition, (mem_computing.1 ho').1] at hat
      exact Prod.ext (Option.some.inj hat).symm hposition
    · exact absurd ⟨o, ho, hempty, o', ho', (nodeName_of_ne hempty').symm.trans hname.symm⟩ hclash
  · by_cases hempty' : o'.1.name = ""
    · exact absurd ⟨o', ho', hempty', o, ho, (nodeName_of_ne hempty).symm.trans hname⟩ hclash
    · rw [nodeName_of_ne hempty, nodeName_of_ne hempty'] at hname
      exact eq_of_givenNames hgiven (List.mem_of_mem_filter ho) (List.mem_of_mem_filter ho') hempty
        hname

end Graph

theorem nodeNames_of_builtFrom {N : Naming} {os : List (Operator × Nat)}
    {ns : List (Node Binary32)} (h : List.Forall₂ N.BuiltFrom os ns) :
    ns.map (·.name) = os.map fun o => nodeName o.1 o.2 := by
  induction h with
  | nil => rfl
  | cons hbuilt _ ih => rw [List.map_cons, List.map_cons, hbuilt.name, ih]

/-- **The names of lifted nodes.** They are the names of the operators that become nodes, where
those that have none are called after their type and position. If the names that are given differ,
then nodes have names of their own exactly if no operator without a name would be called like
another one. Then validation does not refuse the graph for the name of a node; with such an operator
the graph is not valid in any case. -/
theorem toGraph_nodeNames {m : Model} {batch : Nat} {g : NetPack.Graph Binary32}
    (h : toGraph m batch = .ok g) : ∃ graph, m.graph = some graph ∧
      g.nodes.map (·.name) = graph.nodeNames ∧
      (graph.givenNames.Nodup → ((g.nodes.map (·.name)).Nodup ↔ ¬ graph.Clash)) ∧
      (graph.givenNames.Nodup → ¬ graph.Clash →
        ∀ name, g.validate ≠ Outcome.report (.graph (.duplicateNode name))) ∧
      (graph.Clash → ¬ g.Valid) := by
  obtain ⟨N, hN, hbuilt, -⟩ := exists_naming h
  have hnames : g.nodes.map (·.name) = N.graph.nodeNames := nodeNames_of_builtFrom hbuilt
  have hnodup : N.graph.givenNames.Nodup → ¬ N.graph.Clash → (g.nodes.map (·.name)).Nodup := by
    rw [hnames]
    exact Graph.nodup_of_not_clash
  have hrepeated : N.graph.Clash → ¬ (g.nodes.map (·.name)).Nodup := by
    rw [hnames]
    exact Graph.not_nodup_of_clash
  refine ⟨N.graph, hN.graph, hnames, fun hgiven => ⟨?_, hnodup hgiven⟩, ?_, fun hclash => ?_⟩
  · exact fun h hclash => hrepeated hclash h
  · intro hgiven hclash name hvalidate
    exact NetPack.Graph.not_duplicateNode_of_nodup (hnodup hgiven hclash) name
      (NetPack.Graph.validate_eq_error.1 hvalidate)
  · intro hvalid
    exact hrepeated hclash (NetPack.Graph.valid_iff.1 hvalid).2.2.2.1.nodup

/-- Two activations of `x` one after the other with a copy in between, where only the second
activation has a name. -/
def activations (second : String) : Graph where
  operators := [
    ⟨["x"], ["a"], "", "Relu", []⟩,
    ⟨["a"], ["b"], "", "Identity", []⟩,
    ⟨["b"], ["y"], second, "Relu", []⟩]
  name := "g"
  initializers := []
  inputs := [⟨"x", .tensor 1 (some [.value 1, .value 2])⟩]
  outputs := [⟨"y", .tensor 1 (some [.value 1, .value 2])⟩]

/-- What the activations are lifted to. -/
def liftedActivations (second : String) : NetPack.Graph Binary32 where
  name := "g"
  input := ⟨"x", ⟨[1, 2]⟩, []⟩
  output := ⟨"y", ⟨[1, 2]⟩, []⟩
  nodes := [⟨"relu_0", .activation .relu, "x", [], "a", ⟨[1, 2]⟩⟩,
    ⟨second, .activation .relu, "a", [], "y", ⟨[1, 2]⟩⟩]
  params := .empty

/-- A model with this graph alone. -/
def modelOf (graph : Graph) : Model := ⟨7, "", "", [⟨"", 14⟩], some graph⟩

/-- The name that would be made up for the copy is free, because the copy leaves no node. -/
theorem toGraph_nodeNames_copied :
    toGraph (modelOf (activations "identity_1")) 1 = .ok (liftedActivations "identity_1") ∧
      (activations "identity_1").givenNames.Nodup ∧ ¬ (activations "identity_1").Clash ∧
      ((liftedActivations "identity_1").nodes.map (·.name)).Nodup ∧
      ∀ name, (liftedActivations "identity_1").validate ≠
        Outcome.report (.graph (.duplicateNode name)) := by
  have hlift : toGraph (modelOf (activations "identity_1")) 1 =
    .ok (liftedActivations "identity_1") := rfl
  have hgiven : (activations "identity_1").givenNames.Nodup := by decide
  have hclash : ¬ (activations "identity_1").Clash := by decide +kernel
  obtain ⟨graph, hgraph, -, hnodup, hvalidate, -⟩ := toGraph_nodeNames hlift
  obtain rfl : activations "identity_1" = graph := Option.some.inj hgraph
  exact ⟨hlift, hgiven, hclash, (hnodup hgiven).2 hclash, hvalidate hgiven hclash⟩

/-- **A name that is made up may be taken.** The first activation, which has no name, and the second
one become two nodes `relu_0`. -/
theorem not_forall_nodup_nodeNames : ¬ ∀ (m : Model) (graph : Graph) (batch : Nat)
    (g : NetPack.Graph Binary32), m.graph = some graph → graph.givenNames.Nodup →
      toGraph m batch = .ok g → (g.nodes.map (·.name)).Nodup := by
  intro h
  have hlift : toGraph (modelOf (activations "relu_0")) 1 = .ok (liftedActivations "relu_0") := rfl
  have hnodup := h _ _ 1 _ rfl (by decide) hlift
  exact absurd hnodup (by decide)

end Exchange

end NetPack
