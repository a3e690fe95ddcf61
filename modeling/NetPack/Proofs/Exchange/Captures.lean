import NetPack.Proofs.Exchange.Definitions
import NetPack.Proofs.Exchange.RoundTrip

/-!
# Names that capture one another

A graph has one space of names for its values and one for its parameters. In an exchange file both
share one space with the bounds of cuts, whose names are made up from the names of nodes, and
nothing keeps them apart. So the initializers of a valid graph have names of their own exactly if no
parameter is called like a bound, and a value is taken for a constant exactly if it is called like a
parameter or like a bound (`Exchange.names_of_ofGraph`).

Where names are shared, the last initializer of a name counts. Bounds stand behind the parameters,
so the weight of a layer is replaced by the bound of a cut. A node whose value has the name of a
constant reads no value at all, and its file is refused. Both happens to valid graphs
(`Exchange.not_forall_apart`).
-/

namespace NetPack

namespace Exchange

/-- The name is the one of a bound of a cut. -/
def NamesBound (g : NetPack.Graph Binary32) (v : String) : Prop :=
  ∃ n ∈ g.nodes, n.op = .activation .relu6 ∧
    (v = n.name ++ ".clip_min" ∨ v = n.name ++ ".clip_max")

/-- The name is the one of a parameter or of a bound. -/
def NamesConstant (g : NetPack.Graph Binary32) (v : String) : Prop :=
  (g.params.find? v).isSome ∨ NamesBound g v

instance (g : NetPack.Graph Binary32) (v : String) : Decidable (NamesBound g v) :=
  inferInstanceAs (Decidable (∃ n ∈ g.nodes, n.op = .activation .relu6 ∧
    (v = n.name ++ ".clip_min" ∨ v = n.name ++ ".clip_max")))

instance (g : NetPack.Graph Binary32) (v : String) : Decidable (NamesConstant g v) :=
  inferInstanceAs (Decidable ((g.params.find? v).isSome ∨ NamesBound g v))

variable {g : NetPack.Graph Binary32} {n : Node Binary32} {ns : List (Node Binary32)} {v : String}

/-! ### The names of the initializers -/

/-- The names of the bounds of a node. -/
def boundNames (n : Node Binary32) : List String := (boundTensors n).map (·.1)

theorem mem_boundNames : v ∈ boundNames n ↔ n.op = .activation .relu6 ∧
    (v = n.name ++ ".clip_min" ∨ v = n.name ++ ".clip_max") := by
  unfold boundNames boundTensors
  split
  · rename_i hop
    simp [hop]
  · rename_i hop
    simp only [List.map_nil, List.not_mem_nil, false_iff, not_and]
    exact fun heq => absurd heq hop

theorem namesBound_iff : NamesBound g v ↔ v ∈ g.nodes.flatMap boundNames := by
  simp only [NamesBound, List.mem_flatMap, mem_boundNames]

theorem initializerNames_loweredGraph (g : NetPack.Graph Binary32) :
    (loweredGraph g).initializerNames = g.params.names ++ g.nodes.flatMap boundNames := by
  simp only [Graph.initializerNames, loweredGraph, constantTensors, Table.names, List.map_map,
    List.map_append, List.map_flatMap]
  rfl

theorem mem_initializerNames :
    v ∈ (loweredGraph g).initializerNames ↔ NamesConstant g v := by
  rw [initializerNames_loweredGraph, List.mem_append, NamesConstant, namesBound_iff,
    Table.mem_names_iff]

theorem nodup_boundNames (n : Node Binary32) : (boundNames n).Nodup := by
  unfold boundNames boundTensors
  split
  · simp
  · exact List.nodup_nil

/-- Bounds of one name are bounds of one node. -/
theorem name_eq_of_mem_boundNames {m : Node Binary32} (hn : v ∈ boundNames n)
    (hm : v ∈ boundNames m) : n.name = m.name := by
  obtain ⟨-, rfl | rfl⟩ := mem_boundNames.1 hn
  all_goals
    obtain ⟨-, heq | heq⟩ := mem_boundNames.1 hm
  · exact (String.append_left_inj _).1 heq
  · exact absurd heq (clip_min_ne_clip_max _ _)
  · exact absurd heq.symm (clip_min_ne_clip_max _ _)
  · exact (String.append_left_inj _).1 heq

/-- The bounds of nodes that have names of their own have names of their own. -/
theorem nodup_flatMap_boundNames (h : (ns.map (·.name)).Nodup) :
    (ns.flatMap boundNames).Nodup := by
  induction ns with
  | nil => exact List.nodup_nil
  | cons n ns ih =>
    obtain ⟨hname, hrest⟩ := List.nodup_cons.1 h
    rw [List.flatMap_cons, List.nodup_append]
    refine ⟨nodup_boundNames n, ih hrest, ?_⟩
    rintro v hv _ hmem rfl
    obtain ⟨m, hm, hbound⟩ := List.mem_flatMap.1 hmem
    exact hname (List.mem_map.2 ⟨m, hm, (name_eq_of_mem_boundNames hv hbound).symm⟩)

/-- **When the initializers have names of their own.** -/
theorem nodup_initializerNames (hg : g.Valid) : (loweredGraph g).initializerNames.Nodup ↔
    ∀ p, (g.params.find? p).isSome → ¬ NamesBound g p := by
  obtain ⟨-, -, -, hfits, -⟩ := NetPack.Graph.valid_iff.1 hg
  rw [initializerNames_loweredGraph, List.nodup_append]
  constructor
  · rintro ⟨-, -, hapart⟩ p hp hbound
    exact hapart p (Table.mem_names_iff.2 hp) p (namesBound_iff.1 hbound) rfl
  · intro hapart
    refine ⟨g.params.nodup_names, nodup_flatMap_boundNames hfits.nodup, ?_⟩
    rintro p hp _ hbound rfl
    exact hapart p (Table.mem_names_iff.1 hp) (namesBound_iff.2 hbound)

/-! ### Operands that are read back -/

section Operands

variable {constants : Constants}

/-- Behind the value that a node reads there are only constants. -/
theorem constant_of_mem_tail (hconstants : constantsOf (loweredGraph g) = .ok constants)
    (hn : n ∈ g.nodes) (hbound : ∀ p ∈ n.params, (g.params.find? p).isSome) :
    ∀ i ∈ n.params ++ boundNames n, constants.lookup i ≠ none := by
  intro i hi hnone
  refine (lookup_constantsOf_eq_none hconstants).1 hnone (mem_initializerNames.2 ?_)
  rcases List.mem_append.1 hi with hi | hi
  · exact .inl (hbound i hi)
  · exact .inr (namesBound_iff.2 (List.mem_flatMap.2 ⟨n, hn, hi⟩))

theorem lookup_eq_none_iff (hconstants : constantsOf (loweredGraph g) = .ok constants) :
    constants.lookup v = none ↔ ¬ NamesConstant g v := by
  rw [lookup_constantsOf_eq_none hconstants, mem_initializerNames]

/-- **What a node reads back.** Its value is found exactly if it is not called like a constant;
otherwise it is read back as one. -/
theorem split_ofNode (hconstants : constantsOf (loweredGraph g) = .ok constants)
    (hn : n ∈ g.nodes) (hbound : ∀ p ∈ n.params, (g.params.find? p).isSome)
    (hinputs : ∀ i ∈ (Operator.ofNode g.params n).inputs, i ≠ "") :
    (Operator.ofNode g.params n).valueOperands constants =
        (if NamesConstant g n.input then [] else [n.input]) ∧
      (Operator.ofNode g.params n).constantOperands constants =
        if NamesConstant g n.input then n.input :: n.params ++ boundNames n
        else n.params ++ boundNames n := by
  have hoperands := Operator.operands_eq hinputs
  rw [inputs_ofNode] at hoperands
  have htail := constant_of_mem_tail hconstants hn hbound
  by_cases hcaptured : NamesConstant g n.input
  · rw [if_pos hcaptured, if_pos hcaptured]
    refine Operator.split_of_constant hoperands htail ?_
    rw [ne_eq, lookup_eq_none_iff hconstants]
    exact not_not.2 hcaptured
  · rw [if_neg hcaptured, if_neg hcaptured]
    exact Operator.split_of_value hoperands htail ((lookup_eq_none_iff hconstants).2 hcaptured)

/-- A file from which a graph is read back has no node whose value is called like a constant. -/
theorem not_namesConstant_of_toGraph {batch : Nat} {g' : NetPack.Graph Binary32}
    (h : toGraph (.ofGraph g) batch = .ok g') (hn : n ∈ g.nodes)
    (hbound : ∀ p ∈ n.params, (g.params.find? p).isSome) : ¬ NamesConstant g n.input := by
  obtain ⟨graph, constants, s, value, hgraph, hconstants, hfold, -⟩ := toGraph_eq_ok h
  rw [graph_ofGraph, Option.some.injEq] at hgraph
  subst hgraph
  -- The operator of the node was lifted, so one of its operands is a value.
  have hoperator : Operator.ofNode g.params n ∈ (loweredGraph g).operators.zipIdx.map (·.1) := by
    rw [List.zipIdx_map_fst]
    exact List.mem_map_of_mem hn
  obtain ⟨⟨_, k⟩, hk, rfl⟩ := List.mem_map.1 hoperator
  obtain ⟨before, after, hlift⟩ := Outcome.exists_of_mem_foldlM hfold hk
  obtain ⟨source, _, _, _, hsource, -⟩ := liftNode_eq_ok hlift
  obtain ⟨hmem, -, hnone⟩ :=
    Operator.mem_valueOperands.1 (hsource ▸ List.mem_singleton_self source)
  rw [inputs_ofNode, List.mem_cons] at hmem
  rcases hmem with rfl | hmem
  · exact (lookup_eq_none_iff hconstants).1 hnone
  · exact absurd hnone (constant_of_mem_tail hconstants hn hbound source hmem)

end Operands

/-! ### Valid graphs -/

/-- **Which names of an exported graph capture one another.** The initializers of a valid graph have
names of their own exactly if no parameter is called like a bound, and a value has the name of an
initializer exactly if it is called like a parameter or like a bound. When the file is read, a
parameter that is called like a bound is replaced by it, and the others are kept. A node reads its
value back as a constant exactly if the value is called like one, and then the file is refused. -/
theorem names_of_ofGraph (hg : g.Valid) : ∃ file, (Model.ofGraph g).graph = some file ∧
    (file.initializerNames.Nodup ↔ ∀ p, (g.params.find? p).isSome → ¬ NamesBound g p) ∧
    (∀ v ∈ g.valueNames, v ∈ file.initializerNames ↔ NamesConstant g v) ∧
    ((∀ p t, g.params.find? p = some t → Writable t) →
      ∃ constants, constantsOf file = .ok constants ∧
        (∀ p t, g.params.find? p = some t → ¬ NamesBound g p → constants.lookup p = some t) ∧
        ∀ p, NamesBound g p → constants.lookup p = some ⟨⟨[]⟩, #[0]⟩ ∨
          constants.lookup p = some ⟨⟨[]⟩, #[Scalar.count 6]⟩) ∧
    (∀ constants, constantsOf file = .ok constants → ∀ n ∈ g.nodes,
      (∀ i ∈ (Operator.ofNode g.params n).inputs, i ≠ "") →
      (Operator.ofNode g.params n).valueOperands constants =
          (if NamesConstant g n.input then [] else [n.input]) ∧
        (Operator.ofNode g.params n).constantOperands constants =
          if NamesConstant g n.input then n.input :: n.params ++ boundNames n
          else n.params ++ boundNames n) ∧
    ∀ n ∈ g.nodes, NamesConstant g n.input → ∀ batch,
      ∃ e, toGraph (.ofGraph g) batch = .error e := by
  obtain ⟨-, -, -, hfits, -⟩ := NetPack.Graph.valid_iff.1 hg
  have hbound := hfits.bound
  refine ⟨loweredGraph g, graph_ofGraph g, nodup_initializerNames hg,
    fun v _ => mem_initializerNames, fun hwritable => ?_, ?_, ?_⟩
  · refine ⟨constantsFor g, constantsOf_loweredGraph hwritable, fun p t ht hp => ?_,
      fun p hp => ?_⟩
    · refine lookup_param ht fun n hn e he heq => hp (namesBound_iff.2 ?_)
      exact List.mem_flatMap.2 ⟨n, hn, heq ▸ List.mem_map_of_mem he⟩
    · obtain ⟨n, hn, hp⟩ := List.mem_flatMap.1 (namesBound_iff.1 hp)
      obtain ⟨e, he, rfl⟩ := List.mem_map.1 hp
      rw [lookup_bound hn he]
      rcases mem_boundTensors he with rfl | rfl
      · exact .inl rfl
      · exact .inr rfl
  · intro constants hconstants n hn hinputs
    exact split_ofNode hconstants hn (hbound n hn) hinputs
  · intro n hn hcaptured batch
    cases h : toGraph (.ofGraph g) batch with
    | error e => exact ⟨e, rfl⟩
    | ok g' => exact absurd hcaptured (not_namesConstant_of_toGraph h hn (hbound n hn))

/-- A fully connected layer with the given weight, its value, and a cut of it. -/
def clippedLayer (weight value : String) : NetPack.Graph Binary32 where
  name := "g"
  input := ⟨"x", ⟨[1, 1]⟩, []⟩
  output := ⟨"y", ⟨[1, 1]⟩, []⟩
  nodes :=
    [⟨"fc", .linear, "x", [weight], value, ⟨[1, 1]⟩⟩,
      ⟨"act", .activation .relu6, value, [], "y", ⟨[1, 1]⟩⟩]
  params := .ofList [(weight, ⟨⟨[1, 1]⟩, #[Scalar.count 2]⟩)]

/-- Names that do not meet, and a value that is called like a weight. -/
theorem names_of_ofGraph_clipped :
    (∃ file, (Model.ofGraph (clippedLayer "w" "h")).graph = some file ∧
      file.initializerNames.Nodup ∧
      ∀ v ∈ (clippedLayer "w" "h").valueNames, v ∉ file.initializerNames) ∧
    ∃ e, toGraph (.ofGraph (clippedLayer "w" "w")) 1 = .error e := by
  constructor
  · have hvalid : (clippedLayer "w" "h").Valid := by decide
    obtain ⟨file, hfile, hnodup, hvalues, -⟩ := names_of_ofGraph hvalid
    refine ⟨file, hfile, hnodup.2 fun p hp => ?_, fun v hv => ?_⟩
    · obtain rfl : p = "w" := by
        have hmem := Table.mem_names_iff.2 hp
        exact List.mem_singleton.1 hmem
      decide
    · rw [hvalues v hv]
      revert v
      decide
  · have hvalid : (clippedLayer "w" "w").Valid := by decide
    obtain ⟨file, -, -, -, -, -, hrefused⟩ := names_of_ofGraph hvalid
    exact hrefused ⟨"act", .activation .relu6, "w", [], "y", ⟨[1, 1]⟩⟩ (by simp [clippedLayer])
      (by decide) 1

/-- **Exported names may capture one another.** A weight may be called like a bound of a cut, and a
value like a weight. -/
theorem not_forall_apart :
    (¬ ∀ g : NetPack.Graph Binary32, g.Valid → ∃ file, (Model.ofGraph g).graph = some file ∧
      file.initializerNames.Nodup) ∧
    ¬ ∀ g : NetPack.Graph Binary32, g.Valid → ∃ file, (Model.ofGraph g).graph = some file ∧
      ∀ v ∈ g.valueNames, v ∉ file.initializerNames := by
  constructor
  · intro h
    obtain ⟨file, hfile, hnodup⟩ := h (clippedLayer "act.clip_max" "h") (by decide)
    obtain rfl := Option.some.inj hfile
    exact absurd hnodup (by decide)
  · intro h
    obtain ⟨file, hfile, hvalues⟩ := h (clippedLayer "w" "w") (by decide)
    obtain rfl := Option.some.inj hfile
    exact absurd hvalues (by decide)

end Exchange

end NetPack
