import Mathlib.Data.List.Nodup
import NetPack.Proofs.Exchange.Accepted
import NetPack.Proofs.Exchange.Lifted

/-!
# Names that are defined once

An exchange graph defines names in three ways: by an initializer, as its input, and as the first
result of an operator (`Exchange.Graph.definitions`). The checks of a file see only a part of them.
Lifting keeps the last of several definitions, and validation looks at the values of the lifted
graph, in which neither initializers nor operators that change nothing are left.

So the input and the results of operators that compute something have names of their own in every
file that is accepted (`Exchange.validate_definitions`), but the name of an initializer or of a
result that is only another name for a value may be defined again
(`Exchange.not_forall_nodup_definitions`). Where nothing is defined twice, all names are unambiguous
(`Exchange.Naming.Unambiguous`): an initializer is not hidden by another one, and a value that was
defined keeps its meaning.
-/

namespace NetPack

namespace Exchange

/-! ### Definitions -/

/-- The first result of an operator. -/
def Operator.result? (o : Operator) : Option String := o.outputs.head?

namespace Graph

/-- The names of the initializers. -/
def initializerNames (graph : Graph) : List String := graph.initializers.map (·.name)

/-- The first results of all operators. -/
def results (graph : Graph) : List String := graph.operators.filterMap (·.result?)

/-- The first results of operators that compute something. -/
def computed (graph : Graph) : List String :=
  (graph.operators.filter fun o => !o.isAlias).filterMap (·.result?)

/-- The first results of operators that change nothing. -/
def renamed (graph : Graph) : List String :=
  (graph.operators.filter (·.isAlias)).filterMap (·.result?)

/-- All names that a graph with the given input defines, as often as it defines them. -/
def definitions (graph : Graph) (input : String) : List String :=
  graph.initializerNames ++ input :: graph.results

end Graph

namespace Graph

variable {graph : Graph} {input name : String}

theorem computed_eq : graph.computed = graph.computing.filterMap (·.1.result?) := by
  have hfst : graph.operators.filter (fun o => !o.isAlias) = graph.computing.map (·.1) := by
    conv_lhs => rw [← List.zipIdx_map_fst 0 graph.operators]
    rw [List.filter_map]
    rfl
  rw [computed, hfst, List.filterMap_map]
  rfl

/-- All results are computed or other names for a value. -/
theorem results_perm (graph : Graph) : (graph.computed ++ graph.renamed).Perm graph.results := by
  rw [computed, renamed, ← List.filterMap_append]
  refine List.Perm.filterMap _ (List.perm_append_comm.trans ?_)
  exact List.filter_append_perm (·.isAlias) graph.operators

/-- What is defined twice is the name of an initializer or another name for a value. -/
theorem count_definitions (hnodup : (input :: graph.computed).Nodup)
    (hinitializer : name ∉ graph.initializerNames) (hrenamed : name ∉ graph.renamed) :
    (graph.definitions input).count name ≤ 1 := by
  have hresults : graph.results.count name = graph.computed.count name := by
    rw [← (results_perm graph).count_eq, List.count_append, List.count_eq_zero_of_not_mem hrenamed,
      Nat.add_zero]
  rw [definitions, List.count_append, List.count_eq_zero_of_not_mem hinitializer, Nat.zero_add,
    List.count_cons, hresults, ← List.count_cons]
  exact List.nodup_iff_count_le_one.1 hnodup name

end Graph

/-- Every name means the same wherever it is read. -/
structure Naming.Unambiguous (N : Naming) : Prop where
  /-- All initializers are kept. -/
  constants : ∀ t ∈ N.graph.initializers, ∃ tensor, t.toTensor = .ok tensor ∧
    N.constants.lookup t.name = some tensor
  /-- A name keeps the value that it stands for. -/
  values : ∀ {k k' : Nat} {name value : String}, N.denotes k name = some value → k ≤ k' →
    N.denotes k' name = some value
  /-- A name for a value is no name for a constant. -/
  apart : ∀ {k : Nat} {name value : String}, N.denotes k name = some value →
    N.constants.lookup name = none

/-! ### Constants -/

section Constants

variable {graph : Graph} {constants : Constants}

/-- Every initializer is read. -/
theorem exists_mem_constantsOf (h : constantsOf graph = .ok constants) :
    ∀ t ∈ graph.initializers, ∃ tensor, t.toTensor = .ok tensor ∧ (t.name, tensor) ∈ constants := by
  unfold constantsOf at h
  generalize graph.initializers = ts at h
  induction ts using List.reverseRecOn generalizing constants with
  | nil => simp
  | append_singleton ts t ih =>
    rw [List.foldlM_append] at h
    obtain ⟨before, hbefore, h⟩ := Outcome.bind_eq_ok.1 h
    rw [List.foldlM_cons] at h
    simp only [List.foldlM_nil, bind_pure] at h
    split at h
    · rename_i tensor htensor
      obtain rfl := Except.ok.inj h
      refine List.forall_mem_append.2 ⟨fun t' ht' => ?_,
        List.forall_mem_singleton.2 ⟨tensor, htensor, List.mem_cons_self⟩⟩
      obtain ⟨tensor', htensor', hmem⟩ := ih hbefore t' ht'
      exact ⟨tensor', htensor', List.mem_cons_of_mem _ hmem⟩
    · cases h

theorem lookup_constantsOf_eq_none (h : constantsOf graph = .ok constants) {name : String} :
    constants.lookup name = none ↔ name ∉ graph.initializerNames := by
  rw [List.lookup_eq_none_iff, Graph.initializerNames, List.mem_map]
  constructor
  · rintro hnone ⟨t, ht, rfl⟩
    obtain ⟨tensor, -, hmem⟩ := exists_mem_constantsOf h t ht
    simpa using hnone _ hmem
  · intro hname e he
    obtain ⟨t, ht, htname, -⟩ := exists_of_constantsOf h e he
    have hne : name ≠ e.1 := fun heq => hname ⟨t, ht, htname.trans heq.symm⟩
    simpa using hne

/-- Initializers with names of their own are all kept. -/
theorem lookup_constantsOf (h : constantsOf graph = .ok constants)
    (hnodup : graph.initializerNames.Nodup) : ∀ t ∈ graph.initializers, ∃ tensor,
      t.toTensor = .ok tensor ∧ constants.lookup t.name = some tensor := by
  intro t ht
  obtain ⟨tensor, htensor, hmem⟩ := exists_mem_constantsOf h t ht
  refine ⟨tensor, htensor, Table.lookup_of_mem hmem fun tensor' hmem' => ?_⟩
  obtain ⟨t', ht', hname, htensor'⟩ := exists_of_constantsOf h _ hmem'
  obtain rfl : t' = t := List.inj_on_of_nodup_map hnodup ht' ht hname
  exact Except.ok.inj (htensor'.symm.trans htensor)

end Constants

/-! ### Values -/

section Values

variable {constants : Constants} {input name value : String} {os os' : List Operator}

theorem define_of_ne {denotes : String → Option String} {o : Operator}
    (h : o.result? ≠ some name) : o.define constants denotes name = denotes name := if_neg h

/-- Operators that do not define a name leave it what it means. -/
theorem meanings_append_of_not_mem (h : name ∉ os'.filterMap (·.result?)) :
    meanings constants input (os ++ os') name = meanings constants input os name := by
  induction os' using List.reverseRecOn with
  | nil => rw [List.append_nil]
  | append_singleton os' o ih =>
    rw [List.filterMap_append, List.mem_append, not_or] at h
    rw [← List.append_assoc, meanings_append, define_of_ne ?_, ih h.1]
    intro hresult
    exact h.2 (by simp [hresult])

/-- What stands for a value is the input or was defined. -/
theorem mem_of_meanings (h : meanings constants input os name = some value) :
    name ∈ input :: os.filterMap (·.result?) := by
  by_contra hmem
  rw [List.mem_cons, not_or] at hmem
  have hstart : meanings constants input ([] ++ os) name = meanings constants input [] name :=
    meanings_append_of_not_mem hmem.2
  rw [List.nil_append, h] at hstart
  simp [meanings, hmem.1] at hstart

end Values

namespace Naming

variable {N : Naming}

/-- **Where nothing is defined twice, names are unambiguous.** -/
theorem unambiguous (hconstants : constantsOf N.graph = .ok N.constants)
    (hnodup : (N.graph.definitions N.input).Nodup) : N.Unambiguous := by
  obtain ⟨hinitializers, hvalues, hapart⟩ := List.nodup_append.1 hnodup
  have hresults : ∀ k, N.graph.results = (N.graph.operators.take k).filterMap (·.result?) ++
      (N.graph.operators.drop k).filterMap (·.result?) := by
    intro k
    rw [← List.filterMap_append, List.take_append_drop]
    rfl
  have hdefined : ∀ {k name value}, N.denotes k name = some value →
      name ∈ N.input :: (N.graph.operators.take k).filterMap (·.result?) :=
    fun h => mem_of_meanings h
  refine ⟨lookup_constantsOf hconstants hinitializers, ?_, ?_⟩
  · intro k k' name value h hle
    -- What is defined behind operator `k` has other names than what was defined before it.
    have hlater : name ∉ (N.graph.operators.drop k).filterMap (·.result?) := by
      rw [hresults k, ← List.cons_append] at hvalues
      intro hmem
      exact (List.nodup_append.1 hvalues).2.2 _ (hdefined h) _ hmem rfl
    have htake : N.graph.operators.take k' =
        N.graph.operators.take k ++ (N.graph.operators.drop k).take (k' - k) := by
      rw [← List.take_add, Nat.add_sub_cancel' hle]
    rw [denotes, htake, meanings_append_of_not_mem, ← denotes, h]
    exact fun hmem => hlater (((List.take_sublist _ _).filterMap _).subset hmem)
  · intro k name value h
    refine (lookup_constantsOf_eq_none hconstants).2 fun hmem => ?_
    refine hapart _ hmem _ ?_ rfl
    rw [hresults k, ← List.cons_append]
    exact List.mem_append_left _ (hdefined h)

end Naming

/-! ### Accepted files -/

section Accepted

variable {N : Naming} {m : Model} {g : NetPack.Graph Binary32}

/-- The values of the lifted graph are the results of the operators that compute something. -/
theorem Naming.outputs_eq (hbuilt : List.Forall₂ N.BuiltFrom N.graph.computing g.nodes) :
    g.nodes.map (·.output) = N.graph.computed.map N.final := by
  rw [Graph.computed_eq]
  generalize N.graph.computing = os, g.nodes = ns at hbuilt
  induction hbuilt with
  | nil => rfl
  | @cons o n os ns hbuilt _ ih =>
    obtain ⟨name, hname, houtput⟩ := hbuilt.output
    have hresult : o.1.result? = some name := hname
    rw [List.map_cons, List.filterMap_cons, hresult, List.map_cons, houtput, ih]

/-- The first node of a valid graph reads the input. -/
theorem input_of_valid {n : Node Binary32} {ns : List (Node Binary32)} (hvalid : g.Valid)
    (hnodes : g.nodes = n :: ns) : n.input = g.input.name := by
  obtain ⟨-, -, -, hall, -⟩ := NetPack.Graph.valid_iff.1 hvalid
  rw [hnodes] at hall
  obtain ⟨input, hinput, -⟩ := hall.1.inferred
  exact congrArg Prod.fst (List.mem_singleton.1 (Table.mem_of_lookup hinput))

/-- **The input and what is computed have names of their own.** -/
theorem Naming.Describes.nodup_computed (hN : N.Describes m g) (hvalid : g.Valid)
    (hbuilt : List.Forall₂ N.BuiltFrom N.graph.computing g.nodes) :
    (N.input :: N.graph.computed).Nodup := by
  obtain ⟨-, -, -, hall, -⟩ := NetPack.Graph.valid_iff.1 hvalid
  have houtputs := Naming.outputs_eq hbuilt
  have hnodup := hall.nodup_outputs
  rw [houtputs] at hnodup
  refine List.nodup_cons.2 ⟨fun hmem => ?_, hnodup.of_map N.final⟩
  -- Only a value that is called as the output in the end could have the name of the input before.
  have hfresh : N.final N.input ≠ N.input := by
    intro hfinal
    have hout : N.input ∈ g.nodes.map (·.output) := by
      rw [houtputs, ← hfinal]
      exact List.mem_map_of_mem hmem
    obtain ⟨n, hn, hname⟩ := List.mem_map.1 hout
    have hlookup := hall.lookup_output n hn
    rw [hname, hN.input] at hlookup
    simp [NetPack.Graph.Scope.initial] at hlookup
  obtain ⟨value, -, hfinal⟩ := hN.final
  have hlost : ∀ name, N.final name ≠ N.input := by
    intro name heq
    rw [hfinal] at hfresh heq
    dsimp only at hfresh heq
    split at heq
    · rename_i hvalue
      split at hfresh
      · exact hfresh heq
      · exact hfresh rfl
    · rename_i hvalue
      rw [heq] at hvalue
      rw [if_neg hvalue] at hfresh
      exact hfresh rfl
  -- But then the first node could not read the input.
  cases hnodes : g.nodes with
  | nil =>
    rw [hnodes] at houtputs
    rw [List.map_eq_nil_iff.1 houtputs.symm] at hmem
    cases hmem
  | cons n ns =>
    rw [hnodes] at hbuilt
    obtain ⟨o, os, hfirst, -, -⟩ := List.forall₂_cons_right_iff.1 hbuilt
    obtain ⟨-, value, -, -, hinput⟩ := hfirst.input
    exact hlost value (hinput.symm.trans ((input_of_valid hvalid hnodes).trans hN.input.symm))

/-- The input of a valid graph is no initializer. -/
theorem Naming.Describes.input_not_mem {batch : Nat} (hN : N.Describes m g) (hvalid : g.Valid)
    (hlift : toGraph m batch = .ok g) : N.input ∉ N.graph.initializerNames := by
  obtain ⟨graph, constants, s, value, hgraph, hconstants, hfold, -, hnodes, -, -, -⟩ :=
    toGraph_eq_ok hlift
  obtain rfl : N.graph = graph := Option.some.inj (hN.graph.symm.trans hgraph)
  have hread := input_read hfold fun hnil =>
    (NetPack.Graph.valid_iff.1 hvalid).1 (by rw [hnodes, hnil, List.map_nil])
  rw [hN.input]
  exact (lookup_constantsOf_eq_none hconstants).1 hread.2

/-- **What is defined once in an accepted file.** The input and everything that is computed have
names of their own, and the input is no initializer. Every other name has one definition at most,
unless it is that of an initializer or another name for a value. If nothing at all is defined twice,
then every name that a node reads means one thing only. -/
theorem validate_definitions {bytes : Bytes} {batch : Nat} {report : Report}
    (h : validate bytes batch = .ok (g, report)) : ∃ (m : Model) (N : Naming),
      decode bytes = .ok m ∧ N.Describes m g ∧
      List.Forall₂ N.BuiltFrom N.graph.computing g.nodes ∧
      (N.input :: N.graph.computed).Nodup ∧ N.input ∉ N.graph.initializerNames ∧
      (∀ name, name ∉ N.graph.initializerNames → name ∉ N.graph.renamed →
        (N.graph.definitions N.input).count name ≤ 1) ∧
      ((N.graph.definitions N.input).Nodup → N.Unambiguous) := by
  obtain ⟨m, hread, -, hlift, hvalid⟩ := exists_of_validate h
  obtain ⟨N, hN, hbuilt, -⟩ := exists_naming hlift
  have hdecode : decode bytes = .ok m := by rw [decode, hread]
  have hnodup := hN.nodup_computed hvalid hbuilt
  exact ⟨m, N, hdecode, hN, hbuilt, hnodup, hN.input_not_mem hvalid hlift,
    fun name => Graph.count_definitions hnodup, Naming.unambiguous hN.constants⟩

/-- An activation `a = Relu(x)`, another name for `x`, and the result `y = Flatten(a)`. -/
def copyModel (copy : String) : Model where
  irVersion := 7
  producerName := ""
  producerVersion := ""
  operatorSets := [⟨"", 14⟩]
  graph := some {
    operators := [
      ⟨["x"], ["a"], "relu", "Relu", []⟩,
      ⟨["x"], [copy], "id", "Identity", []⟩,
      ⟨["a"], ["y"], "flat", "Flatten", []⟩]
    name := "g"
    initializers := []
    inputs := [⟨"x", .tensor 1 (some [.value 1, .value 2])⟩]
    outputs := [⟨"y", .tensor 1 (some [.value 1, .value 2])⟩] }

/-- The graph of the model, where `Flatten` reads the given value. -/
def copyGraph (read : String) : NetPack.Graph Binary32 where
  name := "g"
  input := ⟨"x", ⟨[1, 2]⟩, []⟩
  output := ⟨"y", ⟨[1, 2]⟩, []⟩
  nodes := [⟨"relu", .activation .relu, "x", [], "a", ⟨[1, 2]⟩⟩,
    ⟨"flat", .flatten, read, [], "y", ⟨[1, 2]⟩⟩]
  params := .empty

theorem decode_copyModel (copy : String) (hlen : (copyModel copy).encode.length < Word.modulus) :
    decode (copyModel copy).encode = .ok (copyModel copy) := by
  have hstorable : (copyModel copy).Storable := by
    refine ⟨by simp [copyModel, Long], by simp [copyModel, OperatorSet.Storable, Long], ?_⟩
    rintro _ ⟨⟩
    refine ⟨by simp [Operator.Storable], by simp, ?_, ?_⟩ <;>
      simp [Value.Storable, ValueType.Storable, Dimension.Storable, Short, Long]
  rw [decode, Model.decode?_encode hstorable hlen]

theorem definitions_copyModel {copy : String} {N : Naming} (hN : N.Describes (copyModel copy) g) :
    N.graph.definitions N.input = [g.input.name, "a", copy, "y"] := by
  have hgraph := Option.some.inj hN.graph
  rw [hN.input, ← hgraph]
  rfl

/-- Names of their own are accepted and unambiguous. -/
theorem validate_definitions_copy :
    validate (copyModel "b").encode 1 = .ok (copyGraph "a", ⟨"", 7, 14, 3, 0⟩) ∧
      ∃ N : Naming, N.Describes (copyModel "b") (copyGraph "a") ∧ N.Unambiguous := by
  have hdecode := decode_copyModel "b" (by decide +kernel)
  have hvalidate : validate (copyModel "b").encode 1 = .ok (copyGraph "a", ⟨"", 7, 14, 3, 0⟩) := by
    rw [validate, hdecode]
    rfl
  refine ⟨hvalidate, ?_⟩
  obtain ⟨m, N, hm, hN, -, -, -, -, hsingle⟩ := validate_definitions hvalidate
  obtain rfl : copyModel "b" = m := Except.ok.inj (hdecode.symm.trans hm)
  refine ⟨N, hN, hsingle ?_⟩
  rw [definitions_copyModel hN]
  decide

/-- **A name that is given to a value twice is accepted.** What is called `a` is the activation
first and the input then, and the result is that of the input. -/
theorem not_forall_nodup_definitions : ¬ ∀ (bytes : Bytes) (batch : Nat)
    (g : NetPack.Graph Binary32) (report : Report), validate bytes batch = .ok (g, report) →
      ∃ (m : Model) (N : Naming), decode bytes = .ok m ∧ N.Describes m g ∧
        (N.graph.definitions N.input).Nodup := by
  intro h
  have hdecode := decode_copyModel "a" (by decide +kernel)
  have hvalidate : validate (copyModel "a").encode 1 = .ok (copyGraph "x", ⟨"", 7, 14, 3, 0⟩) := by
    rw [validate, hdecode]
    rfl
  obtain ⟨m, N, hm, hN, hnodup⟩ := h _ _ _ _ hvalidate
  obtain rfl : copyModel "a" = m := Except.ok.inj (hdecode.symm.trans hm)
  rw [definitions_copyModel hN] at hnodup
  exact absurd hnodup (by decide)

end Accepted

end Exchange

end NetPack
