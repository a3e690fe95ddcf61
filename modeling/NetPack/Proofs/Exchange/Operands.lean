import Mathlib.Data.List.DropRight
import NetPack.Exchange.Lift
import NetPack.Proofs.Outcomes
import NetPack.Proofs.Tables

/-!
# Operands of lifted operators

Lifting tells the operands of an operator apart by asking which of them are constants, and does not
look at their positions. What a node reads is therefore the one operand that is no constant, and its
parameters are the constants in the order in which they are listed (`Exchange.BuiltFrom`). Values
are followed through operators that change nothing (`Exchange.meanings`), and the value under
which the output is known gets the name of the output.

The operands keep the roles that their positions give them exactly when they stand in order: the
value first, and behind it the parameters without a gap (`Exchange.toGraph_operands`). Operands in
another order are not refused: a product whose weight is listed before the value is lifted as if it
were the other way round (`Exchange.not_forall_keepsRoles`).
-/

namespace NetPack

namespace Exchange

/-! ### Operands and names -/

namespace Operator

/-- Does the operator change nothing, so that it only gives a value another name? -/
def isAlias (o : Operator) : Bool := o.type == "Dropout" || o.type == "Identity"

/-- The operands that are given. An empty name stands for one that is left out. -/
def operands (o : Operator) : List String := o.inputs.filter fun i => !i.isEmpty

/-- The operands that are constants. -/
def constantOperands (o : Operator) (constants : Constants) : List String :=
  o.operands.filter fun i => (constants.lookup i).isSome

/-- The operands that are no constants. -/
def valueOperands (o : Operator) (constants : Constants) : List String :=
  o.operands.filter fun i => !(constants.lookup i).isSome

/-- The operands at the places of parameters: those behind the first one, and for a cut those behind
its two bounds. Empty names at the end count for nothing. -/
def listedParams (o : Operator) : List String :=
  (o.inputs.drop (if o.type = "Clip" then 3 else 1)).rdropWhile (·.isEmpty)

variable {constants : Constants} {o : Operator} {name : String}

theorem mem_constantOperands : name ∈ o.constantOperands constants ↔
    name ∈ o.inputs ∧ name ≠ "" ∧ constants.lookup name ≠ none := by
  simp only [constantOperands, operands, List.mem_filter, Bool.not_eq_true',
    String.isEmpty_eq_false_iff, Option.isSome_iff_ne_none, and_assoc]

theorem mem_valueOperands : name ∈ o.valueOperands constants ↔
    name ∈ o.inputs ∧ name ≠ "" ∧ constants.lookup name = none := by
  simp only [valueOperands, operands, List.mem_filter, Bool.not_eq_true',
    String.isEmpty_eq_false_iff, Option.isSome_eq_false_iff, Option.isNone_iff_eq_none, and_assoc]

theorem operands_eq (h : ∀ i ∈ o.inputs, i ≠ "") : o.operands = o.inputs :=
  List.filter_eq_self.2 fun i hi => by simpa using h i hi

section Split

variable {first : String} {rest : List String} (hoperands : o.operands = first :: rest)
  (hrest : ∀ i ∈ rest, constants.lookup i ≠ none)

include hoperands hrest

/-- A value before constants is told apart from them. -/
theorem split_of_value (hfirst : constants.lookup first = none) :
    o.valueOperands constants = [first] ∧ o.constantOperands constants = rest := by
  rw [valueOperands, constantOperands, hoperands, List.filter_cons_of_pos (by simp [hfirst]),
    List.filter_cons_of_neg (by simp [hfirst])]
  constructor
  · rw [List.filter_eq_nil_iff.2 fun i hi => by
      simpa [Option.isSome_iff_ne_none] using hrest i hi]
  · exact List.filter_eq_self.2 fun i hi => Option.isSome_iff_ne_none.2 (hrest i hi)

/-- Where the first operand is a constant too, there is no value. -/
theorem split_of_constant (hfirst : constants.lookup first ≠ none) :
    o.valueOperands constants = [] ∧ o.constantOperands constants = first :: rest := by
  have hall : ∀ i ∈ o.operands, (constants.lookup i).isSome = true := by
    rw [hoperands, List.forall_mem_cons]
    exact ⟨Option.isSome_iff_ne_none.2 hfirst,
      fun i hi => Option.isSome_iff_ne_none.2 (hrest i hi)⟩
  constructor
  · exact List.filter_eq_nil_iff.2 fun i hi => by simp [hall i hi]
  · rw [constantOperands, List.filter_eq_self.2 hall, hoperands]

end Split

/-- What names stand for behind an operator, if `denotes` says it for those before. -/
def define (constants : Constants) (denotes : String → Option String) (o : Operator) :
    String → Option String := fun name =>
  if o.outputs.head? = some name then
    if o.isAlias then (o.valueOperands constants).head?.bind denotes else some name
  else denotes name

end Operator

/-- What names stand for behind some operators of a graph with the given input: a result stands for
itself, and another name for a value stands for that value. -/
def meanings (constants : Constants) (input : String) (os : List Operator) :
    String → Option String :=
  os.foldl (Operator.define constants) fun name => if name = input then some input else none

/-- The operators that become nodes, with their positions. -/
def Graph.computing (graph : Graph) : List (Operator × Nat) :=
  graph.operators.zipIdx.filter fun o => !o.1.isAlias

/-! ### The roles of operands -/

/-- What the names of an exchange graph mean in the graph that it is read as. -/
structure Naming where
  graph : Graph
  constants : Constants
  /-- The name of the input. -/
  input : String
  /-- The name that a value has in the end. -/
  final : String → String

namespace Naming

variable (N : Naming)

/-- What a name stands for where the operator at some position reads it. -/
def denotes (index : Nat) : String → Option String :=
  meanings N.constants N.input (N.graph.operators.take index)

/-- Are these the names of the exchange model `m` in the graph `g`? The value that the name of the
output stands for is called as the output. -/
structure Describes (m : Model) (g : NetPack.Graph Binary32) : Prop where
  graph : m.graph = some N.graph
  constants : constantsOf N.graph = .ok N.constants
  input : N.input = g.input.name
  final : ∃ value, meanings N.constants N.input N.graph.operators g.output.name = some value ∧
    N.final = fun name => if name = value then g.output.name else name

/-- The node is what an operator is lifted to: it reads the one value among the operands, and its
parameters are the constants among them. -/
structure BuiltFrom (o : Operator × Nat) (n : Node Binary32) : Prop where
  name : n.name = nodeName o.1 o.2
  op : ∃ rank, liftOperator { o.1 with name := n.name } N.constants rank = .ok (some n.op)
  input : ∃ source value, o.1.valueOperands N.constants = [source] ∧
    N.denotes o.2 source = some value ∧ n.input = N.final value
  params : n.params = parametersOf n.op (o.1.constantOperands N.constants)
  output : ∃ name, o.1.outputs.head? = some name ∧ n.output = N.final name

/-- The node reads what the first operand stands for, and its parameters are those that the operator
lists. -/
structure KeepsRoles (o : Operator × Nat) (n : Node Binary32) : Prop where
  input : ∃ first value, o.1.inputs.head? = some first ∧ N.denotes o.2 first = some value ∧
    n.input = N.final value
  params : n.params = o.1.listedParams

/-- The operands stand in order: first the value, then the parameters without a gap; what is lifted
to an activation lists none. -/
structure InOrder (o : Operator × Nat) (n : Node Binary32) : Prop where
  first : ∃ first, o.1.inputs.head? = some first ∧ o.1.valueOperands N.constants = [first]
  given : ∀ p ∈ o.1.listedParams, p ≠ ""
  activation : ∀ kind, n.op = .activation kind → o.1.listedParams = []

end Naming

/-! ### One operator -/

theorem nodeName_ne_empty (o : Operator) (k : Nat) : nodeName o k ≠ "" := by
  unfold nodeName
  split
  · simp
  · rename_i hname
    simpa using hname

section Operator

variable {constants : Constants} {o : Operator} {rank : Nat}

theorem liftOperator_of_isAlias (h : o.isAlias = true) :
    liftOperator o constants rank = .ok none := by
  unfold Operator.isAlias at h
  rw [Bool.or_eq_true, beq_iff_eq, beq_iff_eq] at h
  rcases h with h | h <;> simp [liftOperator, h]

theorem isAlias_of_liftOperator (h : liftOperator o constants rank = .ok none) :
    o.isAlias = true := by
  unfold liftOperator at h
  split at h
  case h_12 htype | h_13 htype => simp [Operator.isAlias, htype]
  -- Every other operator gives an operation, if it gives anything.
  all_goals
    first
    | cases h
    | obtain ⟨_, -, h⟩ := Outcome.bind_eq_ok.1 h
      cases h
    | dsimp only at h
      split at h <;> cases h

/-- A bound of a cut that is given is a constant. -/
theorem constant_of_clipBound {index : Nat} {field name : String} {b : Option Binary32}
    (h : clipBound o constants index field = .ok b) (hname : o.inputs[index]? = some name)
    (hgiven : name ≠ "") : constants.lookup name ≠ none := by
  unfold clipBound at h
  have hfilter : o.inputs[index]?.filter (fun n => !n.isEmpty) = some name := by
    simp [hname, hgiven]
  intro hnone
  simp [hfilter, hnone] at h

/-- A cut becomes an activation, and none of its bounds is a value. -/
theorem liftOperator_clip {op : Op Binary32} (htype : o.type = "Clip")
    (h : liftOperator o constants rank = .ok (some op)) :
    (∃ kind, op = .activation kind) ∧
      ∀ index name, index = 1 ∨ index = 2 → o.inputs[index]? = some name → name ≠ "" →
        constants.lookup name ≠ none := by
  have hclip : ∃ op', liftClip o constants = .ok op' ∧ op' = op := by
    unfold liftOperator at h
    rw [htype] at h
    obtain ⟨op', hop', hsome⟩ := Outcome.bind_eq_ok.1 h
    exact ⟨op', hop', Option.some.inj (Outcome.pure_eq_ok_iff.1 hsome)⟩
  obtain ⟨op, hop, rfl⟩ := hclip
  obtain ⟨low, hlow, hop⟩ := Outcome.bind_eq_ok.1 hop
  obtain ⟨high, hhigh, hop⟩ := Outcome.bind_eq_ok.1 hop
  refine ⟨?_, ?_⟩
  · dsimp only at hop
    split at hop
    · exact ⟨.relu6, (Outcome.pure_eq_ok_iff.1 hop).symm⟩
    · split at hop
      · exact ⟨.relu, (Outcome.pure_eq_ok_iff.1 hop).symm⟩
      · cases hop
  · rintro index name (rfl | rfl) hname hgiven
    · exact constant_of_clipBound hlow hname hgiven
    · exact constant_of_clipBound hhigh hname hgiven

theorem mem_of_mem_parametersOf {op : Op Binary32} {names : List String} {p : String}
    (h : p ∈ parametersOf op names) : p ∈ names := by
  unfold parametersOf at h
  split at h
  · cases h
  · exact h

/-- What is found after insertions was there before or was inserted. -/
theorem mem_of_foldl_insert {params : Table (Tensor Binary32)}
    {tensors : List (String × Tensor Binary32)} {t : Tensor Binary32}
    (h : (tensors.foldl (fun u (p, tensor) => u.insert p tensor) params).find? name = some t) :
    params.find? name = some t ∨ (name, t) ∈ tensors := by
  induction tensors generalizing params with
  | nil => exact .inl h
  | cons e tensors ih =>
    rcases ih h with h | h
    · rw [Table.find?_insert] at h
      split at h
      · rename_i hname
        obtain rfl := Option.some.inj h
        exact .inr (hname ▸ List.mem_cons_self)
      · exact .inl h
    · exact .inr (List.mem_cons_of_mem _ h)

/-- The constants of some names. -/
def namedConstants (constants : Constants) (names : List String) :
    List (String × Tensor Binary32) :=
  names.filterMap fun p => (constants.lookup p).map (p, ·)

/-- **What lifting makes of one operator.** Either it gives another name to the value that it reads,
or it adds a node. -/
theorem liftNode_eq_ok_iff {k : Nat} {s s' : Lifting} :
    liftNode constants s (o, k) = .ok s' ↔
      ∃ source value shape output, o.valueOperands constants = [source] ∧
        s.values.lookup source = some (value, shape) ∧ o.outputs.head? = some output ∧
        output ≠ "" ∧
        (liftOperator { o with name := nodeName o k } constants shape.rank = .ok none ∧
            s' = { s with values := (output, value, shape) :: s.values } ∨
          ∃ op outputShape,
            liftOperator { o with name := nodeName o k } constants shape.rank = .ok (some op) ∧
            op.inferShape shape ((namedConstants constants
              (parametersOf op (o.constantOperands constants))).map (·.2.shape)) =
                .ok outputShape ∧
            s' = ⟨(output, output, outputShape) :: s.values,
              s.nodes ++ [⟨nodeName o k, op, value,
                parametersOf op (o.constantOperands constants), output, outputShape⟩],
              (namedConstants constants (parametersOf op (o.constantOperands constants))).foldl
                (fun t (p, tensor) => t.insert p tensor) s.params⟩) := by
  have hpartition : (o.inputs.filter fun i => !i.isEmpty).partition
      (fun i => (constants.lookup i).isSome) =
        (o.constantOperands constants, o.valueOperands constants) :=
    List.partition_eq_filter_filter ..
  simp only [liftNode, hpartition]
  constructor
  · intro h
    split at h
    · rename_i source hsource
      split at h
      · rename_i value shape hvalue
        split at h
        · rename_i output houtput
          obtain ⟨lifted, hlifted, h⟩ := Outcome.bind_eq_ok.1 h
          obtain ⟨hhead, hgiven⟩ := Option.filter_eq_some_iff.1 houtput
          refine ⟨source, value, shape, output, hsource, hvalue, hhead, by simpa using hgiven, ?_⟩
          cases lifted with
          | none =>
            exact .inl ⟨Outcome.ofExcept_eq_ok.1 hlifted, (Outcome.pure_eq_ok_iff.1 h).symm⟩
          | some op =>
            obtain ⟨outputShape, hinfer, h⟩ := Outcome.bind_eq_ok.1 h
            exact .inr ⟨op, outputShape, Outcome.ofExcept_eq_ok.1 hlifted,
              Outcome.mapError_eq_ok.1 hinfer, (Outcome.pure_eq_ok_iff.1 h).symm⟩
        · cases h
      · cases h
    · cases h
  · rintro ⟨source, value, shape, output, hsource, hvalue, hhead, hgiven, hstep⟩
    have houtput : o.outputs.head?.filter (fun v => !v.isEmpty) = some output :=
      Option.filter_eq_some_iff.2 ⟨hhead, by simpa using hgiven⟩
    simp only [hsource, hvalue, houtput]
    rcases hstep with ⟨hlifted, rfl⟩ | ⟨op, outputShape, hlifted, hinfer, rfl⟩
    · rw [hlifted]
      rfl
    · unfold namedConstants at hinfer
      rw [hlifted]
      simp only [Outcome.liftM_eq_ofExcept, Outcome.ofExcept_ok, Outcome.ok_bind, hinfer]
      rfl

/-- One operator either gives another name to the value that it reads or adds a node. -/
theorem liftNode_eq_ok {k : Nat} {s s' : Lifting} (h : liftNode constants s (o, k) = .ok s') :
    ∃ source value shape output, o.valueOperands constants = [source] ∧
      s.values.lookup source = some (value, shape) ∧ o.outputs.head? = some output ∧
      output ≠ "" ∧
      (o.isAlias = true ∧ s' = { s with values := (output, value, shape) :: s.values } ∨
        o.isAlias = false ∧ ∃ op outputShape params,
          liftOperator { o with name := nodeName o k } constants shape.rank = .ok (some op) ∧
          s' = ⟨(output, output, outputShape) :: s.values,
            s.nodes ++ [⟨nodeName o k, op, value,
              parametersOf op (o.constantOperands constants), output, outputShape⟩], params⟩ ∧
          ∀ name t, params.find? name = some t → s.params.find? name = some t ∨
            name ∈ parametersOf op (o.constantOperands constants) ∧
              constants.lookup name = some t) := by
  obtain ⟨source, value, shape, output, hsource, hvalue, hhead, hgiven, hstep⟩ :=
    liftNode_eq_ok_iff.1 h
  refine ⟨source, value, shape, output, hsource, hvalue, hhead, hgiven, ?_⟩
  rcases hstep with ⟨hlifted, rfl⟩ | ⟨op, outputShape, hlifted, -, rfl⟩
  · have halias := isAlias_of_liftOperator hlifted
    exact .inl ⟨halias, rfl⟩
  · refine .inr ⟨?_, op, outputShape, _, hlifted, rfl, fun name t ht => ?_⟩
    · by_contra halias
      have hnone : liftOperator { o with name := nodeName o k } constants shape.rank = .ok none :=
        liftOperator_of_isAlias ((Bool.not_eq_false _).mp halias)
      rw [hnone] at hlifted
      cases hlifted
    · refine (mem_of_foldl_insert ht).imp_right fun hmem => ?_
      obtain ⟨p, hread, hp⟩ := List.mem_filterMap.1 hmem
      obtain ⟨t', ht', heq⟩ := Option.map_eq_some_iff.1 hp
      obtain ⟨rfl, rfl⟩ := Prod.mk.inj heq
      exact ⟨hread, ht'⟩

end Operator

/-! ### All operators -/

theorem meanings_append (constants : Constants) (input : String) (before : List Operator)
    (o : Operator) : meanings constants input (before ++ [o]) =
      o.define constants (meanings constants input before) :=
  List.foldl_concat ..

section Operators

variable {N : Naming} {before os : List Operator} {s s' : Lifting}

/-- The names that lifting knows are known as what they stand for. -/
def Lifting.Knows (s : Lifting) (denotes : String → Option String) : Prop :=
  ∀ name, (s.values.lookup name).map (·.1) = denotes name

theorem Lifting.Knows.define {denotes : String → Option String} {constants : Constants}
    {o : Operator} {source value output : String} {shape shape' : Shape}
    (hs : s.Knows denotes) (hsource : o.valueOperands constants = [source])
    (hvalue : s.values.lookup source = some (value, shape))
    (houtput : o.outputs.head? = some output)
    (hvalues : s'.values = (output, if o.isAlias then value else output, shape') :: s.values) :
    s'.Knows (o.define constants denotes) := by
  intro name
  rw [hvalues, List.lookup_cons, Operator.define, houtput]
  by_cases hname : output = name
  · have hdenotes : denotes source = some value := by rw [← hs source, hvalue, Option.map_some]
    subst hname
    cases o.isAlias <;> simp [hsource, hdenotes]
  · have hne : (name == output) = false := beq_false_of_ne (Ne.symm hname)
    simpa [hne, hname] using hs name

/-- **Operators are lifted one after the other**, and every one that is no alias adds a node. -/
theorem foldlM_liftNode_eq_ok (hgraph : N.graph.operators = before ++ os) (hfinal : N.final = id)
    (hs : s.Knows (meanings N.constants N.input before))
    (h : (os.zipIdx before.length).foldlM (liftNode N.constants) s = .ok s') :
    s'.Knows (meanings N.constants N.input N.graph.operators) ∧
      ∃ ns, s'.nodes = s.nodes ++ ns ∧
        List.Forall₂ N.BuiltFrom ((os.zipIdx before.length).filter fun o => !o.1.isAlias) ns := by
  induction os generalizing before s with
  | nil =>
    obtain rfl : s = s' := by simpa using h
    rw [List.append_nil] at hgraph
    rw [hgraph]
    exact ⟨hs, [], by simp, by simp⟩
  | cons o os ih =>
    rw [List.zipIdx_cons, List.foldlM_cons] at h
    obtain ⟨s₁, hnode, h⟩ := Outcome.bind_eq_ok.1 h
    obtain ⟨source, value, shape, output, hsource, hvalue, houtput, -, hstep⟩ :=
      liftNode_eq_ok hnode
    have hgraph' : N.graph.operators = (before ++ [o]) ++ os := by simpa using hgraph
    have hlength : (before ++ [o]).length = before.length + 1 := by simp
    rw [← hlength] at h
    have hvalues : ∃ shape', s₁.values =
        (output, if o.isAlias then value else output, shape') :: s.values := by
      rcases hstep with ⟨halias, rfl⟩ | ⟨halias, op, shape', params, -, rfl, -⟩
      · exact ⟨shape, by simp [halias]⟩
      · exact ⟨shape', by simp [halias]⟩
    obtain ⟨shape', hvalues⟩ := hvalues
    have hs₁ : s₁.Knows (meanings N.constants N.input (before ++ [o])) := by
      rw [meanings_append]
      exact hs.define hsource hvalue houtput hvalues
    obtain ⟨hknows, ns, hns, hbuilt⟩ := ih hgraph' hs₁ h
    refine ⟨hknows, ?_⟩
    rw [hlength] at hbuilt
    rw [List.zipIdx_cons]
    rcases hstep with ⟨halias, rfl⟩ | ⟨halias, op, outputShape, params, hop, rfl, -⟩
    · rw [List.filter_cons_of_neg (by simp [halias])]
      exact ⟨ns, hns, hbuilt⟩
    · rw [List.filter_cons_of_pos (by simp [halias])]
      refine ⟨_ :: ns, by rw [hns, List.append_assoc]; rfl, .cons ?_ hbuilt⟩
      have hdenotes : N.denotes before.length source = some value := by
        rw [Naming.denotes, hgraph, List.take_left, ← hs source, hvalue, Option.map_some]
      exact {
        name := rfl
        op := ⟨shape.rank, hop⟩
        input := ⟨source, value, hsource, hdenotes, by rw [hfinal]; rfl⟩
        params := rfl
        output := ⟨output, houtput, by rw [hfinal]; rfl⟩ }

end Operators

/-! ### Roles by position -/

section Roles

variable {N : Naming} {o : Operator × Nat} {n : Node Binary32}

/-- Only empty names are cut off at the end. -/
theorem mem_rdropWhile {l : List String} {p : String} (hmem : p ∈ l) (hgiven : p ≠ "") :
    p ∈ l.rdropWhile (·.isEmpty) := by
  rw [← List.rdropWhile_append_rtakeWhile (p := (·.isEmpty)) (l := l)] at hmem
  rcases List.mem_append.1 hmem with hmem | hmem
  · exact hmem
  · exact absurd (List.mem_rtakeWhile_imp hmem) (by simpa using hgiven)

/-- A list without gaps is what is left of it without its empty names. -/
theorem filter_eq_rdropWhile {l : List String} (h : ∀ p ∈ l.rdropWhile (·.isEmpty), p ≠ "") :
    l.filter (fun i => !i.isEmpty) = l.rdropWhile (·.isEmpty) := by
  have hkept : (l.rdropWhile (·.isEmpty)).filter (fun i => !i.isEmpty) =
      l.rdropWhile (·.isEmpty) :=
    List.filter_eq_self.2 fun p hp => by simpa using h p hp
  have hcut : (l.rtakeWhile (·.isEmpty)).filter (fun i => !i.isEmpty) = [] :=
    List.filter_eq_nil_iff.2 fun p hp => by simpa using List.mem_rtakeWhile_imp hp
  conv_lhs => rw [← List.rdropWhile_append_rtakeWhile (p := (·.isEmpty)) (l := l)]
  rw [List.filter_append, hkept, hcut, List.append_nil]

/-- Behind the value, where there is no other one, are the constants. -/
theorem Operator.constantOperands_of_cons {constants : Constants} {o : Operator} {first : String}
    {rest : List String} (hinputs : o.inputs = first :: rest)
    (hfirst : o.valueOperands constants = [first]) :
    o.constantOperands constants = rest.filter fun i => !i.isEmpty := by
  obtain ⟨-, hgiven, hvalue⟩ := mem_valueOperands.1 (hfirst ▸ List.mem_singleton_self first)
  have hoperands : o.operands = first :: rest.filter fun i => !i.isEmpty := by
    rw [operands, hinputs, List.filter_cons_of_pos (by simpa using hgiven)]
  unfold valueOperands at hfirst
  rw [hoperands, List.filter_cons_of_pos (by rw [hvalue]; rfl), List.cons_inj_right,
    List.filter_eq_nil_iff] at hfirst
  rw [constantOperands, hoperands, List.filter_cons_of_neg (by rw [hvalue]; simp),
    List.filter_eq_self]
  intro p hp
  simpa using hfirst p hp

namespace Naming.BuiltFrom

/-- The parameters are constants that are given. -/
theorem constant_of_mem_params (h : N.BuiltFrom o n) {p : String} (hp : p ∈ n.params) :
    p ≠ "" ∧ N.constants.lookup p ≠ none := by
  rw [h.params] at hp
  exact (Operator.mem_constantOperands.1 (mem_of_mem_parametersOf hp)).2

theorem clip (h : N.BuiltFrom o n) (htype : o.1.type = "Clip") :
    (∃ kind, n.op = .activation kind) ∧
      ∀ index name, index = 1 ∨ index = 2 → o.1.inputs[index]? = some name → name ≠ "" →
        N.constants.lookup name ≠ none := by
  obtain ⟨rank, hop⟩ := h.op
  exact liftOperator_clip (o := { o.1 with name := n.name }) htype hop

/-- Operands in order keep their roles. -/
theorem keepsRoles (h : N.BuiltFrom o n) (horder : N.InOrder o n) : N.KeepsRoles o n := by
  obtain ⟨first, hhead, hfirst⟩ := horder.first
  obtain ⟨source, value, hsource, hdenotes, hinput⟩ := h.input
  obtain rfl : first = source := by simpa using hfirst.symm.trans hsource
  refine ⟨⟨first, value, hhead, hdenotes, hinput⟩, ?_⟩
  rw [h.params]
  by_cases hactivation : ∃ kind, n.op = .activation kind
  · obtain ⟨kind, hkind⟩ := hactivation
    rw [horder.activation kind hkind, hkind, parametersOf]
  · have htype : o.1.type ≠ "Clip" := fun htype => hactivation (h.clip htype).1
    obtain ⟨rest, hinputs⟩ : ∃ rest, o.1.inputs = first :: rest :=
      List.head?_eq_some_iff.1 hhead
    have hlisted : o.1.listedParams = rest.rdropWhile (·.isEmpty) := by
      rw [Operator.listedParams, if_neg htype, hinputs, List.drop_one, List.tail_cons]
    have hparams : parametersOf n.op (o.1.constantOperands N.constants) =
        o.1.constantOperands N.constants := by
      unfold parametersOf
      split
      · rename_i kind hkind
        exact absurd ⟨kind, hkind⟩ hactivation
      · rfl
    rw [hparams, Operator.constantOperands_of_cons hinputs hfirst, hlisted]
    exact filter_eq_rdropWhile fun p hp => horder.given p (hlisted ▸ hp)

/-- The value of a node whose operands keep their roles is the first operand. -/
theorem head?_eq_of_keepsRoles (h : N.BuiltFrom o n) (hroles : N.KeepsRoles o n) :
    ∃ first, o.1.inputs.head? = some first ∧ o.1.valueOperands N.constants = [first] := by
  obtain ⟨first, _, hhead, -⟩ := hroles.input
  obtain ⟨source, _, hsource, -⟩ := h.input
  obtain ⟨hmem, hgiven, hvalue⟩ :=
    Operator.mem_valueOperands.1 (hsource ▸ List.mem_singleton_self source)
  -- Anywhere else the value would be taken for a parameter or for a bound.
  have hlisted : source ∉ o.1.listedParams := fun hlisted =>
    (h.constant_of_mem_params (hroles.params ▸ hlisted)).2 hvalue
  obtain ⟨index, hindex⟩ := List.mem_iff_getElem?.1 hmem
  have hzero : index = 0 := by
    by_contra hpos
    refine hlisted (mem_rdropWhile ?_ hgiven)
    rw [List.mem_iff_getElem?]
    by_cases htype : o.1.type = "Clip"
    · have hbound : ¬ (index = 1 ∨ index = 2) := fun hbound =>
        (h.clip htype).2 index source hbound hindex hgiven hvalue
      refine ⟨index - 3, ?_⟩
      rw [if_pos htype, List.getElem?_drop, ← hindex]
      congr 1
      omega
    · refine ⟨index - 1, ?_⟩
      rw [if_neg htype, List.getElem?_drop, ← hindex]
      congr 1
      omega
  subst hzero
  obtain rfl : first = source := by
    rw [List.head?_eq_getElem?, hindex] at hhead
    exact (Option.some.inj hhead).symm
  exact ⟨first, hhead, hsource⟩

/-- **Operands keep their roles exactly if they stand in order.** -/
theorem keepsRoles_iff (h : N.BuiltFrom o n) : N.KeepsRoles o n ↔ N.InOrder o n := by
  constructor
  · intro hroles
    refine ⟨h.head?_eq_of_keepsRoles hroles, fun p hp => ?_, fun kind hkind => ?_⟩
    · exact (h.constant_of_mem_params (hroles.params ▸ hp)).1
    · rw [← hroles.params, h.params, hkind, parametersOf]
  · exact h.keepsRoles

/-- A node keeps what it was built from when values get their final names. -/
theorem rename (value output : String) (hid : N.final = id) (h : N.BuiltFrom o n) :
    { N with final := fun name => if name = value then output else name }.BuiltFrom o
      (renameIn value output n) := by
  obtain ⟨source, v, hsource, hdenotes, hinput⟩ := h.input
  obtain ⟨name, hname, houtput⟩ := h.output
  rw [hid] at hinput houtput
  exact {
    name := h.name
    op := h.op
    input := ⟨source, v, hsource, hdenotes, by rw [renameIn, hinput]; rfl⟩
    params := h.params
    output := ⟨name, hname, by rw [renameIn, houtput]; rfl⟩ }

end Naming.BuiltFrom

end Roles

/-! ### The whole graph -/

section WholeGraph

variable {m : Model} {batch : Nat} {g : NetPack.Graph Binary32}

theorem declaredShape_of_shapeOf {v : Value} {declared : Shape × List Nat}
    (h : (match declaredShape v batch with
      | .ok declared => (.ok declared : Except ConvertError (Shape × List Nat))
      | .error cause => .error (fault cause)) = .ok declared) :
    declaredShape v batch = .ok declared := by
  cases hv : declaredShape v batch with
  | ok found =>
    rw [hv] at h
    exact congrArg Except.ok (Except.ok.inj h)
  | error cause =>
    rw [hv] at h
    cases h

/-- **The parts that a graph is put together from.** -/
theorem toGraph_eq_ok_iff :
    toGraph m batch = .ok g ↔
      ∃ graph constants input shape axes s output value outputShape outputAxes,
        m.graph = some graph ∧ constantsOf graph = .ok constants ∧
        graph.inputs.filter (fun v => (constants.lookup v.name).isNone) = [input] ∧
        declaredShape input batch = .ok (shape, axes) ∧
        graph.operators.zipIdx.foldlM (liftNode constants)
          ⟨[(input.name, input.name, shape)], [], .empty⟩ = .ok s ∧
        graph.outputs = [output] ∧
        s.values.lookup output.name = some (value, outputShape) ∧
        declaredShape output batch = .ok (outputShape, outputAxes) ∧
        g = {
          name := if graph.name.isEmpty then "onnx" else graph.name
          input := ⟨input.name, shape, axes⟩
          output := ⟨output.name, outputShape, outputAxes⟩
          nodes := s.nodes.map (renameIn value output.name)
          params := s.params } := by
  constructor
  · intro h
    unfold toGraph at h
    split at h
    · rename_i graph hgraph
      obtain ⟨constants, hconstants, h⟩ := Outcome.bind_eq_ok.1 h
      dsimp only at h
      split at h
      · rename_i input hinput
        split at h
        · rename_i output houtput
          obtain ⟨⟨shape, axes⟩, hshape, h⟩ := Outcome.bind_eq_ok.1 h
          obtain ⟨s, hfold, h⟩ := Outcome.bind_eq_ok.1 h
          split at h
          · rename_i value produced hvalue
            obtain ⟨⟨declared, outputAxes⟩, houtputShape, h⟩ := Outcome.bind_eq_ok.1 h
            dsimp only at h
            split at h
            · cases h
            · rename_i hsame
              obtain rfl := not_not.1 hsame
              exact ⟨graph, constants, input, shape, axes, s, output, value, declared, outputAxes,
                hgraph, Outcome.ofExcept_eq_ok.1 hconstants, hinput,
                declaredShape_of_shapeOf (Outcome.ofExcept_eq_ok.1 hshape), hfold, houtput, hvalue,
                declaredShape_of_shapeOf (Outcome.ofExcept_eq_ok.1 houtputShape),
                (Outcome.pure_eq_ok_iff.1 h).symm⟩
          · cases h
        · cases h
      · cases h
    · cases h
  · rintro ⟨graph, constants, input, shape, axes, s, output, value, outputShape, outputAxes,
      hgraph, hconstants, hinput, hshape, hfold, houtput, hvalue, houtputShape, rfl⟩
    simp only [toGraph, hgraph, hconstants, Outcome.liftM_eq_ofExcept, Outcome.ofExcept_ok,
      Outcome.ok_bind, hinput, houtput, hshape, hfold, hvalue, houtputShape, ne_eq,
      not_true_eq_false, if_false]
    rfl

/-- What the nodes, the parameters and the declared values of a lifted graph come from. -/
theorem toGraph_eq_ok (h : toGraph m batch = .ok g) :
    ∃ graph constants s value, m.graph = some graph ∧ constantsOf graph = .ok constants ∧
      graph.operators.zipIdx.foldlM (liftNode constants)
        ⟨[(g.input.name, g.input.name, g.input.shape)], [], .empty⟩ = .ok s ∧
      s.values.lookup g.output.name = some (value, g.output.shape) ∧
      g.nodes = s.nodes.map (renameIn value g.output.name) ∧ g.params = s.params ∧
      (∃ v ∈ graph.inputs,
        declaredShape v batch = .ok (g.input.shape, g.input.dynamicAxes)) ∧
      (∃ v ∈ graph.outputs,
        declaredShape v batch = .ok (g.output.shape, g.output.dynamicAxes)) ∧ g.name ≠ "" := by
  obtain ⟨graph, constants, input, shape, axes, s, output, value, outputShape, outputAxes, hgraph,
    hconstants, hinput, hshape, hfold, houtput, hvalue, houtputShape, rfl⟩ := toGraph_eq_ok_iff.1 h
  have hread : input ∈ graph.inputs :=
    (List.mem_filter.1 (hinput ▸ List.mem_singleton_self input)).1
  refine ⟨graph, constants, s, value, hgraph, hconstants, hfold, hvalue, rfl, rfl,
    ⟨input, hread, hshape⟩, ⟨output, houtput ▸ List.mem_singleton_self output, houtputShape⟩, ?_⟩
  dsimp only
  split
  · decide
  · rename_i hname
    simpa using hname

/-- Every lifted graph has names, and its parameters are constants. -/
theorem exists_naming (h : toGraph m batch = .ok g) : ∃ N : Naming, N.Describes m g ∧
    List.Forall₂ N.BuiltFrom N.graph.computing g.nodes ∧
      ∀ p t, g.params.find? p = some t → N.constants.lookup p = some t := by
  obtain ⟨graph, constants, s, value, hgraph, hconstants, hfold, hvalue, hnodes, hparams, -, -⟩ :=
    toGraph_eq_ok h
  let raw : Naming := ⟨graph, constants, g.input.name, id⟩
  have hstart : Lifting.Knows ⟨[(g.input.name, g.input.name, g.input.shape)], [], .empty⟩
      (meanings constants g.input.name []) := by
    intro name
    by_cases hname : name = g.input.name <;>
      simp [meanings, hname, List.lookup_cons, beq_false_of_ne]
  have hfold' : (graph.operators.zipIdx ([] : List Operator).length).foldlM
      (liftNode raw.constants) _ = .ok s := hfold
  obtain ⟨hknows, ns, hns, hbuilt⟩ := foldlM_liftNode_eq_ok (N := raw) rfl rfl hstart hfold'
  have hfinal : meanings constants g.input.name graph.operators g.output.name = some value := by
    rw [← hknows, hvalue, Option.map_some]
  have hconstant : ∀ p t, s.params.find? p = some t → constants.lookup p = some t := by
    refine Outcome.of_foldlM (P := fun s : Lifting => ∀ p t, s.params.find? p = some t →
      constants.lookup p = some t) ?_ (by simp [Table.find?_empty]) hfold
    rintro ⟨o, k⟩ - before after hbefore hstep
    obtain ⟨_, _, _, _, -, -, -, -, hcases⟩ := liftNode_eq_ok hstep
    rcases hcases with ⟨-, rfl⟩ | ⟨-, _, _, params, -, rfl, hadds⟩
    · exact hbefore
    · exact fun p t ht => (hadds p t ht).elim (hbefore p t) (·.2)
  refine ⟨{ raw with final := fun name => if name = value then g.output.name else name },
    ⟨hgraph, hconstants, rfl, value, hfinal, rfl⟩, ?_, hparams ▸ hconstant⟩
  rw [hnodes, hns, List.nil_append, List.forall₂_map_right_iff]
  exact hbuilt.imp fun o n hbuilt => hbuilt.rename value g.output.name rfl

/-- **What lifting makes of operands.** The nodes come from the operators that are no aliases, in
their order. Each reads the one value among the operands of its operator and takes the constants
among them as parameters; these are the roles that the positions give them exactly if the operands
stand in order. -/
theorem toGraph_operands (h : toGraph m batch = .ok g) : ∃ N : Naming, N.Describes m g ∧
    List.Forall₂ (fun o n => N.BuiltFrom o n ∧ (N.KeepsRoles o n ↔ N.InOrder o n))
      N.graph.computing g.nodes := by
  obtain ⟨N, hN, hbuilt, -⟩ := exists_naming h
  exact ⟨N, hN, hbuilt.imp fun o n hbuilt => ⟨hbuilt, hbuilt.keepsRoles_iff⟩⟩

/-- A product `y = Gemm(operands)` of the value `x` with the constant `w`, both `2 × 2`. -/
def productModel (operands : List String) : Model where
  irVersion := 7
  producerName := ""
  producerVersion := ""
  operatorSets := [⟨"", 14⟩]
  graph := some {
    operators := [⟨operands, ["y"], "product", "Gemm",
      [{ Attribute.named "transB" with int := 1, type := 2 }]⟩]
    name := "product"
    initializers := [⟨[2, 2], 1, [1, 2, 3, 4].map Scalar.count, "w", []⟩]
    inputs := [⟨"x", .tensor 1 (some [.value 2, .value 2])⟩]
    outputs := [⟨"y", .tensor 1 (some [.value 2, .value 2])⟩] }

/-- A product of the value and the weight in this order is lifted with both in their roles. -/
theorem toGraph_operands_product : ∃ g, toGraph (productModel ["x", "w"]) 2 = .ok g ∧
    (g.nodes.map fun n => (n.input, n.params)) = [("x", ["w"])] ∧
    ∃ N : Naming, N.Describes (productModel ["x", "w"]) g ∧
      List.Forall₂ (fun o n => N.BuiltFrom o n ∧ (N.KeepsRoles o n ↔ N.InOrder o n))
        N.graph.computing g.nodes := by
  have hgraph : toGraph (productModel ["x", "w"]) 2 = .ok _ := rfl
  exact ⟨_, hgraph, rfl, toGraph_operands hgraph⟩

/-- **Operands out of order are not refused.** With the weight before the value, the product is
lifted as if the value came first. -/
theorem not_forall_keepsRoles : ¬ ∀ (m : Model) (batch : Nat) (g : NetPack.Graph Binary32),
    toGraph m batch = .ok g →
      ∃ N : Naming, N.Describes m g ∧ List.Forall₂ N.KeepsRoles N.graph.computing g.nodes := by
  intro h
  obtain ⟨N, hN, hroles⟩ := h (productModel ["w", "x"]) 2 _ rfl
  have hcomputing : N.graph.computing = (productModel ["w", "x"]).graph.elim [] (·.computing) := by
    rw [hN.graph]
    rfl
  rw [hcomputing] at hroles
  obtain ⟨hroles, -⟩ := List.forall₂_cons.1 hroles
  have hparams : ["w"] = ["x"] := hroles.params
  simp at hparams

end WholeGraph

end Exchange

end NetPack
