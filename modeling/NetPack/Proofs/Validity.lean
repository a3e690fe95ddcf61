import NetPack.Graph.Validate
import NetPack.Proofs.Outcomes

/-!
# What a valid graph satisfies

`Graph.check` walks over the nodes and stops at the first fault. Here its verdict is restated
without the walk: a node fits a scope (`Graph.Fits`) if its name is new, its parameters exist, the
value that it reads is defined with a shape from which its recorded shape is inferred, and the value
that it produces is not defined yet. A graph is valid exactly when every node fits the scope that
the nodes before it leave behind and the declared output is in the last scope (`Graph.valid_iff`).
-/

namespace NetPack

namespace Graph

variable [Build] {α : Type}

/-- The tensors that a node reads besides its input. -/
def paramTensors (params : Table (Tensor α)) (n : Node α) : List (Tensor α) :=
  n.params.filterMap params.find?

/-- A node may follow the nodes that have left the scope `s`. -/
structure Fits (params : Table (Tensor α)) (s : Scope) (n : Node α) : Prop where
  /-- No node before has this name. -/
  fresh : n.name ∉ s.names
  /-- The parameters exist. -/
  bound : ∀ p ∈ n.params, (params.find? p).isSome
  /-- The recorded shape is the inferred one. -/
  inferred : ∃ input, s.values.lookup n.input = some input ∧
    n.op.inferShape input ((paramTensors params n).map (·.shape)) = .ok n.outputShape
  /-- No value of this name is defined. -/
  single : s.values.lookup n.output = none

/-- The scope behind a node. -/
def Scope.extend (s : Scope) (n : Node α) : Scope :=
  ⟨(n.output, n.outputShape) :: s.values, n.name :: s.names⟩

/-- Every node may follow the nodes before it. -/
def AllFit (params : Table (Tensor α)) : Scope → List (Node α) → Prop
  | _, [] => True
  | s, n :: ns => Fits params s n ∧ AllFit params (s.extend n) ns

/-- The scope before the first node. -/
def Scope.initial (g : Graph α) : Scope := ⟨[(g.input.name, g.input.shape)], []⟩

/-- The scope behind the last node. -/
def Scope.final (g : Graph α) : Scope := g.nodes.foldl Scope.extend (Scope.initial g)

instance : DecidablePred (Valid : Graph α → Prop) := fun g =>
  match h : g.check with
  | .ok () => .isTrue h
  | .error _ => .isFalse fun h' => by rw [Valid, h] at h'; cases h'

variable {params : Table (Tensor α)} {s s' : Scope} {n : Node α} {ns : List (Node α)}

/-! ### One node -/

omit [Build] in
/-- What holds of all parameters holds of those that a node reads. -/
theorem forall_mem_paramTensors {P : Tensor α → Prop}
    (h : ∀ name t, params.find? name = some t → P t) : ∀ t ∈ paramTensors params n, P t := by
  intro t ht
  obtain ⟨name, -, hname⟩ := List.mem_filterMap.1 ht
  exact h name t hname

omit [Build] in
/-- A value is not defined behind a node if the node does not produce it and it was not defined
before. -/
theorem lookup_extend_eq_none {name : String} :
    (s.extend n).values.lookup name = none ↔ name ≠ n.output ∧ s.values.lookup name = none := by
  rw [Scope.extend, List.lookup_cons]
  by_cases hname : name = n.output
  · simp [hname]
  · simp [hname, beq_false_of_ne hname]

omit [Build] in
theorem paramShapes_eq_ok {shapes : List Shape} :
    paramShapes params n = .ok shapes ↔
      (∀ p ∈ n.params, (params.find? p).isSome) ∧
        shapes = (paramTensors params n).map (·.shape) := by
  unfold paramShapes paramTensors
  generalize n.params = ps
  induction ps generalizing shapes with
  | nil =>
    rw [List.mapM_nil, Outcome.pure_eq_ok_iff]
    simp [eq_comm (a := [])]
  | cons p ps ih =>
    rw [List.mapM_cons, Outcome.bind_eq_ok, List.forall_mem_cons]
    cases hp : params.find? p with
    | none => simp
    | some t =>
      rw [List.filterMap_cons_some hp, List.map_cons]
      constructor
      · rintro ⟨_, ⟨⟩, h⟩
        obtain ⟨ts, hts, h⟩ := Outcome.bind_eq_ok.1 h
        obtain ⟨hps, rfl⟩ := ih.1 hts
        exact ⟨⟨rfl, hps⟩, (Outcome.pure_eq_ok_iff.1 h).symm⟩
      · rintro ⟨⟨-, hps⟩, rfl⟩
        exact ⟨_, rfl, Outcome.bind_eq_ok.2 ⟨_, ih.2 ⟨hps, rfl⟩, rfl⟩⟩

theorem checkNode_eq_ok :
    checkNode params s n = .ok s' ↔ Fits params s n ∧ s' = s.extend n := by
  simp only [checkNode, Outcome.report_bind]
  rw [Outcome.ite_eq_ok (by simp)]
  constructor
  · rintro ⟨hname, h⟩
    split at h
    · rename_i input hinput
      obtain ⟨_, hshapes, h⟩ := Outcome.bind_eq_ok.1 h
      obtain ⟨hbound, rfl⟩ := paramShapes_eq_ok.1 (Outcome.ofExcept_eq_ok.1 hshapes)
      obtain ⟨out, hop, h⟩ := Outcome.bind_eq_ok.1 h
      rw [Outcome.ite_eq_ok (by simp), Outcome.ite_eq_ok (by simp)] at h
      obtain ⟨hout, hdef, h⟩ := h
      refine ⟨⟨by simpa using hname, hbound, ⟨input, hinput, ?_⟩,
        Option.not_isSome_iff_eq_none.1 hdef⟩, ?_⟩
      · rw [Outcome.mapError_eq_ok.1 hop, not_not.1 hout]
      · exact (Outcome.pure_eq_ok_iff.1 h).symm
    · cases h
  · rintro ⟨⟨hfresh, hbound, ⟨input, hinput, hop⟩, hsingle⟩, rfl⟩
    refine ⟨by simpa using hfresh, ?_⟩
    simp [hinput, paramShapes_eq_ok.2 ⟨hbound, rfl⟩, hop, hsingle, Scope.extend]

/-! ### All nodes -/

theorem foldlM_checkNode_eq_ok :
    ns.foldlM (checkNode params) s = .ok s' ↔
      AllFit params s ns ∧ s' = ns.foldl Scope.extend s := by
  induction ns generalizing s with
  | nil =>
    rw [List.foldlM_nil, Outcome.pure_eq_ok_iff, eq_comm]
    simp [AllFit]
  | cons n ns ih =>
    rw [List.foldlM_cons, Outcome.bind_eq_ok, List.foldl_cons]
    constructor
    · rintro ⟨_, hn, hns⟩
      obtain ⟨hfit, rfl⟩ := checkNode_eq_ok.1 hn
      obtain ⟨hall, rfl⟩ := ih.1 hns
      exact ⟨⟨hfit, hall⟩, rfl⟩
    · rintro ⟨⟨hfit, hall⟩, rfl⟩
      exact ⟨_, checkNode_eq_ok.2 ⟨hfit, rfl⟩, ih.2 ⟨hall, rfl⟩⟩

theorem AllFit.not_mem_names (h : AllFit params s ns) : ∀ n ∈ ns, n.name ∉ s.names := by
  induction ns generalizing s with
  | nil => simp
  | cons n ns ih =>
    rw [List.forall_mem_cons]
    -- A name that was taken stays taken, because the scope only grows.
    refine ⟨h.1.fresh, fun m hm hname => ?_⟩
    exact ih h.2 m hm (List.mem_cons_of_mem _ hname)

/-- The nodes of a valid graph have names of their own. -/
theorem AllFit.nodup (h : AllFit params s ns) : (ns.map (·.name)).Nodup := by
  induction ns generalizing s with
  | nil => simp
  | cons n ns ih =>
    rw [List.map_cons, List.nodup_cons]
    refine ⟨fun hmem => ?_, ih h.2⟩
    obtain ⟨m, hm, hname⟩ := List.mem_map.1 hmem
    exact h.2.not_mem_names m hm (hname ▸ List.mem_cons_self)

theorem AllFit.lookup_output (h : AllFit params s ns) :
    ∀ n ∈ ns, s.values.lookup n.output = none := by
  induction ns generalizing s with
  | nil => simp
  | cons n ns ih =>
    rw [List.forall_mem_cons]
    exact ⟨h.1.single, fun m hm => (lookup_extend_eq_none.1 (ih h.2 m hm)).2⟩

/-- A value that is defined keeps its shape. -/
theorem AllFit.lookup_final (h : AllFit params s ns) {name : String} {shape : Shape}
    (hname : s.values.lookup name = some shape) :
    (ns.foldl Scope.extend s).values.lookup name = some shape := by
  induction ns generalizing s with
  | nil => exact hname
  | cons n ns ih =>
    refine ih h.2 ?_
    have hne : name ≠ n.output := by
      rintro rfl
      rw [h.1.single] at hname
      cases hname
    rw [Scope.extend, List.lookup_cons, beq_false_of_ne hne]
    exact hname

/-- The values of a valid graph are produced once. -/
theorem AllFit.nodup_outputs (h : AllFit params s ns) : (ns.map (·.output)).Nodup := by
  induction ns generalizing s with
  | nil => simp
  | cons n ns ih =>
    rw [List.map_cons, List.nodup_cons]
    refine ⟨fun hmem => ?_, ih h.2⟩
    obtain ⟨m, hm, houtput⟩ := List.mem_map.1 hmem
    exact (lookup_extend_eq_none.1 (h.2.lookup_output m hm)).1 houtput

/-- The nodes of a valid graph find their parameters. -/
theorem AllFit.bound (h : AllFit params s ns) :
    ∀ n ∈ ns, ∀ p ∈ n.params, (params.find? p).isSome := by
  induction ns generalizing s with
  | nil => simp
  | cons n ns ih => exact List.forall_mem_cons.2 ⟨h.1.bound, ih h.2⟩

omit [Build] in
theorem checkOutput_eq_ok {output : ValueInfo} :
    checkOutput output s = .ok () ↔ s.values.lookup output.name = some output.shape := by
  unfold checkOutput
  split
  · rename_i h
    simp [h]
  · rename_i shape h
    by_cases hs : shape = output.shape <;> simp [h, hs]

/-- **What validation checks**, without the order of the checks. -/
theorem valid_iff {g : Graph α} :
    g.Valid ↔ g.nodes ≠ [] ∧ (∃ count, g.input.shape.numElements = some count ∧ count ≠ 0) ∧
      (∀ a ∈ g.input.dynamicAxes, a < g.input.shape.rank) ∧
      AllFit g.params (Scope.initial g) g.nodes ∧
      (Scope.final g).values.lookup g.output.name = some g.output.shape := by
  simp only [Valid, check, Outcome.report_bind]
  rw [Outcome.ite_eq_ok (by simp), List.isEmpty_iff]
  refine and_congr_right fun _ => ?_
  rcases hcount : g.input.shape.numElements with _ | count
  · simp
  rw [Outcome.orCrash_some, Outcome.ok_bind, Outcome.ite_eq_ok (by simp)]
  simp only [Option.some.injEq, exists_eq_left']
  refine and_congr_right fun _ => ?_
  cases haxis : g.input.dynamicAxes.find? fun a => decide (g.input.shape.rank ≤ a) with
  | some axis =>
    simp only [Outcome.report_ne_ok, false_iff, not_and]
    intro h
    have := h axis (List.mem_of_find?_eq_some haxis)
    have := List.find?_some haxis
    simp at this
    omega
  | none =>
    have h : ∀ a ∈ g.input.dynamicAxes, a < g.input.shape.rank := by
      simpa using List.find?_eq_none.1 haxis
    simp only [Outcome.bind_eq_ok, foldlM_checkNode_eq_ok, Outcome.liftM_eq_ofExcept,
      Outcome.ofExcept_eq_ok, checkOutput_eq_ok]
    constructor
    · rintro ⟨_, ⟨hall, rfl⟩, hout⟩
      exact ⟨h, hall, hout⟩
    · rintro ⟨-, hall, hout⟩
      exact ⟨_, ⟨hall, rfl⟩, hout⟩

theorem validate_eq_ok {g g' : Graph α} : g.validate = .ok g' ↔ g.Valid ∧ g' = g := by
  rw [validate, Outcome.bind_eq_ok, Valid]
  constructor
  · rintro ⟨_, h, h'⟩
    exact ⟨h, (Outcome.pure_eq_ok_iff.1 h').symm⟩
  · rintro ⟨h, rfl⟩
    exact ⟨_, h, rfl⟩

end Graph

end NetPack
