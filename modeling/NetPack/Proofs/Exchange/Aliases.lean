import NetPack.Proofs.Exchange.Definitions

/-!
# Further names for values

An operator that changes nothing leaves no trace in a lifted graph. Wherever such an operator is put
behind the definition of a value, and whichever of the later operands are called by the further
name that it gives, the same graph is lifted (`Exchange.toGraph_of_copy`). If the further name is
declared as the output instead of the value, only the name of the output changes.

The runs on both files are compared operator by operator (`Exchange.Mirrors.step`). They know the
same values, and the further name stands for what the value stands for (`Exchange.Mirrors`). This
needs that the value is not defined again, and that it is known at all: only the first result of an
operator is (`Exchange.not_forall_copied`).
-/

namespace NetPack

namespace Exchange

/-- One operand is called as the other one, or it is called `f` instead of `v`. -/
def Redirected (v f i i' : String) : Prop := i' = i ∨ i = v ∧ i' = f

namespace Operator

/-- The operator `o'` is `o`, some of whose operands `v` are called `f`. -/
def Redirects (v f : String) (o o' : Operator) : Prop :=
  ∃ inputs, o' = { o with inputs } ∧ List.Forall₂ (Redirected v f) o.inputs inputs

/-- The operator changes nothing, and its first result `f` is a further name for the value `v`.
Besides the value it may read constants, as for the rate of a dropout. -/
structure Copies (o : Operator) (graph : Graph) (v f : String) : Prop where
  isAlias : o.isAlias = true
  operands : ∃ rest, o.operands = v :: rest ∧ ∀ i ∈ rest, i ∈ graph.initializerNames
  result : o.result? = some f

end Operator

/-- The name is not empty, and it occurs nowhere in the graph. -/
structure Graph.Unused (graph : Graph) (f : String) : Prop where
  given : f ≠ ""
  initializers : f ∉ graph.initializerNames
  inputs : ∀ v ∈ graph.inputs, v.name ≠ f
  outputs : ∀ v ∈ graph.outputs, v.name ≠ f
  operators : ∀ o ∈ graph.operators, f ∉ o.inputs ∧ f ∉ o.outputs

/-- Gives a value of a graph another name wherever it occurs. -/
def renameValue (old new : String) (g : NetPack.Graph Binary32) : NetPack.Graph Binary32 :=
  { g with
    input := { g.input with name := if g.input.name = old then new else g.input.name }
    output := { g.output with name := if g.output.name = old then new else g.output.name }
    nodes := g.nodes.map (renameIn old new) }

/-- The name may stand for a value: it is given, and no constant has it. -/
def NamesValue (constants : Constants) (v : String) : Prop :=
  v ≠ "" ∧ constants.lookup v = none

variable {constants : Constants} {v f : String} {o o' : Operator}

/-! ### Redirected operands -/

section Operands

variable {is is' : List String}

theorem getElem?_redirected (h : List.Forall₂ (Redirected v f) is is') (k : Nat) :
    is'[k]? = is[k]? ∨ is[k]? = some v ∧ is'[k]? = some f := by
  induction h generalizing k with
  | nil => exact .inl rfl
  | @cons i i' is is' hi _ ih =>
    cases k with
    | zero => simpa [Redirected] using hi
    | succ k => simpa using ih k

/-- A property that both names share selects redirected operands. -/
theorem forall₂_filter_redirected {p : String → Bool} (hp : p v = p f)
    (h : List.Forall₂ (Redirected v f) is is') :
    List.Forall₂ (Redirected v f) (is.filter p) (is'.filter p) := by
  refine List.rel_filter (fun i i' hi => ?_) h
  rcases hi with rfl | ⟨rfl, rfl⟩
  · rfl
  · exact iff_of_eq (congrArg (· = true) hp)

/-- Where `v` does not occur, nothing is redirected. -/
theorem eq_of_redirected (hv : v ∉ is) (h : List.Forall₂ (Redirected v f) is is') : is' = is := by
  induction h with
  | nil => rfl
  | cons hi _ ih =>
    rw [List.mem_cons, not_or] at hv
    rcases hi with rfl | ⟨rfl, -⟩
    · rw [ih hv.2]
    · exact absurd rfl hv.1

end Operands

namespace Operator.Redirects

theorem operands (h : o.Redirects v f o') (hv : NamesValue constants v)
    (hf : NamesValue constants f) : List.Forall₂ (Redirected v f) o.operands o'.operands := by
  obtain ⟨inputs, rfl, h⟩ := h
  refine forall₂_filter_redirected ?_ h
  rw [String.isEmpty_eq_false_iff.2 hv.1, String.isEmpty_eq_false_iff.2 hf.1]

theorem constantOperands (h : o.Redirects v f o') (hv : NamesValue constants v)
    (hf : NamesValue constants f) :
    o'.constantOperands constants = o.constantOperands constants := by
  refine eq_of_redirected (fun hmem => ?_)
    (forall₂_filter_redirected (by rw [hv.2, hf.2]) (h.operands hv hf))
  exact (mem_constantOperands.1 hmem).2.2 hv.2

theorem valueOperands (h : o.Redirects v f o') (hv : NamesValue constants v)
    (hf : NamesValue constants f) {source : String}
    (hsource : o.valueOperands constants = [source]) :
    ∃ source', o'.valueOperands constants = [source'] ∧ Redirected v f source source' := by
  have hvalues : List.Forall₂ (Redirected v f) (o.valueOperands constants)
      (o'.valueOperands constants) :=
    forall₂_filter_redirected (by rw [hv.2, hf.2]) (h.operands hv hf)
  rw [hsource] at hvalues
  obtain ⟨source', rest, hredirected, hrest, heq⟩ := List.forall₂_cons_left_iff.1 hvalues
  rw [List.forall₂_nil_left_iff.1 hrest] at heq
  exact ⟨source', heq, hredirected⟩

/-- **What an operator is lifted to does not depend on the names of its values.** -/
theorem liftOperator (h : o.Redirects v f o') (hv : NamesValue constants v)
    (hf : NamesValue constants f) (name : String) (rank : Nat) :
    Exchange.liftOperator { o' with name } constants rank =
      Exchange.liftOperator { o with name } constants rank := by
  obtain ⟨inputs, rfl, h⟩ := h
  have hkernel : checkKernelShape { o with inputs, name } constants =
      checkKernelShape { o with name } constants := by
    have hweight : (inputs[1]?.bind fun i => constants.lookup i) =
        o.inputs[1]?.bind fun i => constants.lookup i := by
      rcases getElem?_redirected h 1 with hsame | ⟨hold, hnew⟩
      · rw [hsame]
      · rw [hold, hnew, Option.bind_some, Option.bind_some, hv.2, hf.2]
    simp only [checkKernelShape, hweight]
    rfl
  have hbound : ∀ index field, clipBound { o with inputs, name } constants index field =
      clipBound { o with name } constants index field := by
    intro index field
    rcases getElem?_redirected h index with hsame | ⟨hold, hnew⟩
    · simp only [clipBound, hsame]
      rfl
    · have hgiven : ∀ {w : String}, NamesValue constants w →
          (some w).filter (fun n => !n.isEmpty) = some w := by
        intro w hw
        simp [hw.1]
      simp only [clipBound, hold, hnew, hgiven hv, hgiven hf, hv.2, hf.2]
      rfl
  simp only [Exchange.liftOperator, liftConv, liftClip, hkernel, hbound]
  rfl

end Operator.Redirects

/-! ### Two runs -/

/-- The second run knows the same as the first one and `f` as a further name for `v`. -/
structure Mirrors (v f : String) (s s' : Lifting) : Prop where
  nodes : s'.nodes = s.nodes
  params : s'.params = s.params
  others : ∀ name, name ≠ f → s'.values.lookup name = s.values.lookup name
  copy : s'.values.lookup f = s.values.lookup v

section Runs

variable {os os' : List Operator} {s s' t : Lifting} {k : Nat}

/-- A new value with a name of its own is known to both runs. -/
theorem Mirrors.define (h : Mirrors v f s s') {output value : String} {shape : Shape}
    (hv : output ≠ v) (hf : output ≠ f) {nodes : List (Node Binary32)}
    {params : Table (Tensor Binary32)} :
    Mirrors v f ⟨(output, value, shape) :: s.values, nodes, params⟩
      ⟨(output, value, shape) :: s'.values, nodes, params⟩ := by
  refine ⟨rfl, rfl, fun name hname => ?_, ?_⟩
  · rw [List.lookup_cons, List.lookup_cons, h.others name hname]
  · rw [List.lookup_cons, List.lookup_cons, beq_false_of_ne hf.symm, beq_false_of_ne hv.symm]
    exact h.copy

/-- The second run finds under a redirected name what the first one finds. -/
theorem Mirrors.lookup (h : Mirrors v f s s') {source source' : String} (hsource : source ≠ f)
    (hredirected : Redirected v f source source') :
    s'.values.lookup source' = s.values.lookup source := by
  rcases hredirected with rfl | ⟨rfl, rfl⟩
  · exact h.others _ hsource
  · exact h.copy

/-- What an operator has to satisfy that is redirected: it has a name of its own, it defines neither
of both values, and `f` is not among its operands. -/
structure Operator.Leaves (o : Operator) (v f : String) : Prop where
  named : o.name ≠ ""
  unread : f ∉ o.inputs
  keeps : o.result? ≠ some v
  fresh : o.result? ≠ some f

/-- **One operator is lifted alike in both runs.** -/
theorem Mirrors.step (hs : Mirrors v f s s') (hv : NamesValue constants v)
    (hf : NamesValue constants f) (ho : o.Redirects v f o') (hleaves : o.Leaves v f)
    (h : liftNode constants s (o, k) = .ok t) (k' : Nat) :
    ∃ t', liftNode constants s' (o', k') = .ok t' ∧ Mirrors v f t t' := by
  obtain ⟨source, value, shape, output, hsource, hvalue, houtput, hgiven, hstep⟩ :=
    liftNode_eq_ok_iff.1 h
  obtain ⟨source', hsource', hredirected⟩ := ho.valueOperands hv hf hsource
  have hread : source ≠ f := by
    rintro rfl
    exact hleaves.unread (Operator.mem_valueOperands.1 (hsource ▸ List.mem_singleton_self _)).1
  have hvalue' : s'.values.lookup source' = some (value, shape) :=
    (hs.lookup hread hredirected).trans hvalue
  have hlift := ho.liftOperator hv hf (nodeName o k) shape.rank
  have hconstants := ho.constantOperands hv hf
  have hname : nodeName o' k' = nodeName o k := by
    obtain ⟨inputs, rfl, -⟩ := ho
    have hne : o.name.isEmpty = false := String.isEmpty_eq_false_iff.2 hleaves.named
    rw [nodeName, nodeName, hne]
    rfl
  have houtput' : o'.outputs.head? = some output := by
    obtain ⟨inputs, rfl, -⟩ := ho
    exact houtput
  have hkeeps : output ≠ v := fun heq => hleaves.keeps (houtput.trans (congrArg some heq))
  have hfresh : output ≠ f := fun heq => hleaves.fresh (houtput.trans (congrArg some heq))
  rcases hstep with ⟨hlifted, rfl⟩ | ⟨op, outputShape, hlifted, hinfer, rfl⟩
  · refine ⟨{ s' with values := (output, value, shape) :: s'.values }, ?_, ?_⟩
    · refine liftNode_eq_ok_iff.2 ⟨source', value, shape, output, hsource', hvalue', houtput',
        hgiven, .inl ⟨?_, rfl⟩⟩
      rw [hname, hlift, hlifted]
    · rw [hs.nodes, hs.params]
      exact hs.define hkeeps hfresh
  · refine ⟨_, liftNode_eq_ok_iff.2 ⟨source', value, shape, output, hsource', hvalue', houtput',
      hgiven, .inr ⟨op, outputShape, ?_, ?_, rfl⟩⟩, ?_⟩
    · rw [hname, hlift, hlifted]
    · rw [hconstants, hinfer]
    · rw [hname, hconstants, hs.nodes, hs.params]
      exact hs.define hkeeps hfresh

/-- **All operators are lifted alike in both runs.** -/
theorem Mirrors.run (hs : Mirrors v f s s') (hv : NamesValue constants v)
    (hf : NamesValue constants f) (hos : List.Forall₂ (Operator.Redirects v f) os os')
    (hleaves : ∀ o ∈ os, o.Leaves v f)
    (h : (os.zipIdx k).foldlM (liftNode constants) s = .ok t) (k' : Nat) :
    ∃ t', (os'.zipIdx k').foldlM (liftNode constants) s' = .ok t' ∧ Mirrors v f t t' := by
  induction hos generalizing s s' k k' with
  | nil =>
    obtain rfl := Outcome.pure_eq_ok_iff.1 h
    exact ⟨s', rfl, hs⟩
  | @cons o o' os os' ho _ ih =>
    rw [List.forall_mem_cons] at hleaves
    rw [List.zipIdx_cons, List.foldlM_cons] at h
    obtain ⟨s₁, hnode, h⟩ := Outcome.bind_eq_ok.1 h
    obtain ⟨s₁', hnode', hs₁⟩ := hs.step hv hf ho hleaves.1 hnode k'
    obtain ⟨t', hrun, ht⟩ := ih hs₁ hleaves.2 h (k' + 1)
    refine ⟨t', ?_, ht⟩
    rw [List.zipIdx_cons, List.foldlM_cons, hnode', Outcome.ok_bind]
    exact hrun

/-- An operator that changes nothing adds a name. -/
theorem liftNode_of_copies {graph : Graph} {value : String} {shape : Shape}
    (hcopy : o.Copies graph v f) (hv : NamesValue constants v)
    (hconstants : ∀ i ∈ graph.initializerNames, constants.lookup i ≠ none) (hf : f ≠ "")
    (hvalue : s.values.lookup v = some (value, shape)) :
    liftNode constants s (o, k) = .ok { s with values := (f, value, shape) :: s.values } := by
  obtain ⟨rest, hoperands, hrest⟩ := hcopy.operands
  obtain ⟨hsource, -⟩ :=
    Operator.split_of_value hoperands (fun i hi => hconstants i (hrest i hi)) hv.2
  have hlifted : liftOperator { o with name := nodeName o k } constants shape.rank = .ok none :=
    liftOperator_of_isAlias hcopy.isAlias
  exact liftNode_eq_ok_iff.2 ⟨v, value, shape, f, hsource, hvalue, hcopy.result, hf,
    .inl ⟨hlifted, rfl⟩⟩

/-- The names that are known behind some operators. -/
theorem isSome_lookup_run (h : (os.zipIdx k).foldlM (liftNode constants) s = .ok t)
    (name : String) : (t.values.lookup name).isSome ↔
      (s.values.lookup name).isSome ∨ name ∈ os.filterMap (·.result?) := by
  induction os generalizing s k with
  | nil =>
    obtain rfl := Outcome.pure_eq_ok_iff.1 h
    simp
  | cons o os ih =>
    rw [List.zipIdx_cons, List.foldlM_cons] at h
    obtain ⟨s₁, hnode, h⟩ := Outcome.bind_eq_ok.1 h
    obtain ⟨source, value, shape, output, -, -, houtput, -, hstep⟩ := liftNode_eq_ok_iff.1 hnode
    have hvalues : ∃ e, s₁.values = (output, e) :: s.values := by
      rcases hstep with ⟨-, rfl⟩ | ⟨op, outputShape, -, -, rfl⟩
      · exact ⟨_, rfl⟩
      · exact ⟨_, rfl⟩
    obtain ⟨e, hvalues⟩ := hvalues
    have hresult : o.result? = some output := houtput
    rw [ih h, hvalues, List.filterMap_cons, hresult, List.mem_cons, List.lookup_cons]
    by_cases hname : name = output
    · simp [hname]
    · simp [beq_false_of_ne hname, hname]

/-- Every value that is known or used by a node stands for itself. -/
structure Lifting.Settled (s : Lifting) : Prop where
  values : ∀ e ∈ s.values, ∃ shape, s.values.lookup e.2.1 = some (e.2.1, shape)
  inputs : ∀ n ∈ s.nodes, ∃ shape, s.values.lookup n.input = some (n.input, shape)
  outputs : ∀ n ∈ s.nodes, ∃ shape, s.values.lookup n.output = some (n.output, shape)

theorem Lifting.Settled.step (hs : s.Settled) (h : liftNode constants s (o, k) = .ok t)
    (hnew : ∀ output, o.result? = some output → s.values.lookup output = none) : t.Settled := by
  obtain ⟨source, value, shape, output, -, hvalue, houtput, -, hstep⟩ := liftNode_eq_ok_iff.1 h
  have hfresh : s.values.lookup output = none := hnew output houtput
  -- A value that was settled is not the new one, which was not known.
  have hkeeps : ∀ {e : String × Shape} {w : String},
      (∃ shape, s.values.lookup w = some (w, shape)) →
        ∃ shape, ((output, e) :: s.values).lookup w = some (w, shape) := by
    rintro e w ⟨shape, hw⟩
    have hne : w ≠ output := by
      rintro rfl
      rw [hfresh] at hw
      cases hw
    exact ⟨shape, by rw [List.lookup_cons, beq_false_of_ne hne, hw]⟩
  have hread := hs.values _ (Table.mem_of_lookup hvalue)
  rcases hstep with ⟨-, rfl⟩ | ⟨op, outputShape, -, -, rfl⟩
  · exact ⟨List.forall_mem_cons.2 ⟨hkeeps hread, fun e he => hkeeps (hs.values e he)⟩,
      fun n hn => hkeeps (hs.inputs n hn), fun n hn => hkeeps (hs.outputs n hn)⟩
  · have hself : ∃ shape, ((output, output, outputShape) :: s.values).lookup output =
        some (output, shape) := ⟨outputShape, List.lookup_cons_self⟩
    exact ⟨List.forall_mem_cons.2 ⟨hself, fun e he => hkeeps (hs.values e he)⟩,
      List.forall_mem_append.2 ⟨fun n hn => hkeeps (hs.inputs n hn),
        List.forall_mem_singleton.2 (hkeeps hread)⟩,
      List.forall_mem_append.2 ⟨fun n hn => hkeeps (hs.outputs n hn),
        List.forall_mem_singleton.2 hself⟩⟩

theorem Lifting.Settled.run (hs : s.Settled) (hnodup : (os.filterMap (·.result?)).Nodup)
    (hnew : ∀ name ∈ os.filterMap (·.result?), s.values.lookup name = none)
    (h : (os.zipIdx k).foldlM (liftNode constants) s = .ok t) : t.Settled := by
  induction os generalizing s k with
  | nil =>
    obtain rfl := Outcome.pure_eq_ok_iff.1 h
    exact hs
  | cons o os ih =>
    rw [List.zipIdx_cons, List.foldlM_cons] at h
    obtain ⟨s₁, hnode, h⟩ := Outcome.bind_eq_ok.1 h
    obtain ⟨-, -, -, output, -, -, houtput, -⟩ := liftNode_eq_ok_iff.1 hnode
    have hresult : o.result? = some output := houtput
    rw [List.filterMap_cons, hresult] at hnodup hnew
    rw [List.forall_mem_cons] at hnew
    obtain ⟨hfirst, hrest⟩ := List.nodup_cons.1 hnodup
    refine ih (hs.step hnode fun output' houtput' => ?_) hrest (fun name hname => ?_) h
    · obtain rfl : output = output' := Option.some.inj (hresult.symm.trans houtput')
      exact hnew.1
    · have hone : ([o].zipIdx k).foldlM (liftNode constants) s = .ok s₁ := by
        rw [List.zipIdx_cons, List.foldlM_cons, hnode]
        rfl
      have hknown := isSome_lookup_run hone name
      rw [← Option.not_isSome_iff_eq_none, hknown, hnew.2 name hname]
      have hne : name ≠ output := fun heq => hfirst (heq ▸ hname)
      simp [hresult, hne]

/-- Where no node uses `v` as another name for a value, giving it the name `v` first and the name
`f` then is giving it the name `f`. -/
theorem Lifting.Settled.map_renameIn (hs : s.Settled) {value : String} {shape : Shape}
    (hv : s.values.lookup v = some (value, shape)) :
    (s.nodes.map (renameIn value v)).map (renameIn v f) = s.nodes.map (renameIn value f) := by
  have hname : ∀ {w : String}, (∃ shape, s.values.lookup w = some (w, shape)) →
      (if (if w = value then v else w) = v then f else if w = value then v else w) =
        if w = value then f else w := by
    rintro w ⟨shape', hw⟩
    by_cases hvalue : w = value
    · rw [if_pos hvalue, if_pos rfl, if_pos hvalue]
    · have hne : w ≠ v := by
        rintro rfl
        rw [hw] at hv
        exact hvalue (Prod.mk.inj (Option.some.inj hv)).1
      rw [if_neg hvalue, if_neg hne, if_neg hvalue]
  rw [List.map_map]
  refine List.map_congr_left fun n hn => ?_
  exact congrArg₂ (fun input output => { n with input, output })
    (hname (hs.inputs n hn)) (hname (hs.outputs n hn))

end Runs

/-! ### Declared values -/

theorem declaredExtents_rename {value : String} {batch : Nat} {dims : List Dimension}
    {sizes : List Nat × List Nat} (h : declaredExtents value batch dims = .ok sizes)
    (name : String) : declaredExtents name batch dims = .ok sizes := by
  refine Outcome.foldlM_eq_ok_of_imp ?_ h
  rintro ⟨dim, axis⟩ - before after hstep
  dsimp only at hstep ⊢
  split at hstep
  · split at hstep
    · rename_i hpos
      rw [if_pos hpos]
      exact hstep
    · cases hstep
  · split at hstep
    · rename_i haxis
      rw [if_pos haxis]
      exact hstep
    · cases hstep

/-- The name of a declared value is seen in errors only. -/
theorem declaredShape_rename {value : Value} {batch : Nat} {declared : Shape × List Nat}
    (h : declaredShape value batch = .ok declared) (name : String) :
    declaredShape { value with name } batch = .ok declared := by
  unfold declaredShape at h ⊢
  split at h
  · rename_i elementType dims htype
    rw [htype]
    dsimp only at h ⊢
    split at h
    · cases h
    · rename_i hdims
      obtain ⟨sizes, hsizes, h⟩ := Outcome.bind_eq_ok.1 h
      rw [if_neg hdims, declaredExtents_rename hsizes name, Outcome.ok_bind]
      split at h
      · cases h
      · rename_i hbytes
        rw [if_neg hbytes]
        exact h
  · cases h

/-! ### Whole files -/

section WholeFiles

variable {m : Model} {graph : Graph} {batch : Nat} {g : NetPack.Graph Binary32}
  {before after after' : List Operator} {input : String}

theorem results_append (hoperators : graph.operators = before ++ after) :
    graph.results = before.filterMap (·.result?) ++ after.filterMap (·.result?) := by
  rw [Graph.results, hoperators, List.filterMap_append]

/-- What is copied is given and no constant. -/
theorem Operator.Copies.namesValue (hcopy : o.Copies graph v f)
    (hconstants : constantsOf graph = .ok constants) (hv : v ∈ input :: graph.results)
    (hnodup : (graph.definitions input).Nodup) : NamesValue constants v := by
  obtain ⟨rest, hoperands, -⟩ := hcopy.operands
  have hmem : v ∈ o.operands := hoperands ▸ List.mem_cons_self
  refine ⟨?_, (lookup_constantsOf_eq_none hconstants).2 fun hinitializer => ?_⟩
  · simpa using (List.mem_filter.1 hmem).2
  · exact (List.nodup_append.1 hnodup).2.2 v hinitializer v hv rfl

/-- No operator behind the definition of a value defines it again or uses an unused name. -/
theorem leaves_of_mem (hoperators : graph.operators = before ++ after)
    (hnames : ∀ o ∈ graph.operators, o.name ≠ "") (hnodup : (graph.definitions input).Nodup)
    (hv : v ∈ input :: before.filterMap (·.result?)) (hf : graph.Unused f) :
    ∀ o ∈ after, o.Leaves v f := by
  intro o ho
  have hmem : o ∈ graph.operators := hoperators ▸ List.mem_append_right before ho
  obtain ⟨hinputs, houtputs⟩ := hf.operators o hmem
  refine ⟨hnames o hmem, hinputs, fun hresult => ?_, fun hresult => ?_⟩
  · obtain ⟨-, hvalues, -⟩ := List.nodup_append.1 hnodup
    rw [results_append hoperators, ← List.cons_append] at hvalues
    exact (List.nodup_append.1 hvalues).2.2 v hv v (List.mem_filterMap.2 ⟨o, ho, hresult⟩) rfl
  · exact houtputs (List.mem_of_mem_head? hresult)

/-- Both runs agree up to the operator that is put in, and then they mirror each other. -/
theorem exists_run_of_copy {copy : Operator} {shape : Shape} {t : Lifting}
    (hoperators : graph.operators = before ++ after)
    (hconstants : constantsOf graph = .ok constants)
    (hfold : graph.operators.zipIdx.foldlM (liftNode constants)
      ⟨[(input, input, shape)], [], .empty⟩ = .ok t)
    (hnames : ∀ o ∈ graph.operators, o.name ≠ "") (hnodup : (graph.definitions input).Nodup)
    (hv : v ∈ input :: before.filterMap (·.result?)) (hcopy : copy.Copies graph v f)
    (hf : graph.Unused f) (hafter : List.Forall₂ (Operator.Redirects v f) after after') :
    ∃ t', (before ++ copy :: after').zipIdx.foldlM (liftNode constants)
      ⟨[(input, input, shape)], [], .empty⟩ = .ok t' ∧ Mirrors v f t t' := by
  have hvname : NamesValue constants v := by
    refine hcopy.namesValue hconstants ?_ hnodup
    rw [results_append hoperators, ← List.cons_append]
    exact List.mem_append_left _ hv
  have hfname : NamesValue constants f :=
    ⟨hf.given, (lookup_constantsOf_eq_none hconstants).2 hf.initializers⟩
  rw [hoperators, List.zipIdx_append, List.foldlM_append] at hfold
  obtain ⟨s, hbefore, hrest⟩ := Outcome.bind_eq_ok.1 hfold
  obtain ⟨e, he⟩ : ∃ e, s.values.lookup v = some e := by
    refine Option.isSome_iff_exists.1 ((isSome_lookup_run hbefore v).2 ?_)
    rcases List.mem_cons.1 hv with rfl | hv
    · exact .inl (by rw [List.lookup_cons_self]; rfl)
    · exact .inr hv
  have hcopied : Mirrors v f s { s with values := (f, e) :: s.values } := by
    refine ⟨rfl, rfl, fun name hname => ?_, ?_⟩
    · rw [List.lookup_cons, beq_false_of_ne hname]
    · rw [List.lookup_cons_self, he]
  obtain ⟨t', hrun, ht⟩ := hcopied.run hvname hfname hafter
    (leaves_of_mem hoperators hnames hnodup hv hf) hrest (0 + before.length + 1)
  have hnode : liftNode constants s (copy, 0 + before.length) =
      .ok { s with values := (f, e) :: s.values } := by
    refine liftNode_of_copies hcopy hvname (fun i hi hnone => ?_) hf.given he
    exact (lookup_constantsOf_eq_none hconstants).1 hnone hi
  refine ⟨t', ?_, ht⟩
  rw [List.zipIdx_append, List.foldlM_append, hbefore, Outcome.ok_bind, List.zipIdx_cons,
    List.foldlM_cons, hnode, Outcome.ok_bind]
  exact hrun

/-- Where nothing is defined twice, all values stand for themselves in the end. -/
theorem settled_of_definitions {shape : Shape} {t : Lifting}
    (hfold : graph.operators.zipIdx.foldlM (liftNode constants)
      ⟨[(input, input, shape)], [], .empty⟩ = .ok t)
    (hnodup : (graph.definitions input).Nodup) : t.Settled := by
  obtain ⟨-, hvalues, -⟩ := List.nodup_append.1 hnodup
  obtain ⟨hinput, hresults⟩ := List.nodup_cons.1 hvalues
  have hstart : Lifting.Settled ⟨[(input, input, shape)], [], .empty⟩ :=
    ⟨List.forall_mem_singleton.2 ⟨shape, List.lookup_cons_self⟩, by simp, by simp⟩
  refine hstart.run hresults (fun name hname => ?_) hfold
  have hne : name ≠ input := fun heq => hinput (heq ▸ hname)
  rw [List.lookup_cons, beq_false_of_ne hne]
  rfl

/-- **Operators that change nothing are invisible.** Behind the definition of a value an operator
may be put that only gives it a further name, and any later operands may be called by that name: the
same graph is lifted. If the value is a result and the declared output, and the further name is
declared instead, then the graph has the further name in place of the value. -/
theorem toGraph_of_copy {copy : Operator} (hgraph : m.graph = some graph)
    (hoperators : graph.operators = before ++ after) (h : toGraph m batch = .ok g)
    (hnames : ∀ o ∈ graph.operators, o.name ≠ "")
    (hnodup : (graph.definitions g.input.name).Nodup)
    (hv : v ∈ g.input.name :: before.filterMap (·.result?)) (hcopy : copy.Copies graph v f)
    (hf : graph.Unused f) (hafter : List.Forall₂ (Operator.Redirects v f) after after') :
    let copied := { graph with operators := before ++ copy :: after' }
    toGraph { m with graph := some copied } batch = .ok g ∧
      ∀ output, graph.outputs = [output] → output.name = v → v ∈ graph.results →
        toGraph { m with graph := some { copied with outputs := [{ output with name := f }] } }
          batch = .ok (renameValue v f g) := by
  intro copied
  obtain ⟨graph', constants, input, shape, axes, t, output, value, outputShape, outputAxes, hgraph',
    hconstants, hinput, hshape, hfold, houtput, hvalue, houtputShape, rfl⟩ :=
    toGraph_eq_ok_iff.1 h
  obtain rfl : graph = graph' := Option.some.inj (hgraph.symm.trans hgraph')
  obtain ⟨t', hfold', ht⟩ := exists_run_of_copy hoperators hconstants hfold hnames hnodup hv hcopy
    hf hafter
  constructor
  · have hother : output.name ≠ f := hf.outputs output (houtput ▸ List.mem_singleton_self output)
    refine toGraph_eq_ok_iff.2 ⟨copied, constants, input, shape, axes, t', output, value,
      outputShape, outputAxes, rfl, hconstants, hinput, hshape, hfold', houtput, ?_, houtputShape,
      ?_⟩
    · rw [ht.others _ hother, hvalue]
    · rw [ht.nodes, ht.params]
  · rintro output' houtput' rfl hresult
    obtain rfl : output = output' := List.head_eq_of_cons_eq (houtput.symm.trans houtput')
    have hne : input.name ≠ output.name := by
      obtain ⟨-, hvalues, -⟩ := List.nodup_append.1 hnodup
      intro heq
      exact (List.nodup_cons.1 hvalues).1 (heq ▸ hresult)
    refine toGraph_eq_ok_iff.2 ⟨_, constants, input, shape, axes, t', _, value,
      outputShape, outputAxes, rfl, hconstants, hinput, hshape, hfold', rfl, ?_,
      declaredShape_rename houtputShape f, ?_⟩
    · rw [← hvalue]
      exact ht.copy
    · -- The nodes have the value as it was computed until the output gives it another name.
      have hsettled := settled_of_definitions hfold hnodup
      rw [renameValue, ht.nodes, ht.params]
      dsimp only
      rw [hsettled.map_renameIn hvalue, if_neg hne, if_pos rfl]

/-- A graph of two values of the shape `1 × 2`, with the given operators between them. -/
def rowGraph (operators : List Operator) (output : String) : Graph where
  operators
  name := "g"
  initializers := []
  inputs := [⟨"x", .tensor 1 (some [.value 1, .value 2])⟩]
  outputs := [⟨output, .tensor 1 (some [.value 1, .value 2])⟩]

/-- The file of such a graph. -/
def rowModel (operators : List Operator) (output : String) : Model where
  irVersion := 7
  producerName := ""
  producerVersion := ""
  operatorSets := [⟨"", 14⟩]
  graph := some (rowGraph operators output)

/-- A dropout with its mask behind an activation, which is read instead of the activation, and a
further name for the output. -/
theorem toGraph_of_copy_dropout :
    let relu : Operator := ⟨["x"], ["a"], "relu", "Relu", []⟩
    let flat : Operator := ⟨["a"], ["y"], "flat", "Flatten", []⟩
    toGraph (rowModel [relu, ⟨["a"], ["b", "mask"], "drop", "Dropout", []⟩,
        { flat with inputs := ["b"] }] "y") 1 = .ok (copyGraph "a") ∧
      toGraph (rowModel [relu, flat, ⟨["y"], ["z"], "id", "Identity", []⟩] "z") 1 =
        .ok (renameValue "y" "z" (copyGraph "a")) := by
  intro relu flat
  have hgraph : toGraph (rowModel [relu, flat] "y") 1 = .ok (copyGraph "a") := rfl
  have hnames : ∀ o ∈ (rowGraph [relu, flat] "y").operators, o.name ≠ "" := by decide
  have hnodup : ((rowGraph [relu, flat] "y").definitions (copyGraph "a").input.name).Nodup := by
    decide
  have hunused : ∀ f, f ≠ "" → f ∉ ["x", "a", "y"] → (rowGraph [relu, flat] "y").Unused f := by
    intro f hgiven hf
    simp only [List.mem_cons, List.not_mem_nil, or_false, not_or] at hf
    obtain ⟨hx, ha, hy⟩ := hf
    exact ⟨hgiven, by simp [Graph.initializerNames, rowGraph], by simp [rowGraph, Ne.symm hx],
      by simp [rowGraph, Ne.symm hy], by simp [rowGraph, relu, flat, hx, ha, hy]⟩
  constructor
  · let drop : Operator := ⟨["a"], ["b", "mask"], "drop", "Dropout", []⟩
    have hcopy : drop.Copies (rowGraph [relu, flat] "y") "a" "b" :=
      ⟨rfl, ⟨[], rfl, by simp⟩, rfl⟩
    have hoperators : (rowGraph [relu, flat] "y").operators = [relu] ++ [flat] := rfl
    have hredirects : List.Forall₂ (Operator.Redirects "a" "b") [flat]
        [{ flat with inputs := ["b"] }] :=
      .cons ⟨["b"], rfl, .cons (.inr ⟨rfl, rfl⟩) .nil⟩ .nil
    obtain ⟨hsame, -⟩ := toGraph_of_copy rfl hoperators hgraph hnames hnodup (by decide) hcopy
      (hunused "b" (by decide) (by decide)) hredirects
    exact hsame
  · let id : Operator := ⟨["y"], ["z"], "id", "Identity", []⟩
    have hcopy : id.Copies (rowGraph [relu, flat] "y") "y" "z" :=
      ⟨rfl, ⟨[], rfl, by simp⟩, rfl⟩
    have hoperators : (rowGraph [relu, flat] "y").operators = [relu, flat] ++ [] := rfl
    obtain ⟨-, hrenamed⟩ := toGraph_of_copy rfl hoperators hgraph hnames hnodup (by decide) hcopy
      (hunused "z" (by decide) (by decide)) .nil
    exact hrenamed _ rfl rfl (by decide)

/-- **A further result of an operator is no value.** A dropout has a mask as its second result, and
an operator that gives another name to the mask is not skipped. -/
theorem not_forall_copied : ¬ ∀ (m : Model) (graph : Graph) (batch : Nat)
    (g : NetPack.Graph Binary32) (v f : String) (before after after' : List Operator)
    (copy : Operator), m.graph = some graph → graph.operators = before ++ after →
      toGraph m batch = .ok g → (∀ o ∈ graph.operators, o.name ≠ "") →
      (graph.initializerNames ++ g.input.name :: graph.operators.flatMap (·.outputs)).Nodup →
      v ∈ g.input.name :: before.flatMap (·.outputs) → copy.Copies graph v f → graph.Unused f →
      List.Forall₂ (Operator.Redirects v f) after after' →
      toGraph { m with graph := some { graph with operators := before ++ copy :: after' } } batch =
        .ok g := by
  intro h
  let before : List Operator :=
    [⟨["x"], ["r"], "relu", "Relu", []⟩, ⟨["r"], ["y", "mask"], "drop", "Dropout", []⟩]
  let copy : Operator := ⟨["mask"], ["f"], "id", "Identity", []⟩
  have hunused : (rowGraph before "y").Unused "f" :=
    ⟨by decide, by decide, by decide, by decide, by decide⟩
  have hlift := h (rowModel before "y") _ 1 _ "mask" "f" before [] [] copy rfl rfl rfl
    (by decide) (by decide) (by decide) ⟨rfl, ⟨[], rfl, by simp⟩, rfl⟩ hunused .nil
  have hrefused : (toGraph { rowModel before "y" with
      graph := some { rowGraph before "y" with operators := before ++ [copy] } } 1).isOk =
        false := rfl
  rw [hlift] at hrefused
  cases hrefused

end WholeFiles

end Exchange

end NetPack
