import NetPack.Proofs.Exchange.Integers
import NetPack.Proofs.Exchange.Lifting

/-!
# What every lifted graph satisfies

An exchange file may come from any program, and lifting is not picky: names may be left out,
initializers may be unused or hold their numbers in either form, and operators that change nothing
may stand anywhere. What is lifted does not show this any more (`Exchange.lifted_of_toGraph`). Its
nodes have names and small hyper-parameters, its constants and its declared values can be written
again, and it has no parameters but those that nodes read.
-/

namespace NetPack

/-- The names of the values of a graph. -/
def Graph.valueNames {α : Type} (g : Graph α) : List String :=
  g.input.name :: g.nodes.map (·.output)

namespace Exchange

open Wire

/-! ### Constants -/

/-- The tensor of an initializer has its extents. -/
theorem toTensor_eq_ok {t : Initializer} {tensor : Tensor Binary32} (h : t.toTensor = .ok tensor) :
    tensor.WellFormed ∧ (tensor.shape.numBytes? .f32).isSome ∧
      t.dims.mapM natural? = some tensor.shape.dims := by
  simp only [Initializer.toTensor, Outcome.throw_eq_error, Outcome.error_bind] at h
  rw [Outcome.ite_eq_ok (by simp)] at h
  obtain ⟨-, h⟩ := h
  split at h
  · rename_i dims hdims
    rw [Outcome.ite_eq_ok (by simp)] at h
    obtain ⟨hbytes, h⟩ := h
    split at h
    · rename_i found hfound
      obtain rfl := Outcome.pure_eq_ok_iff.1 h
      have hproper : found.shape = ⟨dims⟩ ∧ found.WellFormed := by
        split at hfound
        · obtain ⟨rfl, hwell⟩ := Tensor.ofArray_eq_ok_iff.1 hfound
          exact ⟨rfl, hwell⟩
        · exact Tensor.ofBytes_eq_ok hfound
      rw [hproper.1]
      exact ⟨hproper.2, by simpa [Option.isSome_iff_ne_none] using hbytes, hdims⟩
    · cases h
  · cases h

/-- **Constants can be written again.** -/
theorem writable_of_toTensor {t : Initializer} {tensor : Tensor Binary32} (ht : t.Bounded)
    (h : t.toTensor = .ok tensor) : Writable tensor := by
  obtain ⟨hwell, hbytes, hdims⟩ := toTensor_eq_ok h
  exact ⟨hwell, hbytes, small_of_mapM ht hdims⟩

/-- Constants come from the initializers of their names. -/
theorem exists_of_constantsOf {graph : Graph} {constants : Constants}
    (h : constantsOf graph = .ok constants) :
    ∀ e ∈ constants, ∃ t ∈ graph.initializers, t.name = e.1 ∧ t.toTensor = .ok e.2 := by
  refine Outcome.of_foldlM (P := fun constants : Constants =>
    ∀ e ∈ constants, ∃ t ∈ graph.initializers, t.name = e.1 ∧ t.toTensor = .ok e.2) ?_ (by simp) h
  intro t hmem before after hbefore hstep
  split at hstep
  · rename_i tensor htensor
    obtain rfl := Except.ok.inj hstep
    exact List.forall_mem_cons.2 ⟨⟨t, hmem, rfl, htensor⟩, hbefore⟩
  · cases hstep

/-! ### Declared values -/

theorem small_of_pos {n : Int} (hn : Long n) (hpos : 0 < n) : 0 < n.toNat ∧ Small n.toNat := by
  have hlt := hn.2
  rw [Small]
  omega

/-- Where every axis adds its extent and no axis is dynamic, all extents are given. -/
theorem extents_of_foldlM {step : List Nat × List Nat → Dimension × Nat →
      Except ExchangeError (List Nat × List Nat)} {ds : List Dimension} {k : Nat}
    {p p' : List Nat × List Nat}
    (hstep : ∀ d ∈ ds.zipIdx k, ∀ p p', step p d = .ok p' →
      ∃ n, (0 < n ∧ Small n) ∧ p' = (p.1 ++ [n], p.2))
    (h : (ds.zipIdx k).foldlM step p = .ok p') :
    ∃ rest, (∀ n ∈ rest, 0 < n ∧ Small n) ∧ p' = (p.1 ++ rest, p.2) := by
  refine Outcome.of_foldlM (P := fun q => ∃ rest, (∀ n ∈ rest, 0 < n ∧ Small n) ∧
    q = (p.1 ++ rest, p.2)) ?_ ⟨[], by simp, by simp⟩ h
  rintro d hd _ q' ⟨rest, hrest, rfl⟩ hq'
  obtain ⟨n, hn, rfl⟩ := hstep d hd _ q' hq'
  refine ⟨rest ++ [n], List.forall_mem_append.2 ⟨hrest, List.forall_mem_singleton.2 hn⟩, ?_⟩
  rw [List.append_assoc]

/-- The leading extent is given or dynamic, and behind it all extents are given. -/
theorem exists_of_declaredExtents {value : String} {batch : Nat} {d : Dimension}
    {ds : List Dimension} {sizes axes : List Nat} (hds : ∀ d' ∈ d :: ds, d'.Storable)
    (h : declaredExtents value batch (d :: ds) = .ok (sizes, axes)) :
    ∃ first rest, sizes = first :: rest ∧ (∀ n ∈ rest, 0 < n ∧ Small n) ∧
      (axes = [] ∧ 0 < first ∧ Small first ∨ axes = [0] ∧ first = batch) := by
  rw [List.forall_mem_cons] at hds
  rw [declaredExtents, List.zipIdx_cons, List.foldlM_cons] at h
  obtain ⟨start, hstart, h⟩ := Outcome.bind_eq_ok.1 h
  obtain ⟨rest, hrest, hend⟩ : ∃ rest, (∀ n ∈ rest, 0 < n ∧ Small n) ∧
      (sizes, axes) = (start.1 ++ rest, start.2) := by
    refine extents_of_foldlM ?_ h
    rintro ⟨dim, axis⟩ hdim p p' hp
    have haxis : axis ≠ 0 := by
      have := List.le_snd_of_mem_zipIdx hdim
      omega
    have hstorable := hds.2 dim (List.fst_mem_of_mem_zipIdx hdim)
    dsimp only at hp
    split at hp
    · rename_i n
      split at hp
      · rename_i hpos
        obtain rfl := Except.ok.inj hp
        exact ⟨n.toNat, small_of_pos hstorable hpos, rfl⟩
      · cases hp
    · rw [if_neg haxis] at hp
      cases hp
  obtain ⟨rfl, rfl⟩ := Prod.mk.inj hend
  dsimp only at hstart
  split at hstart
  · rename_i n
    split at hstart
    · rename_i hpos
      obtain rfl := Except.ok.inj hstart
      exact ⟨n.toNat, rest, rfl, hrest, .inl ⟨rfl, small_of_pos hds.1 hpos⟩⟩
    · cases hstart
  · rw [if_pos rfl] at hstart
    obtain rfl := Except.ok.inj hstart
    exact ⟨batch, rest, rfl, hrest, .inr ⟨rfl, rfl⟩⟩

/-- **What a declaration is read as.** The leading extent is given, or it is the batch size and the
axis is dynamic; all other extents are given. -/
theorem exists_of_declaredShape {v : Value} {batch : Nat} {shape : Shape} {axes : List Nat}
    (hv : v.Bounded) (h : declaredShape v batch = .ok (shape, axes)) :
    (shape.numBytes? .f32).isSome ∧ ∃ first rest, shape = ⟨first :: rest⟩ ∧
      (∀ n ∈ rest, 0 < n ∧ Small n) ∧
      (axes = [] ∧ 0 < first ∧ Small first ∨ axes = [0] ∧ first = batch) := by
  unfold declaredShape at h
  split at h
  · rename_i elementType declared htype
    dsimp only at h
    split at h
    · cases h
    · rename_i hdims
      obtain ⟨⟨sizes, dynamic⟩, hextents, h⟩ := Outcome.bind_eq_ok.1 h
      dsimp only at h
      split at h
      · cases h
      · rename_i hbytes
        obtain ⟨rfl, rfl⟩ := Prod.mk.inj (Outcome.pure_eq_ok_iff.1 h)
        refine ⟨by simpa [Option.isSome_iff_ne_none] using hbytes, ?_⟩
        cases declared with
        | none => simp at hdims
        | some dims =>
          cases dims with
          | nil => simp at hdims
          | cons d ds =>
            rw [Value.Bounded, htype] at hv
            obtain ⟨first, rest, hsizes, hrest⟩ :=
              exists_of_declaredExtents (hv (d :: ds) rfl) hextents
            exact ⟨first, rest, congrArg Shape.mk hsizes, hrest⟩
  · cases h

/-- **Declared values can be declared again.** -/
theorem redeclared_of_declaredShape {v : Value} {batch : Nat} {info : ValueInfo} (hv : v.Bounded)
    (h : declaredShape v batch = .ok (info.shape, info.dynamicAxes)) : Redeclared info batch := by
  obtain ⟨name, shape, axes⟩ := info
  obtain ⟨hbytes, first, rest, rfl, hrest, ⟨rfl, hfirst⟩ | ⟨rfl, rfl⟩⟩ :=
    exists_of_declaredShape hv h
  · exact redeclared_of_fixed (by simp) (List.forall_mem_cons.2 ⟨hfirst, hrest⟩) hbytes
  · exact redeclared_of_dynamic hrest hbytes

/-! ### Operators -/

/-- What holds of everything that is known while operators are lifted. No name but that of the input
may be empty, and a parameter is a constant that some node reads. -/
structure Lifting.Sound (s : Lifting) (constants : Constants) (input : String) : Prop where
  values : ∀ v ∈ s.values, v.1 ≠ "" ∨ v.1 = input
  nodes : ∀ n ∈ s.nodes, n.name ≠ "" ∧ n.output ≠ "" ∧ n.op.Small
  params : ∀ p t, s.params.find? p = some t →
    p ≠ "" ∧ constants.lookup p = some t ∧ ∃ n ∈ s.nodes, p ∈ n.params

section Operators

variable {constants : Constants} {input : String} {s s' : Lifting} {o : Operator} {k : Nat}

theorem Lifting.Sound.step (hs : s.Sound constants input) (ho : o.Bounded)
    (h : liftNode constants s (o, k) = .ok s') : s'.Sound constants input := by
  obtain ⟨source, value, shape, output, -, -, -, hgiven, hstep⟩ := liftNode_eq_ok h
  rcases hstep with ⟨-, rfl⟩ | ⟨-, op, outputShape, params, hop, rfl, hadds⟩
  · exact ⟨List.forall_mem_cons.2 ⟨.inl hgiven, hs.values⟩, hs.nodes, hs.params⟩
  · have hsmall := small_of_liftOperator (o := { o with name := nodeName o k }) ho hop
    refine ⟨List.forall_mem_cons.2 ⟨.inl hgiven, hs.values⟩, List.forall_mem_append.2 ⟨hs.nodes,
      List.forall_mem_singleton.2 ⟨nodeName_ne_empty o k, hgiven, hsmall⟩⟩, fun p t ht => ?_⟩
    rcases hadds p t ht with ht | ⟨hread, hlookup⟩
    · obtain ⟨hne, hlookup, n, hn, hread⟩ := hs.params p t ht
      exact ⟨hne, hlookup, n, List.mem_append_left _ hn, hread⟩
    · have hconstant := Operator.mem_constantOperands.1 (mem_of_mem_parametersOf hread)
      exact ⟨hconstant.2.1, hlookup, _, List.mem_append_right _ (List.mem_singleton_self _), hread⟩

/-- The first operator reads the input, so if there are nodes, the input has a name and is no
constant. -/
theorem input_read {shape : Shape} {params : Table (Tensor Binary32)} {os : List Operator}
    (h : os.zipIdx.foldlM (liftNode constants) ⟨[(input, input, shape)], [], params⟩ = .ok s)
    (hnodes : s.nodes ≠ []) : input ≠ "" ∧ constants.lookup input = none := by
  cases os with
  | nil =>
    obtain rfl := Outcome.pure_eq_ok_iff.1 h
    exact absurd rfl hnodes
  | cons o os =>
    rw [List.zipIdx_cons, List.foldlM_cons] at h
    obtain ⟨s₁, hfirst, -⟩ := Outcome.bind_eq_ok.1 h
    obtain ⟨source, value, shape', -, hsource, hvalue, -⟩ := liftNode_eq_ok hfirst
    obtain rfl : source = input :=
      congrArg Prod.fst (List.mem_singleton.1 (Table.mem_of_lookup hvalue))
    have hmem : source ∈ o.valueOperands constants := hsource ▸ List.mem_singleton_self source
    exact (Operator.mem_valueOperands.1 hmem).2

end Operators

/-! ### The whole graph -/

/-- What lifting gives at the given batch size, whatever the exchange model `m` is. -/
structure Lifted (m : Model) (g : NetPack.Graph Binary32) (batch : Nat) : Prop where
  name : g.name ≠ ""
  values : g.nodes ≠ [] → ∀ v ∈ g.valueNames, v ≠ ""
  nodes : ∀ n ∈ g.nodes, n.name ≠ "" ∧ n.op.Small
  constants : ∀ p t, g.params.find? p = some t →
    p ≠ "" ∧ ∃ graph ∈ m.graph, ∃ c ∈ graph.initializers, c.name = p
  writable : ∀ p t, g.params.find? p = some t → Writable t
  used : ∀ p t, g.params.find? p = some t → ∃ n ∈ g.nodes, p ∈ n.params
  input : Redeclared g.input batch
  output : Redeclared g.output batch

/-- **All files are lifted to the same kind of graph.** -/
theorem lifted_of_toGraph {m : Model} {batch : Nat} {g : NetPack.Graph Binary32} (hm : m.Bounded)
    (h : toGraph m batch = .ok g) : Lifted m g batch := by
  obtain ⟨graph, constants, s, value, hgraph, hconstants, hfold, hvalue, hnodes, hparams,
    ⟨input, hinput, hinputShape⟩, ⟨output, houtput, houtputShape⟩, hname⟩ := toGraph_eq_ok h
  have hbounded := hm graph hgraph
  have hfound := exists_of_constantsOf hconstants
  have hs : s.Sound constants g.input.name := by
    refine Outcome.of_foldlM (P := fun s : Lifting => s.Sound constants g.input.name) ?_
      ⟨List.forall_mem_singleton.2 (.inr rfl), by simp, by simp⟩ hfold
    rintro ⟨o, k⟩ ho before after hbefore hstep
    exact hbefore.step (hbounded.operators o (List.fst_mem_of_mem_zipIdx ho)) hstep
  refine ⟨hname, fun hne => ?_, ?_, fun p t ht => ?_, fun p t ht => ?_, fun p t ht => ?_,
    redeclared_of_declaredShape (hbounded.inputs input hinput) hinputShape,
    redeclared_of_declaredShape (hbounded.outputs output houtput) houtputShape⟩
  · -- The result keeps its own name or is called as the output, which is among the known values.
    have hinputName : g.input.name ≠ "" :=
      (input_read hfold fun hnil => hne (by rw [hnodes, hnil, List.map_nil])).1
    have houtputName : g.output.name ≠ "" := by
      rcases hs.values _ (Table.mem_of_lookup hvalue) with hgiven | hinput
      · exact hgiven
      · exact fun hempty => hinputName (hinput.symm.trans hempty)
    rw [NetPack.Graph.valueNames, List.forall_mem_cons, List.forall_mem_map, hnodes,
      List.forall_mem_map]
    refine ⟨hinputName, fun n hn => ?_⟩
    show (if n.output = value then g.output.name else n.output) ≠ ""
    split
    · exact houtputName
    · exact (hs.nodes n hn).2.1
  · rw [hnodes, List.forall_mem_map]
    exact fun n hn => ⟨(hs.nodes n hn).1, (hs.nodes n hn).2.2⟩
  · obtain ⟨hne, hlookup, -⟩ := hs.params p t (hparams ▸ ht)
    obtain ⟨c, hc, hcname, -⟩ := hfound _ (Table.mem_of_lookup hlookup)
    exact ⟨hne, graph, hgraph, c, hc, hcname⟩
  · obtain ⟨-, hlookup, -⟩ := hs.params p t (hparams ▸ ht)
    obtain ⟨c, hc, -, htensor⟩ := hfound _ (Table.mem_of_lookup hlookup)
    exact writable_of_toTensor (hbounded.initializers c hc) htensor
  · obtain ⟨-, -, n, hn, hread⟩ := hs.params p t (hparams ▸ ht)
    rw [hnodes]
    exact ⟨_, List.mem_map_of_mem hn, hread⟩

/-- The graph of a file that passes all checks was lifted and is valid. -/
theorem exists_of_validate {bytes : Bytes} {batch : Nat} {g : NetPack.Graph Binary32}
    {report : Report} (h : validate bytes batch = .ok (g, report)) :
    ∃ m, Model.decode? bytes = some m ∧ inspect m = .ok report ∧ toGraph m batch = .ok g ∧
      g.Valid := by
  obtain ⟨m, hdecode, h⟩ := Outcome.bind_eq_ok.1 h
  unfold decode at hdecode
  split at hdecode
  · rename_i m hread
    obtain rfl := Except.ok.inj hdecode
    split at h
    · cases h
    · rename_i found hinspect
      obtain ⟨valid, hvalid, h⟩ := Outcome.bind_eq_ok.1 h
      obtain ⟨rfl, rfl⟩ := Prod.mk.inj (Outcome.pure_eq_ok_iff.1 h)
      obtain ⟨lifted, hlift, hcheck⟩ := Outcome.bind_eq_ok.1 (Outcome.mapError_eq_ok.1 hvalid)
      obtain ⟨hgood, rfl⟩ :=
        NetPack.Graph.validate_eq_ok.1 (Outcome.mapError_eq_ok.1 hcheck)
      exact ⟨m, hread, hinspect, hlift, hgood⟩
  · cases hdecode

end Exchange

end NetPack
