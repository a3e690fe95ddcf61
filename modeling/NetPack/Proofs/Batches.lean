import NetPack.Proofs.Operations
import NetPack.Proofs.Tables
import NetPack.Proofs.Validity

/-!
# Graphs at another batch size

The leading axis of every value is the batch, and no operation looks at its extent: what is inferred
for one extent is inferred for every other one for which the result still has a size in bytes
(`Op.inferShape_withLeading`). So a valid graph stays valid when the leading extent is replaced
everywhere (`Graph.Valid.atBatch`), and at the extent that it was recorded with it is the graph
itself (`Graph.Valid.atBatch_self`).
-/

namespace NetPack

/-! ### Shapes -/

namespace Shape

/-- The shape with another leading extent. -/
def withLeading (s : Shape) (n : Nat) : Shape := ⟨s.dims.set 0 n⟩

/-- The leading extent is `n`. -/
def LeadsWith (s : Shape) (n : Nat) : Prop := s.dims.head? = some n

@[simp] theorem withLeading_mk (d n : Nat) (rest : List Nat) :
    withLeading ⟨d :: rest⟩ n = ⟨n :: rest⟩ := rfl

@[simp] theorem leadsWith_mk {d n : Nat} {rest : List Nat} :
    LeadsWith ⟨d :: rest⟩ n ↔ d = n := by
  simp [LeadsWith]

theorem LeadsWith.withLeading_self {s : Shape} {n : Nat} (h : s.LeadsWith n) :
    s.withLeading n = s := by
  obtain ⟨_ | ⟨d, rest⟩⟩ := s
  · rfl
  · rw [withLeading_mk, leadsWith_mk.1 h]

theorem LeadsWith.withLeading {s : Shape} {n b : Nat} (h : s.LeadsWith n) :
    (s.withLeading b).LeadsWith b := by
  obtain ⟨_ | ⟨d, rest⟩⟩ := s
  · cases h
  · rfl

end Shape

/-! ### Operations -/

namespace Op

variable [Build] {α : Type} {op : Op α} {input out : Shape} {shapes : List Shape} {n : Nat}

/-- **No operation looks at the leading extent.** -/
theorem inferShape_withLeading (hin : input.LeadsWith n)
    (h : op.inferShape input shapes = .ok out) :
    out.LeadsWith n ∧ ∀ b, ((out.withLeading b).numBytes? .f32).isSome →
      op.inferShape (input.withLeading b) shapes = .ok (out.withLeading b) := by
  -- The leading extent is an extent of its own in every rule, and the rule holds for another one.
  cases op with
  | conv p =>
    obtain ⟨d, hd, rfl, rfl, hshapes⟩ := inferShape_conv.1 h
    refine ⟨hin, fun b hb => inferShape_conv.2 ⟨{ d with n := b }, ?_, rfl, rfl, hshapes⟩⟩
    exact ⟨hd.groups_ne, hd.stride, hd.channels, hd.filters, hd.depth_eq, hd.rows, hd.cols, hb⟩
  | linear =>
    obtain ⟨_, k, o, bias, rfl, rfl, hshapes⟩ := inferShape_linear.1 h
    exact ⟨hin, fun b _ => inferShape_linear.2 ⟨b, k, o, bias, rfl, rfl, hshapes⟩⟩
  | batchNorm epsilon =>
    obtain ⟨_, channels, trailing, rfl, rfl, hshapes⟩ := inferShape_batchNorm.1 h
    exact ⟨hin, fun b _ => inferShape_batchNorm.2 ⟨b, channels, trailing, rfl, rfl, hshapes⟩⟩
  | activation kind =>
    obtain ⟨hshapes, rfl⟩ := inferShape_activation.1 h
    exact ⟨hin, fun b _ => inferShape_activation.2 ⟨hshapes, rfl⟩⟩
  | maxPool p =>
    obtain ⟨hshapes, d, hd, rfl, rfl⟩ := inferShape_maxPool.1 h
    refine ⟨hin, fun b hb => inferShape_maxPool.2 ⟨hshapes, { d with n := b }, ?_, rfl, rfl⟩⟩
    exact ⟨hd.kernel, hd.stride, hd.rows, hd.cols, hb⟩
  | globalAvgPool =>
    obtain ⟨hshapes, _, c, height, width, rfl, rfl⟩ := inferShape_globalAvgPool.1 h
    exact ⟨hin, fun b _ =>
      inferShape_globalAvgPool.2 ⟨hshapes, b, c, height, width, rfl, rfl⟩⟩
  | flatten =>
    obtain ⟨hshapes, _, rest, m, rfl, hm, rfl⟩ := inferShape_flatten.1 h
    exact ⟨hin, fun b _ => inferShape_flatten.2 ⟨hshapes, b, rest, m, rfl, hm, rfl⟩⟩
  | softmax =>
    obtain ⟨hshapes, hrank, rfl⟩ := inferShape_softmax.1 h
    refine ⟨hin, fun b _ => inferShape_softmax.2 ⟨hshapes, ?_, rfl⟩⟩
    simpa [Shape.rank, Shape.withLeading] using hrank

end Op

/-! ### Graphs -/

/-- The value with another leading extent. -/
def ValueInfo.atBatch (v : ValueInfo) (b : Nat) : ValueInfo :=
  { v with shape := v.shape.withLeading b }

/-- The node with another leading extent of its result. -/
def Node.atBatch {α : Type} (n : Node α) (b : Nat) : Node α :=
  { n with outputShape := n.outputShape.withLeading b }

namespace Graph

variable {α : Type} {g : Graph α} {params : Table (Tensor α)} {s : Scope} {ns : List (Node α)}
  {d b : Nat}

/-- The graph with `b` as the leading extent of the input, the output and every node. -/
def atBatch (g : Graph α) (b : Nat) : Graph α :=
  { g with
    input := g.input.atBatch b
    output := g.output.atBatch b
    nodes := g.nodes.map (·.atBatch b) }

/-- Every shape of the graph has a size in bytes. -/
structure Representable (g : Graph α) : Prop where
  input : (g.input.shape.numBytes? .f32).isSome
  output : (g.output.shape.numBytes? .f32).isSome
  nodes : ∀ n ∈ g.nodes, (n.outputShape.numBytes? .f32).isSome
  params : ∀ e ∈ g.params.entries, (e.2.shape.numBytes? .f32).isSome

/-- The scope with another leading extent of every value. -/
def Scope.atBatch (s : Scope) (b : Nat) : Scope :=
  ⟨s.values.map fun v => (v.1, v.2.withLeading b), s.names⟩

/-- Every value has the leading extent `d`. -/
def Scope.LeadsWith (s : Scope) (d : Nat) : Prop := ∀ v ∈ s.values, v.2.LeadsWith d

theorem Scope.lookup_atBatch (s : Scope) (b : Nat) (name : String) :
    (s.atBatch b).values.lookup name = (s.values.lookup name).map (·.withLeading b) :=
  Table.lookup_map_snd (fun _ (shape : Shape) => shape.withLeading b) s.values name

theorem Scope.LeadsWith.lookup {name : String} {shape : Shape} (hs : s.LeadsWith d)
    (h : s.values.lookup name = some shape) : shape.LeadsWith d :=
  hs (name, shape) (Table.mem_of_lookup h)

theorem Scope.LeadsWith.extend {n : Node α} (hs : s.LeadsWith d)
    (hn : n.outputShape.LeadsWith d) : (s.extend n).LeadsWith d :=
  List.forall_mem_cons.2 ⟨hn, hs⟩

theorem foldl_extend_atBatch (s : Scope) (ns : List (Node α)) (b : Nat) :
    (ns.map (·.atBatch b)).foldl Scope.extend (s.atBatch b) =
      (ns.foldl Scope.extend s).atBatch b := by
  induction ns generalizing s with
  | nil => rfl
  | cons n ns ih => exact ih (s.extend n)

theorem leadsWith_initial (h : g.input.shape.LeadsWith d) : (Scope.initial g).LeadsWith d :=
  List.forall_mem_singleton.2 h

variable [Build]

theorem Fits.atBatch {n : Node α} (h : Fits params s n) (hs : s.LeadsWith d)
    (hb : ((n.atBatch b).outputShape.numBytes? .f32).isSome) :
    Fits params (s.atBatch b) (n.atBatch b) ∧ n.outputShape.LeadsWith d := by
  obtain ⟨input, hinput, hinfer⟩ := h.inferred
  obtain ⟨hlead, hother⟩ := Op.inferShape_withLeading (hs.lookup hinput) hinfer
  refine ⟨⟨h.fresh, h.bound, ⟨input.withLeading b, ?_, hother b hb⟩, ?_⟩, hlead⟩
  · exact (s.lookup_atBatch b n.input).trans (congrArg (Option.map (·.withLeading b)) hinput)
  · exact (s.lookup_atBatch b n.output).trans (congrArg (Option.map (·.withLeading b)) h.single)

theorem AllFit.atBatch (h : AllFit params s ns) (hs : s.LeadsWith d)
    (hb : ∀ n ∈ ns, ((n.atBatch b).outputShape.numBytes? .f32).isSome) :
    AllFit params (s.atBatch b) (ns.map (·.atBatch b)) := by
  -- Along the nodes every value of the scope keeps the leading extent.
  induction ns generalizing s with
  | nil => trivial
  | cons n ns ih =>
    rw [List.forall_mem_cons] at hb
    obtain ⟨hfit, hlead⟩ := h.1.atBatch hs hb.1
    exact ⟨hfit, ih h.2 (hs.extend hlead) hb.2⟩

/-- **A valid graph is valid at every batch size** for which all of its shapes have a size. -/
theorem Valid.atBatch (hg : g.Valid) (hlead : g.input.shape.LeadsWith d)
    (hpos : (g.atBatch b).input.shape.Positive) (hrep : (g.atBatch b).Representable) :
    (g.atBatch b).Valid := by
  obtain ⟨hne, -, haxes, hfit, hout⟩ := valid_iff.1 hg
  refine valid_iff.2 ⟨?_, ?_, ?_, ?_, ?_⟩
  · simpa [Graph.atBatch] using hne
  · have hsize := (Shape.numBytes?_isSome_iff hpos).1 hrep.input
    exact ⟨_, Shape.product_of_pos hpos (by omega), hpos.product_pos.ne'⟩
  · simpa [Graph.atBatch, ValueInfo.atBatch, Shape.withLeading, Shape.rank] using haxes
  · refine hfit.atBatch (leadsWith_initial hlead) fun n hn => ?_
    exact hrep.nodes _ (List.mem_map_of_mem hn)
  · have hfinal : Scope.final (g.atBatch b) = (Scope.final g).atBatch b :=
      foldl_extend_atBatch (Scope.initial g) g.nodes b
    rw [hfinal]
    exact ((Scope.final g).lookup_atBatch b _).trans
      (congrArg (Option.map (·.withLeading b)) hout)

/-! ### The batch size of the recording -/

theorem AllFit.leadsWith (h : AllFit params s ns) (hs : s.LeadsWith d) :
    (∀ n ∈ ns, n.outputShape.LeadsWith d) ∧ (ns.foldl Scope.extend s).LeadsWith d := by
  induction ns generalizing s with
  | nil => exact ⟨by simp, hs⟩
  | cons n ns ih =>
    obtain ⟨input, hinput, hinfer⟩ := h.1.inferred
    have hlead := (Op.inferShape_withLeading (hs.lookup hinput) hinfer).1
    obtain ⟨hns, hfinal⟩ := ih h.2 (hs.extend hlead)
    exact ⟨List.forall_mem_cons.2 ⟨hlead, hns⟩, hfinal⟩

theorem Valid.output_leadsWith (hg : g.Valid) (hlead : g.input.shape.LeadsWith d) :
    g.output.shape.LeadsWith d := by
  obtain ⟨-, -, -, hfit, hout⟩ := valid_iff.1 hg
  exact (hfit.leadsWith (leadsWith_initial hlead)).2.lookup hout

/-- At its own batch size a valid graph is itself. -/
theorem Valid.atBatch_self (hg : g.Valid) (hlead : g.input.shape.LeadsWith d) :
    g.atBatch d = g := by
  obtain ⟨-, -, -, hfit, -⟩ := valid_iff.1 hg
  have hnodes := (hfit.leadsWith (leadsWith_initial hlead)).1
  have houtput := hg.output_leadsWith hlead
  obtain ⟨⟨name, input, output, nodes⟩, params⟩ := g
  simp only [Graph.atBatch, ValueInfo.atBatch, Node.atBatch] at *
  rw [hlead.withLeading_self, houtput.withLeading_self]
  have hmap : (nodes.map fun n => { n with outputShape := n.outputShape.withLeading d }) =
      nodes := by
    refine (List.map_congr_left fun n hn => ?_).trans (List.map_id nodes)
    rw [(hnodes n hn).withLeading_self]
    rfl
  rw [hmap]

/-! ### Extents of values -/

theorem AllFit.positive (h : AllFit params s ns)
    (hparams : ∀ name t, params.find? name = some t → t.shape.Positive)
    (hb : ∀ n ∈ ns, (n.outputShape.numBytes? .f32).isSome)
    (hs : ∀ v ∈ s.values, v.2.Positive ∧ (v.2.numBytes? .f32).isSome) :
    ∀ v ∈ (ns.foldl Scope.extend s).values, v.2.Positive := by
  induction ns generalizing s with
  | nil => exact fun v hv => (hs v hv).1
  | cons n ns ih =>
    rw [List.forall_mem_cons] at hb
    obtain ⟨input, hinput, hinfer⟩ := h.1.inferred
    obtain ⟨hpos, hbytes⟩ := hs (n.input, input) (Table.mem_of_lookup hinput)
    have hshapes : ∀ shape ∈ (paramTensors params n).map (·.shape), shape.Positive :=
      List.forall_mem_map.2 (forall_mem_paramTensors hparams)
    have hsize := (Shape.numBytes?_isSome_iff hpos).1 hbytes
    have hout := Op.inferShape_positive hpos (by omega) hshapes hinfer
    exact ih h.2 hb.2 (List.forall_mem_cons.2 ⟨⟨hout, hb.1⟩, hs⟩)

/-- The declared output of a valid graph has no zero extent. -/
theorem Valid.output_positive (hg : g.Valid) (hrep : g.Representable)
    (hinput : g.input.shape.Positive)
    (hparams : ∀ name t, g.params.find? name = some t → t.shape.Positive) :
    g.output.shape.Positive := by
  obtain ⟨-, -, -, hfit, hout⟩ := valid_iff.1 hg
  have hfinal := hfit.positive hparams hrep.nodes
    (List.forall_mem_singleton.2 ⟨hinput, hrep.input⟩)
  exact hfinal _ (Table.mem_of_lookup hout)

end Graph

end NetPack
