import NetPack.Proofs.Exchange.RoundTrip
import NetPack.Proofs.Tracing

/-!
# Exported graphs and exchange files

A graph that was exported from a model survives an exchange file: it is read back with every batch
size for which its shapes have a size in bytes, and with the batch size that it was recorded with it
is the graph itself (`Export.validate_exported`). The names of the manifest must not clash with
those that an export makes up.
-/

namespace NetPack

namespace Export

/-- The names of a model do not clash with those that exporting and writing make up. -/
structure Distinct (model : SequentialModel Binary32) (params : Table (Tensor Binary32)) :
    Prop where
  named : model.name ≠ ""
  layers : ∀ l ∈ model.layers, l.name ≠ ""
  parameters : ∀ e ∈ params.entries, e.1 ≠ "" ∧ e.1 ≠ inputName ∧ e.1 ≠ outputName ∧
    ∀ l ∈ model.layers, e.1 ≠ l.name ++ ".out" ∧ e.1 ≠ l.name ++ ".clip_min" ∧
      e.1 ≠ l.name ++ ".clip_max"

variable {weights : Table (Tensor Binary32)} {model : SequentialModel Binary32} {d : Descriptor}
  {g : Graph Binary32}

/-- Nodes are named after layers, and so are their results but the last one. -/
theorem Exported.node_names (hg : Exported weights model d g) :
    ∀ n ∈ g.nodes, ∃ l ∈ model.layers, n.name = l.name ∧
      (n.output = l.name ++ ".out" ∨ n.output = outputName) := by
  obtain ⟨ns, w, -, hrec, hnodes⟩ := hg.nodes
  rw [hnodes, List.forall_mem_map]
  intro n hn
  obtain ⟨l, hl, hname, hout⟩ := hrec.named n hn
  refine ⟨l, hl, hname, ?_⟩
  by_cases hlast : n.output = w
  · exact .inr (by simp [Tracer.renameValue, hlast])
  · exact .inl (by simp [Tracer.renameValue, hlast, ← hout])

/-- A name that ends in the letter `t` is none of a bound. -/
theorem not_bound {v : String} (hv : v.toList.getLast? = some 't') {n : Node Binary32} :
    ∀ e ∈ Exchange.boundTensors n, e.1 ≠ v := by
  have hother : ∀ {suffix : String} {c : Char}, suffix.toList.getLast? = some c → c ≠ 't' →
      n.name ++ suffix ≠ v := fun hsuffix hc heq => by
    rw [← heq, Exchange.getLast?_append n.name hsuffix] at hv
    exact hc (Option.some.inj hv)
  intro e he
  rcases Exchange.mem_boundTensors he with rfl | rfl
  · exact hother (c := 'n') rfl (by decide)
  · exact hother (c := 'x') rfl (by decide)

theorem fresh_of_last {v : String} (hv : v.toList.getLast? = some 't')
    (hparams : ∀ e ∈ g.params.entries, e.1 ≠ v) : Exchange.Fresh g v := by
  refine ⟨fun hnil => by simp [hnil] at hv, fun e he => ?_⟩
  rcases Exchange.mem_constantTensors.1 he with hfind | ⟨n, -, hbound⟩
  · exact hparams e (Table.find?_eq_some_iff.1 hfind)
  · exact not_bound hv e hbound

theorem Exported.named (hg : Exported weights model d g) (hnames : Distinct model g.params) :
    Exchange.Named g := by
  refine ⟨hg.name ▸ hnames.named, fun n hn => ?_, ?_, fun n hn => ?_, fun p t ht => ?_⟩
  · obtain ⟨l, hl, hname, -⟩ := hg.node_names n hn
    exact hname ▸ hnames.layers l hl
  · have hname : g.input.name = inputName := by rw [hg.input]
    rw [hname]
    exact fresh_of_last rfl fun e he => (hnames.parameters e he).2.1
  · obtain ⟨l, hl, -, hout | hout⟩ := hg.node_names n hn <;> rw [hout]
    · exact fresh_of_last (Exchange.getLast?_append l.name rfl) fun e he =>
        ((hnames.parameters e he).2.2.2 l hl).1
    · exact fresh_of_last rfl fun e he => (hnames.parameters e he).2.2.1
  · obtain ⟨hne, -, -, hlayers⟩ := hnames.parameters (p, t) (Table.find?_eq_some_iff.1 ht)
    refine ⟨hne, fun n hn e he => ?_⟩
    obtain ⟨l, hl, hname, -⟩ := hg.node_names n hn
    obtain ⟨-, hmin, hmax⟩ := hlayers l hl
    rcases Exchange.mem_boundTensors he with rfl | rfl
    · exact hname ▸ hmin.symm
    · exact hname ▸ hmax.symm

/-- Parameters are weights, which hold as many elements as their shapes say. -/
theorem Exported.proper (hg : Exported weights model d g)
    (hweights : ∀ e ∈ weights.entries, e.2.Sized)
    (hpositive : ∀ e ∈ g.params.entries, e.2.shape.Positive)
    (hbytes : ∀ e ∈ g.params.entries, (e.2.shape.numBytes? .f32).isSome) :
    ∀ p t, g.params.find? p = some t → t.Proper ∧ (t.shape.numBytes? .f32).isSome :=
  fun p t ht => by
    have hmem : (p, t) ∈ g.params.entries := Table.find?_eq_some_iff.1 ht
    have hsized : t.Sized := hweights (p, t) (Table.find?_eq_some_iff.1 (hg.params p t ht))
    have hbyte := hbytes (p, t) hmem
    exact ⟨⟨Tensor.wellFormed_of_sized hbyte hsized, hpositive (p, t) hmem⟩, hbyte⟩

/-- **An exported graph survives an exchange file.** It is read back at every batch size for which
all of its shapes have a size in bytes; at the batch size of the recording that is the graph
itself. The file stands in memory, so its length is a word. -/
theorem validate_exported [NumberSource] {m : Manifest}
    (hbuild : SequentialModel.build m weights = .ok model)
    (hexport : exportGraph model.toModel d = .ok g)
    (hweights : ∀ e ∈ weights.entries, e.2.Sized)
    (hpositive : ∀ e ∈ g.params.entries, e.2.shape.Positive)
    (hnames : Distinct model g.params) (hsmall : ∀ n ∈ g.nodes, n.op.Small)
    (hzero : Exchange.NoNegativeZero g)
    (hlen : (Exchange.encodeGraph g).length < Word.modulus) {b : Nat} (hb : 1 ≤ b)
    (hrep : (g.atBatch b).Representable) :
    Exchange.validate (Exchange.encodeGraph g) b = .ok (g.atBatch b, Exchange.reportFor g) ∧
      g.atBatch d.batch = g := by
  have hg := exported_of_build hbuild hexport
  have hproper := hg.proper hweights hpositive hrep.params
  have hlead : g.input.shape.LeadsWith d.batch := by
    rw [hg.input]
    rfl
  have hinput : (g.atBatch b).input.shape.Positive := by
    have hextents := hg.extents
    show (g.input.shape.withLeading b).Positive
    rw [hg.input]
    simp only [Descriptor.shape, Descriptor.dims, Shape.withLeading_mk, Shape.positive_mk,
      List.forall_mem_cons] at hextents ⊢
    exact ⟨hb, hextents.2⟩
  have hvalid := hg.valid.atBatch hlead hinput hrep
  have hinputAxes : g.input.dynamicAxes = [0] := by rw [hg.input]
  have houtputAxes : g.output.dynamicAxes = [0] := by
    obtain ⟨shape, hout⟩ := hg.output
    rw [hout]
  have hportable : Exchange.Portable (g.atBatch b) b := by
    refine ⟨hvalid, ?_, fun p t ht => ?_, ?_, ?_⟩
    · exact Exchange.Liftable.atBatch ⟨hg.named hnames, hsmall, hproper⟩ b
    · obtain ⟨n, hn, hp⟩ := hg.used p t ht
      exact ⟨n.atBatch b, List.mem_map_of_mem hn, hp⟩
    · exact ⟨hinputAxes, hlead.withLeading, hinput, hrep.input⟩
    · exact ⟨houtputAxes, hvalid.output_leadsWith hlead.withLeading,
        hvalid.output_positive hrep hinput fun p t ht => (hproper p t ht).1.positive, hrep.output⟩
  -- The file does not mention the batch size, so it might as well have been written from the graph
  -- at the batch size `b`; and that one is read back.
  have hfile : Exchange.encodeGraph (g.atBatch b) = Exchange.encodeGraph g := by
    rw [Exchange.encodeGraph, Exchange.ofGraph_atBatch hinputAxes houtputAxes, Exchange.encodeGraph]
  have hzero' : Exchange.NoNegativeZero (g.atBatch b) := List.forall_mem_map.2 hzero
  have hread := Exchange.validate_encodeGraph hportable hzero' (hfile ▸ hlen)
  rw [hfile, Exchange.reportFor_atBatch] at hread
  exact ⟨hread, hg.valid.atBatch_self hlead⟩

attribute [local instance] zeroSource

theorem validate_exported_small :
    Exchange.validate (Exchange.encodeGraph smallGraph) 3 =
        .ok (smallGraph.atBatch 3, Exchange.reportFor smallGraph) ∧
      smallGraph.atBatch 1 = smallGraph := by
  have hbuild : SequentialModel.build smallManifest smallWeights = .ok smallModel := rfl
  have hexport : exportGraph smallModel.toModel ⟨1, 1, 2, 2, .f32⟩ = .ok smallGraph := rfl
  have hweights : ∀ e ∈ smallWeights.entries, e.2.Sized := by decide
  have hpositive : ∀ e ∈ smallGraph.params.entries, e.2.shape.Positive := by decide
  have hnames : Distinct smallModel smallGraph.params := ⟨by decide, by decide, by decide⟩
  have hsmall : ∀ n ∈ smallGraph.nodes, n.op.Small := by
    simp [smallGraph, Op.Small, Axes.Small, Small]
  have hzero : Exchange.NoNegativeZero smallGraph := by
    simp [Exchange.NoNegativeZero, smallGraph]
  have hlen : (Exchange.encodeGraph smallGraph).length < Word.modulus := by decide +kernel
  have hrep : (smallGraph.atBatch 3).Representable := ⟨by decide, by decide, by decide, by decide⟩
  have hbatch : 1 ≤ 3 := by decide
  exact validate_exported hbuild hexport hweights hpositive hnames hsmall hzero hlen hbatch hrep

end Export

end NetPack
