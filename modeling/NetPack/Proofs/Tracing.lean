import NetPack.Proofs.Evaluation
import NetPack.Proofs.Exporting

/-!
# An exported graph is the model

A graph is recorded on one synthetic input. It captures the layers of the model nevertheless: on any
input it computes what the layers compute one after the other (`Export.evaluate_exported`). Each
layer takes the weights that the manifest lists for it, in that order, and layers that do nothing
once training is over are skipped (`Manifest.run`).

The nodes form a chain, so a run of the graph only ever reads the tensor that was computed last
(`Tracer.Records.runs_iff`); renaming a value does not break the chain.
-/

namespace NetPack

/-! ### Running layers -/

namespace Layer

variable {α : Type} [Scalar α]

/-- Applies a layer to a tensor. -/
def apply (x : Tensor α) (l : Layer α) : Outcome ModelError (Tensor α) :=
  match l.kind with
  | .op op => Outcome.mapError (Tracer.refusal l.name) (op.execute x (l.weights.map (·.2)))
  | .dropout => .ok x
  | .custom layerType => Outcome.report (.unsupported l.name layerType)

end Layer

namespace LayerSpec

/-- Applies a layer of a manifest to a tensor, with the weights that it lists. -/
def apply (weights : Table (Tensor Binary32)) (x : Tensor Binary32) (l : LayerSpec) :
    Outcome ModelError (Tensor Binary32) := do
  let kind ← l.kind
  let operands ← SequentialModel.layerWeights weights l.weights
  Layer.apply x ⟨l.name, kind, operands⟩

theorem apply_of_stands {weights : Table (Tensor Binary32)} {spec : LayerSpec}
    {l : Layer Binary32} (h : SequentialModel.Stands weights spec l) (x : Tensor Binary32) :
    spec.apply weights x = l.apply x := by
  have hweights := SequentialModel.layerWeights_eq_ok.2 ⟨h.names, h.found⟩
  rw [apply, h.kind, hweights, ← h.name]
  rfl

end LayerSpec

namespace Manifest

/-- Applies the layers of a manifest one after the other. -/
def run (m : Manifest) (weights : Table (Tensor Binary32)) (x : Tensor Binary32) :
    Outcome ModelError (Tensor Binary32) :=
  m.layers.foldlM (LayerSpec.apply weights) x

theorem run_of_stands {weights : Table (Tensor Binary32)} {specs : List LayerSpec}
    {ls : List (Layer Binary32)} (h : List.Forall₂ (SequentialModel.Stands weights) specs ls)
    (x : Tensor Binary32) : specs.foldlM (LayerSpec.apply weights) x = ls.foldlM Layer.apply x := by
  induction h generalizing x with
  | nil => rfl
  | cons hl _ ih =>
    rw [List.foldlM_cons, List.foldlM_cons, LayerSpec.apply_of_stands hl]
    exact bind_congr ih

end Manifest

/-! ### Running recorded nodes -/

namespace Tracer

variable {α : Type} [Scalar α] {params : Table (Tensor α)}

omit [Scalar α] in
theorem paramTensors_layerNode {layer v : String} {op : Op α} {shape : Shape}
    {ws : List (String × Tensor α)} (h : ∀ p ∈ ws, params.find? p.1 = some p.2) :
    Graph.paramTensors params (layerNode layer op v ws shape) = ws.map (·.2) := by
  simp only [Graph.paramTensors, layerNode, List.filterMap_map]
  rw [← List.filterMap_eq_map]
  exact List.filterMap_congr h

omit [Scalar α] in
theorem paramTensors_renameValue {old new : String} {n : Node α} :
    Graph.paramTensors params (renameValue old new n) = Graph.paramTensors params n := rfl

/-- **Recorded nodes compute what the layers compute**, whatever the input is and however one of
the values is called. -/
theorem Records.runs_iff {v w : String} {ls : List (Layer α)} {ns : List (Node α)}
    (h : Records params v ls ns w) (old new : String) (env : Graph.Env α) (x : Tensor α)
    {y : Tensor α} :
    Graph.Runs params (ns.map (renameValue old new)) ((renamed old new v, x) :: env)
      (renamed old new w) y ↔ ls.foldlM Layer.apply x = .ok y := by
  -- The first entry of the environment is always what the next node reads; what stands behind it
  -- does not matter.
  induction h generalizing env x with
  | nil => simp
  | skip hkind _ ih =>
    rw [List.foldlM_cons, Layer.apply, hkind, Outcome.ok_bind]
    exact ih env x
  | @op v w l op shape ls ns hkind hparams _ ih =>
    rw [List.map_cons, Graph.runs_cons, List.foldlM_cons, Layer.apply, hkind, Outcome.bind_eq_ok,
      paramTensors_renameValue, paramTensors_layerNode hparams]
    simp only [Outcome.mapError_eq_ok]
    have hlookup : ((renamed old new v, x) :: env).lookup
        (renameValue old new (layerNode l.name op v l.weights shape)).input = some x :=
      List.lookup_cons_self
    rw [hlookup]
    constructor
    · rintro ⟨_, t, ⟨⟩, ht, hrun⟩
      exact ⟨t, ht, (ih _ t).1 hrun⟩
    · rintro ⟨t, ht, hrun⟩
      exact ⟨x, t, rfl, ht, (ih _ t).2 hrun⟩

end Tracer

/-! ### Exported graphs -/

namespace Export

/-- A shape that differs from the declared one on the batch axis only is accepted. -/
theorem accepts_batch (d : Descriptor) (batch : Nat) :
    Graph.accepts ⟨inputName, d.shape, [0]⟩ ⟨[batch, d.channels, d.height, d.width]⟩ = true := by
  simp [Graph.accepts, Descriptor.shape, Descriptor.dims]

/-- **An exported graph computes what the layers of the manifest compute.** This holds for every
input with the declared channels, height and width, not only for the one that was recorded, and
with whatever batch size. -/
theorem evaluate_exported [NumberSource] {m : Manifest} {weights : Table (Tensor Binary32)}
    {model : SequentialModel Binary32} {d : Descriptor} {g : Graph Binary32}
    (hbuild : SequentialModel.build m weights = .ok model)
    (hexport : exportGraph model.toModel d = .ok g) {batch : Nat} {x : Tensor Binary32}
    (hx : x.shape = ⟨[batch, d.channels, d.height, d.width]⟩) (y : Tensor Binary32) :
    g.evaluate x = .ok y ↔ m.run weights x = .ok y := by
  have hg := exported_of_build hbuild hexport
  obtain ⟨-, -, -, hstands⟩ := SequentialModel.build_eq_ok hbuild
  obtain ⟨shape, hout⟩ := hg.output
  obtain ⟨ns, w, hw, hrec, hnodes⟩ := hg.nodes
  have haccepts : Graph.accepts g.input x.shape = true := by
    rw [hg.input, hx, accepts_batch]
  have hrun := hrec.runs_iff w outputName [] x (y := y)
  -- The last value is renamed to the output; the input is another value and keeps its name.
  rw [Tracer.renamed, if_neg hw.symm, Tracer.renamed, if_pos rfl] at hrun
  rw [Graph.evaluate_eq_ok, hnodes, hg.input, hout, Manifest.run, Manifest.run_of_stands hstands]
  rw [hg.input] at haccepts
  exact ⟨fun h => hrun.1 h.2, fun h => ⟨haccepts, hrun.2 h⟩⟩

/-! #### A small model -/

attribute [local instance] zeroSource

/-- A manifest with a convolution, a layer that is skipped, and a flattening. -/
def smallManifest : Manifest where
  name := "small"
  architecture := ""
  dtype := "f32"
  layers :=
    [⟨"conv", "Conv2d", ["filter"], none, none, none, none, none⟩,
      ⟨"drop", "Dropout", [], none, none, none, none, none⟩,
      ⟨"flat", "Flatten", [], none, none, none, none, none⟩]

/-- The weights for it. -/
def smallWeights : Table (Tensor Binary32) := .ofList [("filter", .blank ⟨[2, 1, 2, 2]⟩)]

/-- The model that is built from both. -/
def smallModel : SequentialModel Binary32 where
  name := "small"
  layers :=
    [⟨"conv", .op (.conv ⟨⟨1, 1⟩, ⟨0, 0⟩, 1⟩), [("filter", .blank ⟨[2, 1, 2, 2]⟩)]⟩,
      ⟨"drop", .dropout, []⟩, ⟨"flat", .op .flatten, []⟩]
  mode := .eval

/-- The graph that is exported from it. -/
def smallGraph : Graph Binary32 where
  name := "small"
  input := ⟨"input", ⟨[1, 1, 2, 2]⟩, [0]⟩
  output := ⟨"output", ⟨[1, 2]⟩, [0]⟩
  nodes :=
    [⟨"conv", .conv ⟨⟨1, 1⟩, ⟨0, 0⟩, 1⟩, "input", ["filter"], "conv.out", ⟨[1, 2, 1, 1]⟩⟩,
      ⟨"flat", .flatten, "conv.out", [], "output", ⟨[1, 2]⟩⟩]
  params := smallWeights

theorem evaluate_exported_small :
    SequentialModel.build smallManifest smallWeights = .ok smallModel ∧
      exportGraph smallModel.toModel ⟨1, 1, 2, 2, .f32⟩ = .ok smallGraph ∧
      ∀ y, smallGraph.evaluate (.blank ⟨[3, 1, 2, 2]⟩) = .ok y ↔
        smallManifest.run smallWeights (.blank ⟨[3, 1, 2, 2]⟩) = .ok y := by
  have hbuild : SequentialModel.build smallManifest smallWeights = .ok smallModel := rfl
  have hexport : exportGraph smallModel.toModel ⟨1, 1, 2, 2, .f32⟩ = .ok smallGraph := rfl
  exact ⟨hbuild, hexport, evaluate_exported hbuild hexport rfl⟩

end Export

end NetPack
