import NetPack.Convert.Export
import NetPack.Proofs.Recording
import NetPack.Proofs.Sizes

/-!
# What an exported graph looks like

A manifest and its weights are built into layers with different names whose weights are those that
the manifest lists (`SequentialModel.build_eq_ok`). The graph exported from such a model consists of
the nodes that its layers leave, with the last value renamed to the name of the output; input and
output have a dynamic batch axis, and the graph is valid (`Export.exported_of_build`).
-/

namespace NetPack

/-! ### Building a model -/

namespace Manifest

theorem checkLayer_eq_ok {seen seen' : List String} {l : LayerSpec}
    (h : checkLayer seen l = .ok seen') : l.name ∉ seen ∧ seen' = l.name :: seen := by
  simp only [checkLayer, Outcome.throw_eq_error, Outcome.error_bind] at h
  rw [Outcome.ite_eq_ok (by simp)] at h
  obtain ⟨hname, h⟩ := h
  obtain ⟨kind, -, h⟩ := Outcome.bind_eq_ok.1 h
  rw [Outcome.ite_eq_ok (by simp), Outcome.pure_eq_ok_iff] at h
  exact ⟨by simpa using hname, h.2.symm⟩

theorem foldlM_checkLayer_eq_ok {ls : List LayerSpec} {seen seen' : List String}
    (h : ls.foldlM checkLayer seen = .ok seen') :
    (∀ l ∈ ls, l.name ∉ seen) ∧ (ls.map (·.name)).Nodup := by
  induction ls generalizing seen with
  | nil => simp
  | cons l ls ih =>
    rw [List.foldlM_cons] at h
    obtain ⟨_, hl, h⟩ := Outcome.bind_eq_ok.1 h
    obtain ⟨hname, rfl⟩ := checkLayer_eq_ok hl
    obtain ⟨hseen, hnodup⟩ := ih h
    rw [List.forall_mem_cons, List.map_cons, List.nodup_cons]
    refine ⟨⟨hname, fun l' hl' hmem => hseen l' hl' (List.mem_cons_of_mem _ hmem)⟩, ?_, hnodup⟩
    intro hmem
    obtain ⟨l', hl', heq⟩ := List.mem_map.1 hmem
    exact hseen l' hl' (heq ▸ List.mem_cons_self)

/-- A consistent manifest has layers with different names. -/
theorem nodup_of_validate {m : Manifest} (h : m.validate = .ok ()) :
    (m.layers.map (·.name)).Nodup := by
  simp only [validate, Outcome.throw_eq_error, Outcome.error_bind] at h
  rw [Outcome.ite_eq_ok (by simp), Outcome.ite_eq_ok (by simp)] at h
  obtain ⟨_, hfold, -⟩ := Outcome.bind_eq_ok.1 h.2.2
  exact (foldlM_checkLayer_eq_ok hfold).2

end Manifest

namespace SequentialModel

variable {α : Type}

theorem layerWeights_eq_ok {weights : Table (Tensor α)} {names : List String}
    {ws : List (String × Tensor α)} :
    layerWeights weights names = .ok ws ↔
      names = ws.map (·.1) ∧ ∀ p ∈ ws, weights.find? p.1 = some p.2 := by
  rw [layerWeights, Outcome.mapM_eq_ok]
  constructor
  · intro h
    induction h with
    | nil => simp
    | @cons name p names ps hp _ ih =>
      split at hp
      · rename_i t ht
        obtain rfl := Except.ok.inj hp
        rw [List.forall_mem_cons]
        exact ⟨congrArg (name :: ·) ih.1, ht, ih.2⟩
      · cases hp
  · rintro ⟨rfl, hws⟩
    refine List.forall₂_map_left_iff.2 (List.forall₂_same.2 fun p hp => ?_)
    rw [hws p hp]

/-- The layer of a model stands for the layer of a manifest. -/
structure Stands (weights : Table (Tensor Binary32)) (spec : LayerSpec) (l : Layer Binary32) :
    Prop where
  name : l.name = spec.name
  kind : spec.kind = .ok l.kind
  names : spec.weights = l.weights.map (·.1)
  found : ∀ p ∈ l.weights, weights.find? p.1 = some p.2

theorem forall_found {weights : Table (Tensor Binary32)} {specs : List LayerSpec}
    {ls : List (Layer Binary32)} (h : List.Forall₂ (Stands weights) specs ls) :
    ∀ l ∈ ls, ∀ p ∈ l.weights, weights.find? p.1 = some p.2 := by
  induction h with
  | nil => simp
  | cons hl _ ih => exact List.forall_mem_cons.2 ⟨hl.found, ih⟩

theorem build_eq_ok {m : Manifest} {weights : Table (Tensor Binary32)}
    {model : SequentialModel Binary32} (h : build m weights = .ok model) :
    model.name = m.name ∧ model.mode = .eval ∧ (model.layers.map (·.name)).Nodup ∧
      List.Forall₂ (Stands weights) m.layers model.layers := by
  rw [build] at h
  obtain ⟨_, hvalid, h⟩ := Outcome.bind_eq_ok.1 h
  obtain ⟨layers, hlayers, h⟩ := Outcome.bind_eq_ok.1 h
  obtain rfl := Outcome.pure_eq_ok_iff.1 h
  have hstands : List.Forall₂ (Stands weights) m.layers layers := by
    refine (Outcome.mapM_eq_ok.1 hlayers).imp fun spec l hl => ?_
    obtain ⟨kind, hkind, hl⟩ := Outcome.bind_eq_ok.1 hl
    obtain ⟨ws, hws, hl⟩ := Outcome.bind_eq_ok.1 hl
    obtain ⟨hnames, hfound⟩ := layerWeights_eq_ok.1 hws
    rw [Layer.make] at hl
    split at hl
    · obtain rfl := Except.ok.inj hl
      exact ⟨rfl, hkind, hnames, hfound⟩
    · cases hl
  refine ⟨rfl, rfl, ?_, hstands⟩
  have hnames : m.layers.map (·.name) = layers.map (·.name) := by
    rw [← List.forall₂_eq_eq_eq, List.forall₂_map_left_iff, List.forall₂_map_right_iff]
    exact hstands.imp fun spec l hl => hl.name.symm
  exact hnames ▸ Manifest.nodup_of_validate hvalid

end SequentialModel

/-! ### Exporting it -/

namespace Tracer

variable {α : Type}

/-- The name of a value after `old` was renamed to `new`. -/
def renamed (old new v : String) : String := if v = old then new else v

theorem finish_eq_ok {t : Tracer α} {y : Traced α} {outputName : String} {g : Graph α}
    (h : t.finish y outputName = .ok g) :
    y.name ≠ t.input.name ∧ g =
      { name := t.graphName
        input := t.input
        output := .fixed outputName y.tensor.shape
        nodes := t.nodes.map (renameValue y.name outputName)
        params := t.params } := by
  simp only [finish, Outcome.throw_eq_error, Outcome.error_bind] at h
  rw [Outcome.ite_eq_ok (by simp), Outcome.ite_eq_ok (by simp), Outcome.pure_eq_ok_iff] at h
  exact ⟨h.1, h.2.2.symm⟩

end Tracer

namespace Export

/-- The structure of an exported graph. -/
structure Exported (weights : Table (Tensor Binary32)) (model : SequentialModel Binary32)
    (d : Descriptor) (g : Graph Binary32) : Prop where
  valid : g.Valid
  name : g.name = model.name
  input : g.input = ⟨inputName, d.shape, [0]⟩
  output : ∃ shape, g.output = ⟨outputName, shape, [0]⟩
  nodes : ∃ ns w, w ≠ inputName ∧ Tracer.Records g.params inputName model.layers ns w ∧
    g.nodes = ns.map (Tracer.renameValue w outputName)
  params : Tracer.Extends g.params weights
  used : ∀ name t, g.params.find? name = some t → ∃ n ∈ g.nodes, name ∈ n.params
  extents : d.shape.Positive

theorem check_eq_ok {d : Descriptor} : d.check = .ok () ↔ d.shape.Positive := by
  rw [Descriptor.check, Outcome.ite_eq_ok (by simp), and_iff_left rfl, List.contains_iff_mem]
  constructor
  · intro hzero n hn
    exact Nat.pos_of_ne_zero fun h => hzero (h ▸ hn)
  · intro hpositive hzero
    exact absurd (hpositive 0 hzero) (Nat.lt_irrefl 0)

/-- A source of zeros. -/
@[reducible] def zeroSource : NumberSource := ⟨fun _ => 0⟩

theorem shape_of_syntheticInput [NumberSource] {d : Descriptor} {x : Tensor Binary32}
    (h : syntheticInput d = some x) : x.shape = d.shape :=
  (Tensor.drawn_eq_some h).1

/-- An export runs the model once and finishes the recording with what the model returns. -/
theorem exists_of_exportGraph [NumberSource] {model : Model Binary32} {d : Descriptor}
    {g : Graph Binary32}
    (h : exportGraph model d = .ok g) :
    g.Valid ∧ d.shape.Positive ∧ ∃ x y t g₀, syntheticInput d = some x ∧
      Recording.outcome (model.forward (Tracer.start model.name inputName x).2)
        (Tracer.start model.name inputName x).1 = (.ok y, t) ∧
      t.finish y outputName = .ok g₀ ∧
      g = { g₀ with input := batchDynamic g₀.input, output := batchDynamic g₀.output } := by
  -- The stages of an export: the checks, the recording, the finishing of the graph, its validation.
  simp only [exportGraph, Outcome.report_bind] at h
  rw [Outcome.ite_eq_ok (by simp)] at h
  obtain ⟨_, hcheck, h⟩ := Outcome.bind_eq_ok.1 h.2
  rw [Outcome.mapError_eq_ok, recordGraph] at h
  obtain ⟨x, hx, h⟩ := Outcome.bind_eq_ok.1 h
  simp only [Tracer.start] at h
  split at h
  rename_i result tracer hrun
  obtain ⟨y, rfl, -⟩ := Outcome.bind_eq_ok.1 h
  rw [Outcome.ok_bind] at h
  obtain ⟨g₀, hfinish, h⟩ := Outcome.bind_eq_ok.1 h
  obtain ⟨hvalid, rfl⟩ := Graph.validate_eq_ok.1 h
  exact ⟨hvalid, check_eq_ok.1 (Outcome.ofExcept_eq_ok.1 hcheck), x, y, tracer, g₀,
    Outcome.orCrash_eq_ok.1 hx, hrun, Outcome.ofExcept_eq_ok.1 hfinish, rfl⟩

theorem exported_of_build [NumberSource] {m : Manifest} {weights : Table (Tensor Binary32)}
    {model : SequentialModel Binary32} {d : Descriptor} {g : Graph Binary32}
    (hbuild : SequentialModel.build m weights = .ok model)
    (hexport : exportGraph model.toModel d = .ok g) : Exported weights model d g := by
  obtain ⟨-, -, hnames, hstands⟩ := SequentialModel.build_eq_ok hbuild
  have hfound := SequentialModel.forall_found hstands
  obtain ⟨hvalid, hpositive, x, y, tracer, g₀, hx, hrun, hfinish, rfl⟩ :=
    exists_of_exportGraph hexport
  obtain ⟨hname, rfl⟩ := Tracer.finish_eq_ok hfinish
  have hempty : Tracer.Extends (Table.empty : Table (Tensor Binary32)) weights :=
    fun name b hb => by simp at hb
  obtain ⟨ns, hrec, hnodes, hgraph, hinput, -, hsource, hadds⟩ :=
    Tracer.records_of_forward hfound hempty hnames (fun _ _ => rfl) hrun
  simp only [Tracer.start, List.nil_append] at hnodes hinput hgraph
  refine ⟨hvalid, hgraph, ?_, ⟨y.tensor.shape, rfl⟩, ⟨ns, y.name, ?_, hrec, ?_⟩, hsource,
    fun name t ht => ?_, hpositive⟩
  · simp only [hinput, ← shape_of_syntheticInput hx]
    rfl
  · rw [hinput] at hname
    exact hname
  · rw [← hnodes]
  · have hused : name ∈ ns.flatMap (·.params) := by
      simpa [Tracer.start] using hadds name t ht
    obtain ⟨n, hn, hname⟩ := List.mem_flatMap.1 hused
    rw [hnodes]
    exact ⟨_, List.mem_map_of_mem hn, hname⟩

end Export

end NetPack
