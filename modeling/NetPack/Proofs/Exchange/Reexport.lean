import NetPack.Proofs.Exchange.Lifted
import NetPack.Proofs.Exchange.RoundTrip

/-!
# Exchange files that are written again

A file that was imported can be exported, and importing that file gives the same graph
(`Exchange.validate_reexported`). The file need not be like the one that the graph came from: names
that were given by operators without effect are gone, nodes without a name have got one, and so on.
But every graph that is lifted is in a form that lifting leaves as it is, as long as its file can
tell its names apart (`Exchange.Apart`).
-/

namespace NetPack

namespace Exchange

open Wire

variable {g : NetPack.Graph Binary32} {batch : Nat}

/-- No parameter is called as a value, and neither of them as a bound of a cut. -/
structure Apart (g : NetPack.Graph Binary32) : Prop where
  params : ∀ p t, g.params.find? p = some t → p ∉ g.valueNames
  bounds : ∀ n ∈ g.nodes, n.op = .activation .relu6 → ∀ suffix ∈ [".clip_min", ".clip_max"],
    n.name ++ suffix ∉ g.valueNames ∧ g.params.find? (n.name ++ suffix) = none

theorem apart_iff : Apart g ↔ (∀ e ∈ g.params.entries, e.1 ∉ g.valueNames) ∧
    ∀ n ∈ g.nodes, n.op = .activation .relu6 → ∀ suffix ∈ [".clip_min", ".clip_max"],
      n.name ++ suffix ∉ g.valueNames ∧ g.params.find? (n.name ++ suffix) = none := by
  constructor
  · intro hg
    exact ⟨fun e he => hg.params e.1 e.2 (Table.find?_eq_some_iff.2 he), hg.bounds⟩
  · rintro ⟨hparams, hbounds⟩
    exact ⟨fun p t ht => hparams (p, t) (Table.find?_eq_some_iff.1 ht), hbounds⟩

instance : Decidable (Apart g) := decidable_of_iff _ apart_iff.symm

theorem Apart.bound (hg : Apart g) {n : Node Binary32} (hn : n ∈ g.nodes)
    {e : String × Tensor Binary32} (he : e ∈ boundTensors n) :
    e.1 ∉ g.valueNames ∧ g.params.find? e.1 = none := by
  have hop : n.op = .activation .relu6 := by
    unfold boundTensors at he
    split at he
    · assumption
    · cases he
  rcases mem_boundTensors he with rfl | rfl
  · exact hg.bounds n hn hop ".clip_min" (by simp)
  · exact hg.bounds n hn hop ".clip_max" (by simp)

/-- No constant of the file is called as a value. -/
theorem Apart.fresh (hg : Apart g) {v : String} (hv : v ∈ g.valueNames) (hne : v ≠ "") :
    Fresh g v := by
  refine ⟨hne, ?_⟩
  rintro ⟨name, t⟩ he rfl
  rcases mem_constantTensors.1 he with hfind | ⟨n, hn, hbound⟩
  · exact hg.params name t hfind hv
  · exact (hg.bound hn hbound).1 hv

section Lifted

variable {m : Model}

theorem Lifted.named (hg : Lifted m g batch) (hnodes : g.nodes ≠ []) (hapart : Apart g) :
    Named g where
  graph := hg.name
  nodes n hn := (hg.nodes n hn).1
  input := hapart.fresh List.mem_cons_self (hg.values hnodes _ List.mem_cons_self)
  outputs n hn := by
    have hmem : n.output ∈ g.valueNames := List.mem_cons_of_mem _ (List.mem_map_of_mem hn)
    exact hapart.fresh hmem (hg.values hnodes _ hmem)
  params p t ht := by
    refine ⟨(hg.constants p t ht).1, fun n hn e he heq => ?_⟩
    rw [← heq, (hapart.bound hn he).2] at ht
    cases ht

/-- A lifted graph can be lifted again. -/
theorem Lifted.restorable (hg : Lifted m g batch) (hvalid : g.Valid) (hapart : Apart g) :
    Restorable g batch where
  valid := hvalid
  named := hg.named (NetPack.Graph.valid_iff.1 hvalid).1 hapart
  small n hn := (hg.nodes n hn).2
  params := hg.writable
  used := hg.used
  input := hg.input
  output := hg.output

end Lifted

/-- **What was imported is imported again from its export.** The file leaves out negative zeros, so
none may be added to a variance, and like that of every file its length is a word. -/
theorem validate_reexported {bytes : Bytes} {report : Report}
    (h : validate bytes batch = .ok (g, report)) (hapart : Apart g) (hzero : NoNegativeZero g)
    (hlen : (encodeGraph g).length < Word.modulus) :
    validate (encodeGraph g) batch = .ok (g, reportFor g) := by
  obtain ⟨m, hdecode, -, hlift, hvalid⟩ := exists_of_validate h
  have hlifted := lifted_of_toGraph (Model.bounded_of_decode? hdecode) hlift
  exact (hlifted.restorable hvalid hapart).validate hzero hlen

/-- A model whose operators have other names than its nodes will have: an identity and a dropout
rename the values `x` and `c`, the product has no name, the bounds of the cut are attributes, and
nothing reads the constant `spare`. -/
def roundaboutModel : Model where
  irVersion := 8
  producerName := "elsewhere"
  producerVersion := ""
  operatorSets := [⟨"", 15⟩]
  graph := some {
    operators := [
      ⟨["x"], ["a"], "", "Identity", []⟩,
      ⟨["a", "w"], ["b"], "", "Gemm", [intAttribute "transB" 1]⟩,
      ⟨["b"], ["c"], "cut", "Clip",
        [singleAttribute "min" 0, singleAttribute "max" (Scalar.count 6)]⟩,
      ⟨["c"], ["y"], "", "Dropout", []⟩]
    name := ""
    initializers := [
      ⟨[2, 2], 1, [1, 2, 3, 4].map Scalar.count, "w", []⟩,
      ⟨[1], 1, [Scalar.count 7], "spare", []⟩]
    inputs := [⟨"x", .tensor 1 (some [.param "N", .value 2])⟩]
    outputs := [⟨"y", .tensor 1 (some [.param "N", .value 2])⟩] }

/-- The graph of the model at batch size three. -/
def roundaboutGraph : NetPack.Graph Binary32 where
  name := "onnx"
  input := ⟨"x", ⟨[3, 2]⟩, [0]⟩
  output := ⟨"y", ⟨[3, 2]⟩, [0]⟩
  nodes := [
    ⟨"gemm_1", .linear, "x", ["w"], "b", ⟨[3, 2]⟩⟩,
    ⟨"cut", .activation .relu6, "b", [], "y", ⟨[3, 2]⟩⟩]
  params := .ofList [("w", ⟨⟨[2, 2]⟩, ([1, 2, 3, 4].map Scalar.count).toArray⟩)]

theorem storable_roundaboutModel : roundaboutModel.Storable where
  irVersion := by simp [roundaboutModel, Long]
  operatorSets := by simp [roundaboutModel, OperatorSet.Storable, Long]
  graph := by
    have hone : Long 1 := by simp [Long]
    have hzero : (0 : Binary32) ≠ ⟨0x80000000⟩ := by decide
    have hsix : (Scalar.count 6 : Binary32) ≠ ⟨0x80000000⟩ := by decide
    have hvalue : ∀ name,
        (⟨name, .tensor 1 (some [.param "N", .value 2])⟩ : Value).Storable := fun name => by
      simp [Value.Storable, ValueType.Storable, Dimension.Storable, Short, Long]
    rintro _ ⟨⟩
    refine ⟨?_, ?_, List.forall_mem_singleton.2 (hvalue "x"),
      List.forall_mem_singleton.2 (hvalue "y")⟩
    · simp [Operator.Storable, storable_intAttribute _ hone, storable_singleAttribute _ hzero,
        storable_singleAttribute _ hsix]
    · simp only [List.forall_mem_cons]
      exact ⟨⟨by simp [Long], by simp [Short]⟩, ⟨by simp [Long], by simp [Short]⟩, by simp⟩

theorem validate_reexported_roundabout :
    validate roundaboutModel.encode 3 = .ok (roundaboutGraph, ⟨"elsewhere", 8, 15, 4, 2⟩) ∧
      validate (encodeGraph roundaboutGraph) 3 =
        .ok (roundaboutGraph, reportFor roundaboutGraph) := by
  have hread : Model.decode? roundaboutModel.encode = some roundaboutModel :=
    Model.decode?_encode storable_roundaboutModel (by decide +kernel)
  have himport : validate roundaboutModel.encode 3 =
      .ok (roundaboutGraph, ⟨"elsewhere", 8, 15, 4, 2⟩) := by
    rw [validate, decode, hread]
    rfl
  have hapart : Apart roundaboutGraph := by decide
  have hzero : NoNegativeZero roundaboutGraph := by
    simp [NoNegativeZero, roundaboutGraph]
  have hlen : (encodeGraph roundaboutGraph).length < Word.modulus := by decide +kernel
  exact ⟨himport, validate_reexported himport hapart hzero hlen⟩

end Exchange

end NetPack
