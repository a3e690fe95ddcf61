import NetPack.Proofs.Json.Headers

/-!
# Numbers that are not finite are not read back

An infinity or a NaN is written as `null`, which is read as no number. So a header is read back only
if all of its single-precision numbers are finite: those of the operations
(`Topology.finite_of_read`), and the scale and the biases of an image
(`InputSpec.finite_of_read`). A header with another one cannot be read at all
(`Artifact.finite_of_readHeader`).
-/

namespace NetPack

open Json Document

namespace Json

theorem finite_of_single {x y : Binary32} (h : Document.single (Json.single x) = .ok y) :
    x.isFinite = true := by
  by_contra hx
  rw [single, if_neg hx] at h
  cases h

/-- The elements of an array that is read are read. -/
theorem exists_of_list {α β : Type} {write : α → Json} {value : Decoder Json β} {xs : List α}
    {ys : List β} (h : Document.list value (.array (xs.map write)) = .ok ys) :
    ∀ x ∈ xs, ∃ y, value (write x) = .ok y := by
  have hread : (xs.map write).mapM value = .ok ys := h
  exact fun x hx => Outcome.exists_of_mapM hread _ (List.mem_map_of_mem hx)

variable {β : Type} {k : Record Json → Except DecodeError β} {b : β}

/-- What was read of members was read from the fields that were written. -/
theorem of_bind_named (values : List (Option Json)) {names : List String}
    {ms : List (String × Json)} (hms : ms = present (names.zip values)) (hnodup : names.Nodup)
    (hlength : names.length = values.length)
    (h : ((Contents.named ms).record names >>= k) = .ok b) :
    ∃ r, (∀ f ∈ names.zip values, r.fields.lookup f.1 = f.2) ∧ k r = .ok b := by
  obtain ⟨r, hr, hfind⟩ := record_present hnodup hlength
  rw [hms, hr, Outcome.ok_bind] at h
  exact ⟨r, hfind, h⟩

/-- The same of a record. -/
theorem of_bind_record (values : List (Option Json)) {names : List String} {j : Json}
    (hj : j = members (names.zip values)) (hnodup : names.Nodup)
    (hlength : names.length = values.length) (h : (Document.record names j >>= k) = .ok b) :
    ∃ r, (∀ f ∈ names.zip values, r.fields.lookup f.1 = f.2) ∧ k r = .ok b := by
  subst hj
  exact of_bind_named values rfl hnodup hlength h

end Json

theorem Op.finite_of_read {op op' : Op Binary32} (h : read op.toJson = .ok op') :
    ∀ x ∈ op.singles, x.isFinite = true := by
  cases op with
  | batchNorm epsilon =>
    refine List.forall_mem_singleton.2 ?_
    by_contra hx
    have hnull : (batchNorm epsilon : Op Binary32).toJson =
        .object [("op", .string "batch_norm"), ("epsilon", .null)] := by
      rw [toJson, hyperParameters, Json.single, if_neg hx]
      rfl
    rw [hnull] at h
    cases h
  | _ => simp [singles]

theorem Node.finite_of_read {n n' : Node Binary32} (h : read n.toJson = .ok n') :
    ∀ x ∈ n.op.singles, x.isFinite = true := by
  obtain ⟨r, hfind, h⟩ := of_bind_record [some (.string n.name), some n.op.toJson,
    some (.string n.input), if n.params.isEmpty then none else some (.strings n.params),
    some (.string n.output), some n.outputShape.toJson] rfl (by decide) rfl h
  simp only [List.zip_cons_cons, List.forall_mem_cons] at hfind
  obtain ⟨-, hop, -⟩ := hfind
  obtain ⟨_, -, h⟩ := Outcome.bind_eq_ok.1 h
  obtain ⟨op', hread, -⟩ := Outcome.bind_eq_ok.1 h
  rw [Record.required_of_lookup hop] at hread
  exact Op.finite_of_read hread

theorem Topology.finite_of_read {t t' : Topology Binary32} (h : read t.toJson = .ok t') :
    ∀ x ∈ t.singles, x.isFinite = true := by
  obtain ⟨r, hfind, h⟩ := of_bind_record [some (.string t.name), some t.input.toJson,
    some t.output.toJson, some (.array (t.nodes.map Node.toJson))] rfl (by decide) rfl h
  simp only [List.zip_cons_cons, List.forall_mem_cons] at hfind
  obtain ⟨-, -, -, hnodes, -⟩ := hfind
  obtain ⟨_, -, h⟩ := Outcome.bind_eq_ok.1 h
  obtain ⟨_, -, h⟩ := Outcome.bind_eq_ok.1 h
  obtain ⟨_, -, h⟩ := Outcome.bind_eq_ok.1 h
  obtain ⟨nodes, hread, -⟩ := Outcome.bind_eq_ok.1 h
  rw [Record.required_of_lookup hnodes] at hread
  rw [singles, List.forall_mem_flatMap]
  intro n hn
  obtain ⟨n', hn'⟩ := exists_of_list hread n hn
  exact Node.finite_of_read hn'

theorem InputSpec.finite_of_read {input input' : InputSpec}
    (hwords : ∀ d ∈ input.shape.dims, d < Word.modulus)
    (hreads : ∀ x ∈ input.singles, x.isFinite → ReadsBack x)
    (h : read input.toJson = .ok input') : ∀ x ∈ input.singles, x.isFinite = true := by
  rw [read, tagged_toJson hwords hreads, Outcome.ok_bind] at h
  cases input with
  | image name shape layout scale bias =>
    obtain ⟨r, hfind, h⟩ := of_bind_named [some (.string name), some shape.toJson,
      some (.string layout.name), some (.single scale), some (.array (bias.map .single))]
      rfl (by decide) rfl h
    simp only [List.zip_cons_cons, List.forall_mem_cons] at hfind
    obtain ⟨-, -, -, hscale, hbias, -⟩ := hfind
    obtain ⟨_, -, h⟩ := Outcome.bind_eq_ok.1 h
    obtain ⟨_, -, h⟩ := Outcome.bind_eq_ok.1 h
    obtain ⟨_, -, h⟩ := Outcome.bind_eq_ok.1 h
    obtain ⟨_, hreadScale, h⟩ := Outcome.bind_eq_ok.1 h
    obtain ⟨_, hreadBias, -⟩ := Outcome.bind_eq_ok.1 h
    rw [Record.required_of_lookup hscale] at hreadScale
    rw [Record.required_of_lookup hbias] at hreadBias
    refine List.forall_mem_cons.2 ⟨finite_of_single hreadScale, fun x hx => ?_⟩
    obtain ⟨y, hy⟩ := exists_of_list hreadBias x hx
    exact finite_of_single hy
  | tensor name shape dtype => simp [singles]

/-- **A header is read back only if its numbers are finite.** -/
theorem Artifact.finite_of_readHeader {a : Artifact} {params : Table (Tensor Binary32)}
    {p : Nat × Artifact} (hwords : ∀ n ∈ a.counts, n < Word.modulus)
    (hreads : ∀ x ∈ a.singles, x.isFinite → ReadsBack x)
    (h : readHeader params a.headerToJson = .ok p) : ∀ x ∈ a.singles, x.isFinite = true := by
  simp only [counts, singles, List.forall_mem_append] at hwords hreads ⊢
  obtain ⟨r, hfind, h⟩ := of_bind_record [some (.nat version), some (.string a.name),
    some a.graph.toTopology.toJson, some a.input.toJson, a.labels.map Labels.toJson,
    some a.options.toJson, some (.strings a.passes), a.metadata.map Metadata.toJson] rfl
    (by decide) rfl h
  simp only [List.zip_cons_cons, List.forall_mem_cons] at hfind
  obtain ⟨-, -, hgraph, hinput, -⟩ := hfind
  obtain ⟨_, -, h⟩ := Outcome.bind_eq_ok.1 h
  obtain ⟨_, -, h⟩ := Outcome.bind_eq_ok.1 h
  obtain ⟨_, hreadGraph, h⟩ := Outcome.bind_eq_ok.1 h
  obtain ⟨_, hreadInput, -⟩ := Outcome.bind_eq_ok.1 h
  rw [Record.required_of_lookup hgraph] at hreadGraph
  rw [Record.required_of_lookup hinput] at hreadInput
  exact ⟨Topology.finite_of_read hreadGraph,
    InputSpec.finite_of_read hwords.2 hreads.2 hreadInput⟩

end NetPack
