import NetPack.Artifact.Codec
import NetPack.Proofs.Json.Records

/-!
# Headers are read back as they were written

The header of an artifact or a bundle is a record whose fields are records again: the topology with
its nodes and their operations, the input, the options, the metadata. Each of them is read back from
its document (`Topology.read_toJson`, `InputSpec.read_toJson` and so on), and from these lemmas the
headers are (`Bundle.readHeader_headerToJson`, `Artifact.readHeader_headerToJson`). All that is
asked of a header is that its numbers are `Representable`: counts are words, and the other numbers
are finite and read back from their decimals.
-/

namespace NetPack

/-- Counts are words, and single-precision numbers are finite and read back as they were written. -/
structure Representable (counts : List Nat) (singles : List Binary32) : Prop where
  words : ∀ n ∈ counts, n < Word.modulus
  finite : ∀ x ∈ singles, x.isFinite
  readsBack : ∀ x ∈ singles, Json.ReadsBack x

theorem Representable.mono {counts counts' : List Nat} {singles singles' : List Binary32}
    (h : Representable counts singles) (hcounts : counts' ⊆ counts)
    (hsingles : singles' ⊆ singles) : Representable counts' singles' where
  words n hn := h.words n (hcounts hn)
  finite x hx := h.finite x (hsingles hx)
  readsBack x hx := h.readsBack x (hsingles hx)

/-! ### The numbers of a header -/

namespace Op

variable {α : Type}

/-- The counts among the hyper-parameters. -/
def counts : Op α → List Nat
  | conv p => p.stride.toList ++ p.padding.toList ++ [p.groups]
  | maxPool p => p.kernel.toList ++ p.stride.toList ++ p.padding.toList
  | _ => []

/-- The other numbers among the hyper-parameters. -/
def singles : Op α → List α
  | batchNorm epsilon => [epsilon]
  | _ => []

end Op

/-- The extents and the dynamic axes. -/
def ValueInfo.counts (v : ValueInfo) : List Nat := v.shape.dims ++ v.dynamicAxes

/-- The counts of the operation and the extents of its value. -/
def Node.counts {α : Type} (n : Node α) : List Nat := n.op.counts ++ n.outputShape.dims

namespace Topology

variable {α : Type}

/-- All counts of a topology. -/
def counts (t : Topology α) : List Nat :=
  t.input.counts ++ t.output.counts ++ t.nodes.flatMap Node.counts

/-- All other numbers of a topology. -/
def singles (t : Topology α) : List α := t.nodes.flatMap fun n => n.op.singles

end Topology

namespace InputSpec

/-- The scale and the biases of an image. -/
def singles : InputSpec → List Binary32
  | image _ _ _ scale bias => scale :: bias
  | tensor .. => []

end InputSpec

namespace Artifact

/-- All counts of the header. -/
def counts (a : Artifact) : List Nat := a.graph.toTopology.counts ++ a.input.shape.dims

/-- All other numbers of the header. -/
def singles (a : Artifact) : List Binary32 := a.graph.toTopology.singles ++ a.input.singles

end Artifact

open Json Document

/-! ### Names -/

section Names

variable {α δ : Type} [Document δ] {d : δ}

/-- A string is read as what it names, in a document of any format. -/
theorem Document.name_of_string {ofName? : String → Option α} {expected s : String} {a : α}
    (hd : Document.string? d = some s) (ha : ofName? s = some a) :
    Document.name ofName? expected d = .ok a := by
  rw [Document.name, hd]
  exact congrArg (Document.expect expected) ha

theorem Activation.read_name {a : Activation} (hd : Document.string? d = some a.name) :
    Activation.read d = .ok a :=
  Document.name_of_string hd (by cases a <;> rfl)

theorem ColorLayout.read_name {l : ColorLayout} (hd : Document.string? d = some l.name) :
    ColorLayout.read d = .ok l :=
  Document.name_of_string hd (by cases l <;> rfl)

theorem DType.read_name {t : DType} (hd : Document.string? d = some t.name) :
    DType.read d = .ok t :=
  Document.name_of_string hd (by cases t <;> rfl)

theorem ComputeUnits.read_name {u : ComputeUnits} (hd : Document.string? d = some u.name) :
    ComputeUnits.read d = .ok u :=
  Document.name_of_string hd (by cases u <;> rfl)

theorem ModelFormat.read_name {f : ModelFormat} (hd : Document.string? d = some f.name) :
    ModelFormat.read d = .ok f :=
  Document.name_of_string hd (by cases f <;> rfl)

theorem ComputePrecision.read_name {p : ComputePrecision}
    (hd : Document.string? d = some p.name) : ComputePrecision.read d = .ok p :=
  Document.name_of_string hd (by cases p <;> rfl)

/-- The letters of a platform may have any size, so names are compared in small letters. -/
theorem Target.parse_name (t : Target) : parse t.name = .ok t := by
  have htrim : Text.trim t.name = t.name := by cases t <;> decide
  have hsame (u : Target) : (Text.asciiLowercase u.name == Text.asciiLowercase t.name) =
      (u.name.toList.map Char.toLower == t.name.toList.map Char.toLower) := by
    rw [Bool.eq_iff_iff, beq_iff_eq, beq_iff_eq, ← String.toList_inj]
    simp only [Text.asciiLowercase, String.toList_map]
  have hfind : (all.find? fun u =>
      u.name.toList.map Char.toLower == t.name.toList.map Char.toLower) = some t := by
    cases t <;> decide
  simp only [parse, htrim, hsame, hfind]

theorem Target.read_name {t : Target} (hd : Document.string? d = some t.name) :
    Target.read d = .ok t := by
  rw [read, Document.string, hd, Document.expect, Outcome.ok_bind, parse_name]
  rfl

end Names

/-! ### Operations -/

theorem Axes.read_toJson {a : Axes} (h : ∀ n ∈ a.toList, n < Word.modulus) :
    Axes.read a.toJson = .ok a := by
  have hpair := pair_nats (h a.vertical (by simp [toList])) (h a.horizontal (by simp [toList]))
  rw [Axes.read, show a.toJson = Json.nats [a.vertical, a.horizontal] from rfl, hpair]
  rfl

theorem ConvParams.ofContents_members {p : ConvParams}
    (h : ∀ n ∈ (Op.conv p : Op Binary32).counts, n < Word.modulus) :
    ofContents (Contents.named p.members) = .ok p := by
  simp only [Op.counts, List.forall_mem_append, List.forall_mem_singleton] at h
  obtain ⟨⟨hstride, hpadding⟩, hgroups⟩ := h
  refine bind_named [some p.stride.toJson, some p.padding.toJson, some (.nat p.groups)] rfl
    (by decide) rfl fun r hfind => ?_
  simp only [List.zip_cons_cons, List.forall_mem_cons] at hfind
  obtain ⟨hstride', hpadding', hgroups', -⟩ := hfind
  simp only [Record.required, hstride', hpadding', hgroups', Axes.read_toJson hstride,
    Axes.read_toJson hpadding, nat_nat hgroups, Outcome.ok_bind]
  rfl

theorem PoolParams.ofContents_members {p : PoolParams}
    (h : ∀ n ∈ (Op.maxPool p : Op Binary32).counts, n < Word.modulus) :
    ofContents (Contents.named p.members) = .ok p := by
  simp only [Op.counts, List.forall_mem_append] at h
  obtain ⟨⟨hkernel, hstride⟩, hpadding⟩ := h
  refine bind_named [some p.kernel.toJson, some p.stride.toJson, some p.padding.toJson] rfl
    (by decide) rfl fun r hfind => ?_
  simp only [List.zip_cons_cons, List.forall_mem_cons] at hfind
  obtain ⟨hkernel', hstride', hpadding', -⟩ := hfind
  simp only [Record.required, hkernel', hstride', hpadding', Axes.read_toJson hkernel,
    Axes.read_toJson hstride, Axes.read_toJson hpadding, Outcome.ok_bind]
  rfl

namespace Op

variable {op : Op Binary32}

theorem kept?_hyperParameters (h : Representable op.counts op.singles) :
    ∀ m ∈ op.hyperParameters, Json.kept? m.2 = some m.2 := by
  obtain ⟨hwords, -, hreads⟩ := h
  cases op with
  | conv p =>
    simp only [counts, List.forall_mem_append, List.forall_mem_singleton] at hwords
    obtain ⟨⟨hstride, hpadding⟩, hgroups⟩ := hwords
    simp [hyperParameters, ConvParams.members, Axes.toJson, kept?_nats hstride,
      kept?_nats hpadding, kept?_nat hgroups]
  | maxPool p =>
    simp only [counts, List.forall_mem_append] at hwords
    obtain ⟨⟨hkernel, hstride⟩, hpadding⟩ := hwords
    simp [hyperParameters, PoolParams.members, Axes.toJson, kept?_nats hkernel,
      kept?_nats hstride, kept?_nats hpadding]
  | batchNorm epsilon =>
    simp [hyperParameters, kept?_single fun _ => hreads epsilon (by simp [singles])]
  | activation kind => simp [hyperParameters, kept?_string]
  | _ => simp [hyperParameters]

theorem tagged_toJson (h : Representable op.counts op.singles) :
    Document.tagged "op" op.toJson = .ok (op.tag, .named op.hyperParameters) := by
  refine tagged_object (kept?_hyperParameters h) ?_
  cases op <;> simp [hyperParameters, ConvParams.members, PoolParams.members]

theorem read_toJson (h : Representable op.counts op.singles) : read op.toJson = .ok op := by
  rw [read, tagged_toJson h, Outcome.ok_bind]
  cases op with
  | conv p =>
    change conv <$> ConvParams.ofContents (Contents.named p.members) = _
    rw [ConvParams.ofContents_members h.words]
    rfl
  | maxPool p =>
    change maxPool <$> PoolParams.ofContents (Contents.named p.members) = _
    rw [PoolParams.ofContents_members h.words]
    rfl
  | batchNorm epsilon =>
    have hx : epsilon ∈ (batchNorm epsilon : Op Binary32).singles := by simp [singles]
    refine bind_named [some (.single epsilon)] rfl (by decide) rfl fun r hfind => ?_
    simp only [List.zip_cons_cons, List.forall_mem_cons] at hfind
    simp only [Record.required, hfind.1, single_single (h.finite _ hx) (h.readsBack _ hx)]
    rfl
  | activation kind =>
    refine bind_named [some (.string kind.name)] rfl (by decide) rfl fun r hfind => ?_
    simp only [List.zip_cons_cons, List.forall_mem_cons] at hfind
    have hkind : Activation.read (Json.string kind.name) = .ok kind := Activation.read_name rfl
    simp only [Record.required, hfind.1, hkind]
    rfl
  | _ => rfl

theorem faithful_toJson (room : Nat) (op : Op Binary32) : Faithful (room + 2) op.toJson := by
  rw [toJson, faithful_object, List.forall_mem_cons]
  refine ⟨faithful_string _ _, ?_⟩
  cases op <;> simp [hyperParameters, ConvParams.members, PoolParams.members, Axes.toJson,
    faithful_nats, faithful_nat, faithful_single, faithful_string]

end Op

/-! ### Topologies -/

theorem Shape.read_toJson {s : Shape} (h : ∀ n ∈ s.dims, n < Word.modulus) :
    Shape.read s.toJson = .ok s := by
  rw [Shape.read, Shape.toJson, list_nats h]
  rfl

/-- A list that is left out when it is empty is read back. -/
theorem withDefault_list {α : Type} {r : Record Json} {field : String} {write : List α → Json}
    {value : Decoder Json (List α)} {xs : List α}
    (h : r.fields.lookup field = if xs.isEmpty then none else some (write xs))
    (hread : value (write xs) = .ok xs) : r.withDefault field value [] = .ok xs := by
  refine Record.withDefault_of_lookup h ?_ ?_
  · intro d hd
    split at hd
    · cases hd
    · cases hd
      exact hread
  · intro hnone
    split at hnone
    · rename_i hempty
      exact (List.isEmpty_iff.1 hempty).symm
    · cases hnone

namespace ValueInfo

theorem read_toJson {v : ValueInfo} (h : ∀ n ∈ v.counts, n < Word.modulus) :
    read v.toJson = .ok v := by
  simp only [counts, List.forall_mem_append] at h
  obtain ⟨hshape, haxes⟩ := h
  refine bind_record [some (.string v.name), some v.shape.toJson,
    if v.dynamicAxes.isEmpty then none else some (.nats v.dynamicAxes)] rfl (by decide) rfl
    fun r hfind => ?_
  simp only [List.zip_cons_cons, List.forall_mem_cons] at hfind
  obtain ⟨hname', hshape', haxes', -⟩ := hfind
  simp only [Record.required, hname', hshape', string_string, Shape.read_toJson hshape,
    withDefault_list haxes' (list_nats haxes), Outcome.ok_bind]
  rfl

theorem faithful_toJson (room : Nat) (v : ValueInfo) : Faithful (room + 2) v.toJson := by
  refine faithful_members ?_
  simp [Shape.toJson, faithful_string, faithful_nats]

end ValueInfo

namespace Node

theorem read_toJson {n : Node Binary32} (h : Representable n.counts n.op.singles) :
    read n.toJson = .ok n := by
  have hop : Representable n.op.counts n.op.singles := h.mono (by simp [counts]) (by simp)
  have hshape : ∀ d ∈ n.outputShape.dims, d < Word.modulus :=
    fun d hd => h.words d (by simp [counts, hd])
  refine bind_record [some (.string n.name), some n.op.toJson, some (.string n.input),
    if n.params.isEmpty then none else some (.strings n.params), some (.string n.output),
    some n.outputShape.toJson] rfl (by decide) rfl fun r hfind => ?_
  simp only [List.zip_cons_cons, List.forall_mem_cons] at hfind
  obtain ⟨hname', hop', hinput', hparams', houtput', hshape', -⟩ := hfind
  simp only [Record.required, hname', hop', hinput', houtput', hshape', string_string,
    Op.read_toJson hop, withDefault_list hparams' (list_strings n.params),
    Shape.read_toJson hshape, Outcome.ok_bind]
  rfl

theorem faithful_toJson (room : Nat) (n : Node Binary32) : Faithful (room + 3) n.toJson := by
  refine faithful_members ?_
  simp [Shape.toJson, faithful_string, faithful_nats, faithful_strings, Op.faithful_toJson]

end Node

namespace Topology

theorem read_toJson {t : Topology Binary32} (h : Representable t.counts t.singles) :
    read t.toJson = .ok t := by
  have hinput : ∀ d ∈ t.input.counts, d < Word.modulus :=
    fun d hd => h.words d (by simp [counts, hd])
  have houtput : ∀ d ∈ t.output.counts, d < Word.modulus :=
    fun d hd => h.words d (by simp [counts, hd])
  have hnodes : ∀ n ∈ t.nodes, Node.read n.toJson = .ok n := by
    intro n hn
    refine Node.read_toJson (h.mono (fun d hd => ?_) fun x hx => ?_)
    · exact List.mem_append_right _ (List.mem_flatMap.2 ⟨n, hn, hd⟩)
    · exact List.mem_flatMap.2 ⟨n, hn, hx⟩
  refine bind_record [some (.string t.name), some t.input.toJson, some t.output.toJson,
    some (.array (t.nodes.map Node.toJson))] rfl (by decide) rfl fun r hfind => ?_
  simp only [List.zip_cons_cons, List.forall_mem_cons] at hfind
  obtain ⟨hname', hinput', houtput', hnodes', -⟩ := hfind
  simp only [Record.required, hname', hinput', houtput', hnodes', string_string,
    ValueInfo.read_toJson hinput, ValueInfo.read_toJson houtput, list_map hnodes, Outcome.ok_bind]
  rfl

theorem faithful_toJson (room : Nat) (t : Topology Binary32) : Faithful (room + 5) t.toJson := by
  have hnodes : Faithful (room + 4) (.array (t.nodes.map Node.toJson)) := by
    rw [faithful_array, List.forall_mem_map]
    exact fun n _ => Node.faithful_toJson room n
  rw [toJson, faithful_object]
  simp [faithful_string, ValueInfo.faithful_toJson, hnodes]

end Topology

/-! ### Inputs -/

namespace InputSpec

/-- The kind of an input in documents. -/
def kind : InputSpec → String
  | image .. => "image"
  | tensor .. => "tensor"

/-- The members besides the kind. -/
def members : InputSpec → List (String × Json)
  | image name shape layout scale bias =>
    [("name", .string name), ("shape", shape.toJson), ("color_layout", .string layout.name),
      ("scale", .single scale), ("bias", .array (bias.map .single))]
  | tensor name shape dtype =>
    [("name", .string name), ("shape", shape.toJson), ("dtype", .string dtype.name)]

theorem toJson_eq (input : InputSpec) :
    input.toJson = .object (("kind", .string input.kind) :: input.members) := by
  cases input <;> rfl

variable {input : InputSpec}

theorem kept?_members (hwords : ∀ d ∈ input.shape.dims, d < Word.modulus)
    (hreads : ∀ x ∈ input.singles, x.isFinite → ReadsBack x) :
    ∀ m ∈ input.members, Json.kept? m.2 = some m.2 := by
  have hshape : Json.kept? input.shape.toJson = some input.shape.toJson := kept?_nats hwords
  cases input with
  | image name shape layout scale bias =>
    have hsingles : ∀ x ∈ scale :: bias, Json.kept? (.single x) = some (.single x) :=
      fun x hx => kept?_single (hreads x hx)
    rw [List.forall_mem_cons] at hsingles
    have hbias : Json.kept? (.array (bias.map .single)) = some (.array (bias.map .single)) :=
      kept?_array (List.forall_mem_map.2 hsingles.2)
    simp only [members, List.forall_mem_cons]
    exact ⟨kept?_string name, hshape, kept?_string layout.name, hsingles.1, hbias, by simp⟩
  | tensor name shape dtype =>
    simp only [members, List.forall_mem_cons]
    exact ⟨kept?_string name, hshape, kept?_string dtype.name, by simp⟩

theorem tagged_toJson (hwords : ∀ d ∈ input.shape.dims, d < Word.modulus)
    (hreads : ∀ x ∈ input.singles, x.isFinite → ReadsBack x) :
    Document.tagged "kind" input.toJson = .ok (input.kind, .named input.members) := by
  rw [toJson_eq]
  refine tagged_object (kept?_members hwords hreads) ?_
  cases input <;> simp [members]

theorem read_toJson (h : Representable input.shape.dims input.singles) :
    read input.toJson = .ok input := by
  have hshape : Shape.read input.shape.toJson = .ok input.shape := Shape.read_toJson h.words
  rw [read, tagged_toJson h.words fun x hx _ => h.readsBack x hx, Outcome.ok_bind]
  cases input with
  | image name shape layout scale bias =>
    have hsingles : ∀ x ∈ scale :: bias, Document.single (Json.single x) = .ok x :=
      fun x hx => single_single (h.finite x hx) (h.readsBack x hx)
    rw [List.forall_mem_cons] at hsingles
    have hlayout : ColorLayout.read (Json.string layout.name) = .ok layout :=
      ColorLayout.read_name rfl
    refine bind_named [some (.string name), some shape.toJson, some (.string layout.name),
      some (.single scale), some (.array (bias.map .single))] rfl (by decide) rfl
      fun r hfind => ?_
    simp only [List.zip_cons_cons, List.forall_mem_cons] at hfind
    obtain ⟨hname', hshape', hlayout', hscale', hbias', -⟩ := hfind
    simp only [Record.required, hname', hshape', hlayout', hscale', hbias', string_string,
      hlayout, hsingles.1, list_map hsingles.2, Outcome.ok_bind]
    rw [show Shape.read shape.toJson = .ok shape from hshape]
    rfl
  | tensor name shape dtype =>
    have hdtype : DType.read (Json.string dtype.name) = .ok dtype := DType.read_name rfl
    refine bind_named [some (.string name), some shape.toJson, some (.string dtype.name)] rfl
      (by decide) rfl fun r hfind => ?_
    simp only [List.zip_cons_cons, List.forall_mem_cons] at hfind
    obtain ⟨hname', hshape', hdtype', -⟩ := hfind
    simp only [Record.required, hname', hshape', hdtype', string_string, hdtype,
      Outcome.ok_bind]
    rw [show Shape.read shape.toJson = .ok shape from hshape]
    rfl

theorem faithful_toJson (room : Nat) (input : InputSpec) : Faithful (room + 2) input.toJson := by
  rw [toJson_eq, faithful_object, List.forall_mem_cons]
  refine ⟨faithful_string _ _, ?_⟩
  cases input with
  | image name shape layout scale bias =>
    have hbias : Faithful (room + 1) (.array (bias.map .single)) := by
      rw [faithful_array, List.forall_mem_map]
      exact fun x _ => faithful_single room x
    simp [members, Shape.toJson, faithful_nats, faithful_single, faithful_string, hbias]
  | tensor name shape dtype => simp [members, Shape.toJson, faithful_nats, faithful_string]

end InputSpec

/-! ### Options, labels and metadata -/

theorem CompileOptions.read_toJson (o : CompileOptions) : read o.toJson = .ok o := by
  have htarget : Target.read (Json.string o.target.name) = .ok o.target := Target.read_name rfl
  have hunits : ComputeUnits.read (Json.string o.units.name) = .ok o.units :=
    ComputeUnits.read_name rfl
  have hformat : ModelFormat.read (Json.string o.format.name) = .ok o.format :=
    ModelFormat.read_name rfl
  have hprecision : ComputePrecision.read (Json.string o.precision.name) = .ok o.precision :=
    ComputePrecision.read_name rfl
  refine bind_record [some (.string o.target.name), some (.string o.units.name),
    some (.string o.format.name), some (.string o.precision.name)] rfl (by decide) rfl
    fun r hfind => ?_
  simp only [List.zip_cons_cons, List.forall_mem_cons] at hfind
  obtain ⟨htarget', hunits', hformat', hprecision', -⟩ := hfind
  simp only [Record.required, htarget', hunits', hformat', hprecision', htarget, hunits,
    hformat, hprecision, Outcome.ok_bind]
  rfl

theorem CompileOptions.faithful_toJson (room : Nat) (o : CompileOptions) :
    Faithful (room + 1) o.toJson := by
  rw [toJson, faithful_object]
  simp [faithful_string]

theorem Labels.read_toJson (labels : Labels) :
    Labels.read labels.toJson = .ok labels := list_strings labels

theorem Metadata.read_toJson (m : Metadata) : Metadata.read m.toJson = .ok m := by
  have hm : m.toJson = members (["author", "license", "description", "version"].zip
      [some (.string m.author), m.license.map .string, some (.string m.description),
        some (.string m.version)]) := by
    unfold toJson
    cases m.license <;> rfl
  refine bind_record _ hm (by decide) rfl fun r hfind => ?_
  simp only [List.zip_cons_cons, List.forall_mem_cons] at hfind
  obtain ⟨hauthor, hlicense, hdescription, hversion, -⟩ := hfind
  have hread : r.optional "license" Document.string = .ok m.license :=
    Record.optional_of_lookup hlicense fun s _ => ⟨string_string s, rfl⟩
  simp only [Record.required, hauthor, hdescription, hversion, hread, string_string,
    Outcome.ok_bind]
  rfl

theorem Metadata.faithful_toJson (room : Nat) (m : Metadata) :
    Faithful (room + 1) m.toJson := by
  rw [toJson, faithful_object]
  cases m.license <;> simp [faithful_string]

/-! ### Headers -/

theorem Bundle.readVersion_version : Bundle.readVersion (Json.nat version) = .ok version := by
  rw [readVersion, nat_nat (by decide)]
  rfl

namespace Bundle

/-- **The header of a bundle is read back as its topology.** -/
theorem readHeader_headerToJson {t : Topology Binary32} (h : Representable t.counts t.singles) :
    readHeader (headerToJson t) = .ok (version, t) := by
  refine bind_record [some (.nat version), some t.toJson] rfl (by decide) rfl fun r hfind => ?_
  simp only [List.zip_cons_cons, List.forall_mem_cons] at hfind
  obtain ⟨hversion, hgraph, -⟩ := hfind
  simp only [Record.required, hversion, hgraph, readVersion_version, Topology.read_toJson h,
    Outcome.ok_bind]
  rfl

theorem faithful_headerToJson (room : Nat) (t : Topology Binary32) :
    Faithful (room + 6) (headerToJson t) := by
  rw [headerToJson, faithful_object]
  simp [faithful_nat, Topology.faithful_toJson]

end Bundle

namespace Artifact

/-- **The header of an artifact is read back as the artifact** without its parameters. -/
theorem readHeader_headerToJson {a : Artifact} (h : Representable a.counts a.singles) :
    readHeader a.graph.params a.headerToJson = .ok (version, a) := by
  have htopology : Representable a.graph.toTopology.counts a.graph.toTopology.singles :=
    h.mono (by simp [counts]) (by simp [singles])
  have hinput : Representable a.input.shape.dims a.input.singles :=
    h.mono (by simp [counts]) (by simp [singles])
  refine bind_record [some (.nat version), some (.string a.name),
    some a.graph.toTopology.toJson, some a.input.toJson, a.labels.map Labels.toJson,
    some a.options.toJson, some (.strings a.passes), a.metadata.map Metadata.toJson] rfl (by decide)
    rfl fun r hfind => ?_
  simp only [List.zip_cons_cons, List.forall_mem_cons] at hfind
  obtain ⟨hversion, hname, hgraph, hinput', hlabels, hoptions, hpasses, hmetadata, -⟩ := hfind
  have hreadLabels : r.optional "labels" Labels.read = .ok a.labels :=
    Record.optional_of_lookup hlabels fun l _ => ⟨Labels.read_toJson l, rfl⟩
  have hreadMetadata : r.optional "metadata" Metadata.read = .ok a.metadata :=
    Record.optional_of_lookup hmetadata fun m _ => ⟨Metadata.read_toJson m, rfl⟩
  have hreadPasses : r.withDefault "passes" (Document.list Document.string) [] = .ok a.passes := by
    rw [Record.withDefault, hpasses]
    exact list_strings a.passes
  simp only [Record.required, hversion, hname, hgraph, hinput', hoptions, hreadLabels,
    hreadMetadata, hreadPasses, Topology.read_toJson htopology, InputSpec.read_toJson hinput,
    CompileOptions.read_toJson, string_string, Outcome.ok_bind]
  rfl

theorem faithful_headerToJson (room : Nat) (a : Artifact) :
    Faithful (room + 6) a.headerToJson := by
  refine faithful_members ?_
  have hlabels : ∀ labels : Labels, Faithful (room + 5) labels.toJson :=
    fun labels => faithful_strings (room + 4) labels
  simp [faithful_nat, faithful_string, faithful_strings, Topology.faithful_toJson, hlabels,
    InputSpec.faithful_toJson, CompileOptions.faithful_toJson, Metadata.faithful_toJson]

end Artifact

end NetPack
