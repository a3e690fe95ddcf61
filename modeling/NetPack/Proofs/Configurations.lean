import NetPack.Config.Write
import NetPack.Proofs.Json.Headers
import NetPack.Proofs.Toml.Integers

/-!
# Configurations that are read back from their text

The tables of a configuration hold strings, arrays of strings and of numbers, and are read back
field by field: what was left out is open again, and statistics are widened and narrowed without a
change. A configuration that was read from a text has shapes that can be written, as no integer of
the text has more than 64 bits, and its deviations are numbers, as it was checked
(`BatchConfig.isWritable_of_parse`). So it is written, and its text is read as the same
configuration (`BatchConfig.parse_render`). Means that are NaN are left out: a NaN is equal to
nothing, so such a configuration is not even equal to itself.
-/

namespace NetPack

open Json (present mem_present nodup_present bind_contents list_of_elements)
open Document (Record)

/-! ### Parts of tables -/

namespace Toml

variable {names : List String} {values : List (Option Toml)} {v : Toml}

/-- A value that stands behind its key and is read back. -/
structure IsPlain (v : Toml) : Prop where
  header : hasHeader v = false
  readsBack : ReadsBack maxDepth v

theorem isPlain_string (s : String) : IsPlain (string s) :=
  ⟨rfl, readsBack_string maxDepth s⟩

/-- Arrays of strings and of numbers have no headers. -/
theorem isPlain_array {vs : List Toml} (hvs : ∀ v ∈ vs, isTable v = false ∧ ReadsBack 78 v) :
    IsPlain (array vs) := by
  refine ⟨?_, readsBack_array fun v hv => (hvs v hv).2⟩
  cases vs with
  | nil => rfl
  | cons v vs => simp [hasHeader, isTables, (hvs v List.mem_cons_self).1]

theorem isPlain_strings (ss : List String) : IsPlain (strings ss) :=
  isPlain_array (List.forall_mem_map.2 fun s _ => ⟨rfl, readsBack_string 78 s⟩)

theorem isPlain_singles {xs : List Binary32} (hxs : ∀ x ∈ xs, x.isNaN = false) :
    IsPlain (singles xs) :=
  isPlain_array (List.forall_mem_map.2 fun x hx =>
    ⟨rfl, readsBack_float (Binary32.isNaN_toFloat (hxs x hx)) 78⟩)

/-- An array of numbers. -/
def ofNats (ns : List Nat) : Toml := array (ns.map fun n => integer (Int.ofNat n))

theorem naturals_eq {ns : List Nat} (hns : ∀ n ∈ ns, n ≤ maxInteger) :
    naturals ns = .ok (ofNats ns) := by
  have hnone : ns.find? (maxInteger < ·) = none :=
    List.find?_eq_none.2 fun n hn => by simpa using hns n hn
  rw [naturals, hnone]
  rfl

theorem isPlain_ofNats {ns : List Nat} (hns : ∀ n ∈ ns, n ≤ maxInteger) : IsPlain (ofNats ns) :=
  isPlain_array (List.forall_mem_map.2 fun n hn => ⟨rfl, readsBack_integer (hns n hn) 78⟩)

/-- Fields with plain values make a table of lines. -/
theorem isFlat_present (hnodup : names.Nodup) (hbare : ∀ n ∈ names, IsBareKey n)
    (hlength : names.length = values.length) (hvalues : ∀ v, some v ∈ values → IsPlain v) :
    IsFlat (present (names.zip values)) := by
  have hnames : (names.zip values).map (·.1) = names := List.map_fst_zip hlength.le
  have hmem : ∀ m ∈ present (names.zip values), m.1 ∈ names ∧ some m.2 ∈ values :=
    fun m hm => List.of_mem_zip (mem_present.1 hm)
  refine ⟨nodup_present (hnames.symm ▸ hnodup), fun m hm => ?_, fun m hm => ?_, fun m hm => ?_⟩
  · exact hbare m.1 (hmem m hm).1
  · exact (hvalues m.2 (hmem m hm).2).header
  · exact (hvalues m.2 (hmem m hm).2).readsBack

/-! ### Parts that are read back -/

theorem string_string (s : String) : Document.string (string s) = .ok s := rfl

theorem list_strings (ss : List String) : Document.list Document.string (strings ss) = .ok ss :=
  list_of_elements string rfl fun s _ => string_string s

theorem nat_integer (n : Nat) : Document.nat (integer (Int.ofNat n)) = .ok n := rfl

theorem list_ofNats (ns : List Nat) : Document.list Document.nat (ofNats ns) = .ok ns :=
  list_of_elements (fun n => integer (Int.ofNat n)) rfl fun n _ => nat_integer n

theorem single_float {x : Binary32} (hx : x.isNaN = false) :
    Document.single (float x.toFloat) = .ok x := by
  have hread : single? (float x.toFloat) = some x := congrArg some (Binary32.ofFloat_toFloat hx)
  rw [Document.single]
  exact congrArg (Document.expect _) hread

theorem colours_singles {c : Colours Binary32} (hc : ∀ x ∈ c.toList, x.isNaN = false) :
    Colours.read (singles c.toList) = .ok c := by
  have hread : (c.toList.map fun x => float x.toFloat).mapM Document.single = .ok c.toList := by
    rw [Outcome.mapM_eq_ok, List.forall₂_map_left_iff, List.forall₂_same]
    exact fun x hx => single_float (hc x hx)
  have hexactly : Document.exactly 3 (singles c.toList) =
      .ok (c.toList.map fun x => float x.toFloat) := rfl
  rw [Colours.read, Document.triple, hexactly, Outcome.ok_bind, hread]
  rfl

theorem optional_string {r : Record Toml} {field : String} {o : Option String}
    (h : r.fields.lookup field = o.map string) : r.optional field Document.string = .ok o :=
  Record.optional_of_lookup h fun s _ => ⟨string_string s, rfl⟩

end Toml

open Toml (IsPlain IsFlat isPlain_string isFlat_present)

/-! ### Names -/

section Names

variable {δ : Type} [Document δ] {d : δ}

theorem Preset.read_name {p : Preset} (hd : Document.string? d = some p.name) :
    Preset.read d = .ok p :=
  Document.name_of_string hd (by cases p <;> rfl)

theorem Route.read_name {r : Route} (hd : Document.string? d = some r.name) :
    Route.read d = .ok r :=
  Document.name_of_string hd (by cases r <;> rfl)

theorem InputKind.read_name {k : InputKind} (hd : Document.string? d = some k.name) :
    InputKind.read d = .ok k :=
  Document.name_of_string hd (by cases k <;> rfl)

end Names

/-! ### Defaults, metadata and normalisations -/

namespace Defaults

/-- The fields of defaults. -/
def fields : List String :=
  ["preset", "target", "compute_units", "format", "precision", "output_dir"]

theorem bare_fields : ∀ n ∈ fields, Toml.IsBareKey n := by decide

/-- The values of the fields. -/
def values (d : Defaults) : List (Option Toml) :=
  [some (.string d.preset.name), d.target.map fun t => .string t.name,
    d.units.map fun u => .string u.name, d.format.map fun f => .string f.name,
    d.precision.map fun p => .string p.name, d.outputDirectory.map .string]

theorem isFlat (d : Defaults) : IsFlat (present (fields.zip d.values)) := by
  refine isFlat_present (by decide) bare_fields rfl fun v hv => ?_
  simp only [values, List.mem_cons, List.not_mem_nil, or_false, eq_comm (a := some v),
    Option.map_eq_some_iff, Option.some.injEq] at hv
  rcases hv with rfl | ⟨_, -, rfl⟩ | ⟨_, -, rfl⟩ | ⟨_, -, rfl⟩ | ⟨_, -, rfl⟩ | ⟨_, -, rfl⟩ <;>
    exact isPlain_string _

theorem read_toToml (d : Defaults) : read d.toToml = .ok d := by
  refine bind_contents fields d.values rfl (.refl _) (by decide) rfl fun r hfind => ?_
  simp only [fields, values, List.zip_cons_cons, List.forall_mem_cons] at hfind
  obtain ⟨hpreset, htarget, hunits, hformat, hprecision, houtput, -⟩ := hfind
  have hpreset : r.withDefault "preset" Preset.read .classifier = .ok d.preset :=
    Record.withDefault_of_lookup hpreset (by rintro _ ⟨⟩; exact Preset.read_name rfl) (by simp)
  have htarget : r.optional "target" Target.read = .ok d.target :=
    Record.optional_of_lookup htarget fun t _ => ⟨Target.read_name rfl, rfl⟩
  have hunits : r.optional "compute_units" ComputeUnits.read = .ok d.units :=
    Record.optional_of_lookup hunits fun u _ => ⟨ComputeUnits.read_name rfl, rfl⟩
  have hformat : r.optional "format" ModelFormat.read = .ok d.format :=
    Record.optional_of_lookup hformat fun f _ => ⟨ModelFormat.read_name rfl, rfl⟩
  have hprecision : r.optional "precision" ComputePrecision.read = .ok d.precision :=
    Record.optional_of_lookup hprecision fun p _ => ⟨ComputePrecision.read_name rfl, rfl⟩
  simp only [hpreset, htarget, hunits, hformat, hprecision, Toml.optional_string houtput,
    Outcome.ok_bind]
  rfl

end Defaults

namespace Metadata

/-- The fields of metadata. -/
def fields : List String := ["author", "license", "description", "version"]

theorem bare_fields : ∀ n ∈ fields, Toml.IsBareKey n := by decide

/-- The values of the fields. -/
def values (m : Metadata) : List (Option Toml) :=
  [some (.string m.author), m.license.map .string, some (.string m.description),
    some (.string m.version)]

theorem isFlat (m : Metadata) : IsFlat (present (fields.zip m.values)) := by
  refine isFlat_present (by decide) bare_fields rfl fun v hv => ?_
  simp only [values, List.mem_cons, List.not_mem_nil, or_false, eq_comm (a := some v),
    Option.map_eq_some_iff, Option.some.injEq] at hv
  rcases hv with rfl | ⟨_, -, rfl⟩ | rfl | rfl <;> exact isPlain_string _

theorem read_toToml (m : Metadata) : read m.toToml = .ok m := by
  refine bind_contents fields m.values rfl (.refl _) (by decide) rfl fun r hfind => ?_
  simp only [fields, values, List.zip_cons_cons, List.forall_mem_cons] at hfind
  obtain ⟨hauthor, hlicense, hdescription, hversion, -⟩ := hfind
  simp only [Record.required, hauthor, hdescription, hversion, Toml.string_string,
    Toml.optional_string hlicense, Outcome.ok_bind]
  rfl

end Metadata

namespace Normalization

/-- No statistic is NaN. -/
def HasNumbers (n : Normalization) : Prop :=
  (∀ x ∈ n.mean.toList, x.isNaN = false) ∧ ∀ x ∈ n.std.toList, x.isNaN = false

variable {n : Normalization}

/-- Valid deviations are finite. -/
theorem hasNumbers_of_valid (hvalid : n.valid = true)
    (hmean : ∀ x ∈ n.mean.toList, x.isNaN = false) : n.HasNumbers := by
  refine ⟨hmean, fun x hx => ?_⟩
  have hstd := List.all_eq_true.1 hvalid x hx
  exact Binary32.isNaN_of_isFinite (Bool.and_eq_true_iff.1 hstd).1

/-- The fields of a normalisation. -/
def fields : List String := ["mean", "std"]

theorem bare_fields : ∀ n ∈ fields, Toml.IsBareKey n := by decide

/-- The values of the fields. -/
def values (n : Normalization) : List (Option Toml) :=
  [some (.singles n.mean.toList), some (.singles n.std.toList)]

theorem isFlat (h : n.HasNumbers) : IsFlat (present (fields.zip n.values)) := by
  refine isFlat_present (by decide) bare_fields rfl fun v hv => ?_
  simp only [values, List.mem_cons, List.not_mem_nil, or_false, Option.some.injEq] at hv
  rcases hv with rfl | rfl
  · exact Toml.isPlain_singles h.1
  · exact Toml.isPlain_singles h.2

theorem read_toToml (h : n.HasNumbers) : read n.toToml = .ok n := by
  refine bind_contents fields n.values rfl (.refl _) (by decide) rfl fun r hfind => ?_
  simp only [fields, values, List.zip_cons_cons, List.forall_mem_cons] at hfind
  obtain ⟨hmean, hstd, -⟩ := hfind
  simp only [Record.required, hmean, hstd, Toml.colours_singles h.1, Toml.colours_singles h.2,
    Outcome.ok_bind]
  rfl

end Normalization

/-! ### Jobs -/

namespace Job

/-- The shape of the input can be written. -/
def HasWritableShape (job : Job) : Prop :=
  ∀ ns ∈ job.inputShape, ∀ n ∈ ns, n ≤ Toml.maxInteger

/-- The fields of a job. -/
def fields : List String :=
  ["name", "route", "source", "input_shape", "preset", "input", "color_layout", "labels",
    "labels_file", "output", "exchange_path"]

theorem bare_fields : ∀ n ∈ fields, Toml.IsBareKey n := by decide

/-- The values of the fields. -/
def values (job : Job) : List (Option Toml) :=
  [some (.string job.name), some (.string job.route.name), some (.string job.source),
    job.inputShape.map Toml.ofNats, job.preset.map fun p => .string p.name,
    some (.string job.input.name), some (.string job.layout.name), job.labels.map .strings,
    job.labelsFile.map .string, job.output.map .string, job.exchange.map .string]

/-- The members of the table of a job. -/
def members (job : Job) : List (String × Toml) := present (fields.zip job.values)

variable {job : Job}

theorem toToml_eq (h : job.HasWritableShape) : job.toToml = .ok (.table job.members) := by
  have hshape : job.inputShape.mapM Toml.naturals = .ok (job.inputShape.map Toml.ofNats) := by
    unfold HasWritableShape at h
    generalize job.inputShape = shape at h
    cases shape with
    | none => rfl
    | some ns =>
      change some <$> Toml.naturals ns = _
      rw [Toml.naturals_eq (h ns rfl)]
      rfl
  rw [toToml, hshape]
  rfl

theorem isFlat (h : job.HasWritableShape) : IsFlat job.members := by
  refine isFlat_present (by decide) bare_fields rfl fun v hv => ?_
  simp only [values, List.mem_cons, List.not_mem_nil, or_false, eq_comm (a := some v),
    Option.map_eq_some_iff, Option.some.injEq] at hv
  rcases hv with rfl | rfl | rfl | ⟨ns, hns, rfl⟩ | ⟨_, -, rfl⟩ | rfl | rfl | ⟨ls, -, rfl⟩ |
    ⟨_, -, rfl⟩ | ⟨_, -, rfl⟩ | ⟨_, -, rfl⟩
  case inr.inr.inr.inl => exact Toml.isPlain_ofNats (h ns hns)
  case inr.inr.inr.inr.inr.inr.inr.inl => exact Toml.isPlain_strings ls
  all_goals exact isPlain_string _

theorem read_table (job : Job) : read (Toml.table job.members) = .ok job := by
  refine bind_contents fields job.values rfl (.refl _) (by decide) rfl fun r hfind => ?_
  simp only [fields, values, List.zip_cons_cons, List.forall_mem_cons] at hfind
  obtain ⟨hname, hroute, hsource, hshape, hpreset, hinput, hlayout, hlabels, hfile, houtput,
    hexchange, -⟩ := hfind
  have hroute : r.withDefault "route" Route.read .direct = .ok job.route :=
    Record.withDefault_of_lookup hroute (by rintro _ ⟨⟩; exact Route.read_name rfl) (by simp)
  have hinput : r.withDefault "input" InputKind.read .image = .ok job.input :=
    Record.withDefault_of_lookup hinput (by rintro _ ⟨⟩; exact InputKind.read_name rfl) (by simp)
  have hlayout : r.withDefault "color_layout" ColorLayout.read .rgb = .ok job.layout :=
    Record.withDefault_of_lookup hlayout (by rintro _ ⟨⟩; exact ColorLayout.read_name rfl) (by simp)
  have hshape : r.optional "input_shape" (Document.list Document.nat) = .ok job.inputShape :=
    Record.optional_of_lookup hshape fun ns _ => ⟨Toml.list_ofNats ns, rfl⟩
  have hpreset : r.optional "preset" Preset.read = .ok job.preset :=
    Record.optional_of_lookup hpreset fun p _ => ⟨Preset.read_name rfl, rfl⟩
  have hlabels : r.optional "labels" Labels.read = .ok job.labels :=
    Record.optional_of_lookup hlabels fun ls _ => ⟨Toml.list_strings ls, rfl⟩
  simp only [Record.required, hname, hsource, hroute, hshape, hpreset, hinput, hlayout, hlabels,
    Toml.string_string, Toml.optional_string hfile, Toml.optional_string houtput,
    Toml.optional_string hexchange, Outcome.ok_bind]
  rfl

end Job

/-! ### What is read of documents in range -/

namespace Toml

variable {α : Type} {P : α → Prop} {value : Decoder Toml α} {d : Toml} {r : Record Toml}
  {names : List String} {field : String}

/-- What a decoder reads of values in range has a property. -/
def Yields (value : Decoder Toml α) (P : α → Prop) : Prop :=
  ∀ d a, InRange d → value d = .ok a → P a

theorem inRange_of_record (hd : InRange d) (h : Document.record names d = .ok r) :
    ∀ f ∈ r.fields, InRange f.2 := by
  obtain ⟨contents, hcontents, h⟩ := Outcome.bind_eq_ok.1 h
  have hnamed {ms : List (String × Toml)} (hms : ∀ m ∈ ms, InRange m.2)
      (h : (Document.Contents.named ms).record names = .ok r) : ∀ f ∈ r.fields, InRange f.2 := by
    dsimp only [Document.Contents.record] at h
    split at h
    · cases h
    · cases h
      exact fun f hf => hms f (List.mem_of_mem_filter hf)
  cases hd with
  | table hms =>
    cases hcontents
    exact hnamed hms h
  | moment written =>
    cases hcontents
    exact hnamed (List.forall_mem_singleton.2 (.string written)) h
  | array hvs =>
    cases hcontents
    rw [Document.Contents.record, if_neg (by simp [Document.allowsSurplus])] at h
    cases h
    exact fun f hf => hvs f.2 (List.of_mem_zip hf).2
  | string | integer | float | boolean => cases hcontents

theorem Yields.withDefault (hvalue : Yields value P) (hr : ∀ f ∈ r.fields, InRange f.2)
    {absent a : α} (habsent : P absent) (h : r.withDefault field value absent = .ok a) : P a := by
  unfold Record.withDefault at h
  split at h
  · rename_i d hd
    exact hvalue d a (hr (field, d) (Table.mem_of_lookup hd)) h
  · cases h
    exact habsent

theorem Yields.optional (hvalue : Yields value P) (hr : ∀ f ∈ r.fields, InRange f.2)
    {o : Option α} (h : r.optional field value = .ok o) : ∀ a ∈ o, P a := by
  have hoption : Yields (Document.option value) fun o => ∀ a ∈ o, P a := by
    intro d o hd h a ha
    obtain ⟨b, hb, rfl⟩ := Outcome.map_eq_ok.1 h
    cases ha
    exact hvalue d a hd hb
  exact hoption.withDefault hr (by simp) h

theorem Yields.list (hvalue : Yields value P) :
    Yields (Document.list value) fun as => ∀ a ∈ as, P a := by
  intro d as hd h
  obtain ⟨es, hes, h⟩ := Outcome.bind_eq_ok.1 h
  cases hd with
  | array hvs =>
    cases hes
    exact Outcome.forall_of_mapM h fun e he a ha => hvalue e a (hvs e he) ha
  | string | integer | float | boolean | moment | table => cases hes

theorem yields_nat : Yields Document.nat (· ≤ maxInteger) := by
  intro d n hd h
  cases hd with
  | @integer i hmin hmax =>
    have hread : Document.expect "an unsigned integer" (if 0 ≤ i then some i.toNat else none) =
        .ok n := h
    split at hread
    · cases hread
      exact Int.toNat_le.2 hmax
    · cases hread
  | string | array | float | boolean | moment | table => cases h

end Toml

theorem Job.yields_read : Toml.Yields Job.read Job.HasWritableShape := by
  intro d job hd h
  unfold read at h
  simp only [Outcome.bind_eq_ok, Outcome.pure_eq_ok_iff] at h
  obtain ⟨r, hr, name, -, route, -, source, -, shape, hshape, preset, -, input, -, layout, -,
    labels, -, labelsFile, -, output, -, exchange, -, rfl⟩ := h
  exact Toml.yields_nat.list.optional (Toml.inRange_of_record hd hr) hshape

/-! ### Configurations -/

namespace BatchConfig

variable {c : BatchConfig}

/-- All that a configuration says can be written. -/
structure IsWritable (c : BatchConfig) : Prop where
  numbers : c.normalization.HasNumbers
  shapes : ∀ job ∈ c.jobs, job.HasWritableShape

/-- The fields of a configuration. -/
def fields : List String := ["defaults", "metadata", "normalization", "model"]

theorem bare_fields : ∀ n ∈ fields, Toml.IsBareKey n := by decide

/-- The values of the fields. -/
def values (c : BatchConfig) : List (Option Toml) :=
  [some c.defaults.toToml, c.metadata.map Metadata.toToml, some c.normalization.toToml,
    some (.array (c.jobs.map fun job => .table job.members))]

/-- The members of the document of a configuration. -/
def members (c : BatchConfig) : List (String × Toml) := present (fields.zip c.values)

theorem tomlMembers_eq (h : c.IsWritable) : c.tomlMembers = .ok c.members := by
  have hjobs : c.jobs.mapM Job.toToml = .ok (c.jobs.map fun job => .table job.members) :=
    Outcome.mapM_of_forall fun job hjob => Job.toToml_eq (h.shapes job hjob)
  rw [tomlMembers, hjobs]
  rfl

theorem isShallow (h : c.IsWritable) : Toml.IsShallow c.members := by
  have hnames : (fields.zip c.values).map (·.1) = fields := List.map_fst_zip rfl.le
  have hmem : ∀ m ∈ c.members, m.1 ∈ fields ∧ some m.2 ∈ c.values :=
    fun m hm => List.of_mem_zip (mem_present.1 hm)
  refine ⟨nodup_present (hnames.symm ▸ by decide), fun m hm => ?_, fun m hm => ?_⟩
  · exact bare_fields m.1 (hmem m hm).1
  · obtain ⟨-, hv⟩ := hmem m hm
    generalize m.2 = v at hv
    simp only [values, List.mem_cons, List.not_mem_nil, or_false, eq_comm (a := some v),
      Option.map_eq_some_iff, Option.some.injEq] at hv
    rcases hv with rfl | ⟨metadata, -, rfl⟩ | rfl | rfl
    · exact .table c.defaults.isFlat
    · exact .table metadata.isFlat
    · exact .table (Normalization.isFlat h.numbers)
    · by_cases hjobs : c.jobs = []
      · -- Without jobs there are no tables, and the array is written on one line.
        rw [hjobs]
        exact .plain rfl (Toml.readsBack_array (by simp))
      · have htables : c.jobs.map (fun job => Toml.table job.members) =
            (c.jobs.map Job.members).map .table := by simp
        rw [htables]
        refine .tables (by simpa using hjobs) (List.forall_mem_map.2 fun job hjob => ?_)
        exact Job.isFlat (h.shapes job hjob)

/-- A configuration is read back from its members, in whatever order they are given. -/
theorem read_table (h : c.normalization.HasNumbers) {ms : List (String × Toml)}
    (hms : ms.Perm c.members) : read (Toml.table ms) = .ok c := by
  refine bind_contents fields c.values rfl hms (by decide) rfl fun r hfind => ?_
  simp only [fields, values, List.zip_cons_cons, List.forall_mem_cons] at hfind
  obtain ⟨hdefaults, hmetadata, hnormalization, hmodel, -⟩ := hfind
  have hdefaults : r.withDefault "defaults" Defaults.read .standard = .ok c.defaults :=
    Record.withDefault_of_lookup hdefaults (by rintro _ ⟨⟩; exact c.defaults.read_toToml) (by simp)
  have hmetadata : r.optional "metadata" Metadata.read = .ok c.metadata :=
    Record.optional_of_lookup hmetadata fun m _ => ⟨m.read_toToml, rfl⟩
  have hnormalization : r.withDefault "normalization" Normalization.read .standard =
      .ok c.normalization :=
    Record.withDefault_of_lookup hnormalization
      (by rintro _ ⟨⟩; exact Normalization.read_toToml h) (by simp)
  have hjobs : Document.list Job.read (Toml.array (c.jobs.map fun job => .table job.members)) =
      .ok c.jobs := list_of_elements (fun job => .table job.members) rfl fun job _ => job.read_table
  have hmodel : r.withDefault "model" (Document.list Job.read) [] = .ok c.jobs :=
    Record.withDefault_of_lookup hmodel (by rintro _ ⟨⟩; exact hjobs) (by simp)
  simp only [hdefaults, hmetadata, hnormalization, hmodel, Outcome.ok_bind]
  rfl

theorem parse_eq_ok {text : String} : parse text = .ok c ↔
    ∃ d, Toml.parse? text = some d ∧ read d = .ok c ∧ c.check = .ok () := by
  unfold parse
  cases Toml.parse? text with
  | none => simp
  | some d =>
    simp only [Option.some.injEq, exists_eq_left']
    unfold ofDocument
    cases hread : read d with
    | error cause => simp
    | ok c' =>
      simp only [Outcome.bind_eq_ok, Outcome.pure_eq_ok_iff, Except.ok.injEq]
      constructor
      · rintro ⟨⟨⟩, hcheck, rfl⟩
        exact ⟨rfl, hcheck⟩
      · rintro ⟨rfl, hcheck⟩
        exact ⟨(), hcheck, rfl⟩

theorem valid_of_check (h : c.check = .ok ()) : c.normalization.valid = true := by
  unfold check at h
  by_contra hinvalid
  rw [if_pos (by simpa using hinvalid)] at h
  cases h

/-- All integers of a text can be written, and checked deviations are finite. -/
theorem isWritable_of_parse {text : String} (h : parse text = .ok c)
    (hmean : ∀ x ∈ c.normalization.mean.toList, x.isNaN = false) : c.IsWritable := by
  obtain ⟨d, hd, hread, hcheck⟩ := parse_eq_ok.1 h
  refine ⟨Normalization.hasNumbers_of_valid (valid_of_check hcheck) hmean, ?_⟩
  unfold read at hread
  simp only [Outcome.bind_eq_ok, Outcome.pure_eq_ok_iff] at hread
  obtain ⟨r, hr, defaults, -, metadata, -, normalization, -, jobs, hjobs, rfl⟩ := hread
  exact Job.yields_read.list.withDefault (Toml.inRange_of_record (Toml.inRange_of_parse? hd) hr)
    (by simp) hjobs

/-- **A configuration survives its own text.** What was read and has no NaN among its means is
written, and what is written is read as the same configuration. -/
theorem parse_render {text : String} (h : parse text = .ok c)
    (hmean : ∀ x ∈ c.normalization.mean.toList, x.isNaN = false) :
    ∃ text', c.render = .ok text' ∧ parse text' = .ok c := by
  have hwritable := isWritable_of_parse h hmean
  obtain ⟨-, -, -, hcheck⟩ := parse_eq_ok.1 h
  refine ⟨Toml.render c.members, ?_, parse_eq_ok.2 ⟨_, Toml.parse?_render (isShallow hwritable),
    read_table hwritable.numbers ?_, hcheck⟩⟩
  · rw [render, tomlMembers_eq hwritable]
    rfl
  · simpa using List.filter_append_perm (fun m : String × Toml => !Toml.hasHeader m.2) c.members

/-- A text with one job, whose list of labels is empty. -/
def labelledText : String :=
  "[[model]]\nname = \"a\"\nsource = \"b\"\ninput_shape = [1, 3]\nlabels = []\n"

/-- The configuration of the text. -/
def labelled : BatchConfig :=
  { empty with
    jobs := [{ Job.ofSource "a" "b" with inputShape := some [1, 3], labels := some [] }] }

theorem parse_labelledText : parse labelledText = .ok labelled := by
  have hchars : labelledText.toList =
      ['[', '[', 'm', 'o', 'd', 'e', 'l', ']', ']', '\n',
        'n', 'a', 'm', 'e', ' ', '=', ' ', '"', 'a', '"', '\n',
        's', 'o', 'u', 'r', 'c', 'e', ' ', '=', ' ', '"', 'b', '"', '\n',
        'i', 'n', 'p', 'u', 't', '_', 's', 'h', 'a', 'p', 'e', ' ', '=', ' ',
        '[', '1', ',', ' ', '3', ']', '\n',
        'l', 'a', 'b', 'e', 'l', 's', ' ', '=', ' ', '[', ']', '\n'] := by
    simp [labelledText]
  rw [parse, Toml.parse?, hchars]
  rfl

theorem parse_render_labelled :
    parse labelledText = .ok labelled ∧
      (∀ x ∈ labelled.normalization.mean.toList, x.isNaN = false) ∧
        ∃ text', labelled.render = .ok text' ∧ parse text' = .ok labelled := by
  have hmean : ∀ x ∈ labelled.normalization.mean.toList, x.isNaN = false := by decide
  exact ⟨parse_labelledText, hmean, parse_render parse_labelledText hmean⟩

end BatchConfig

end NetPack
