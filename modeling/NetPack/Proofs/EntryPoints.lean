import NetPack.Convert.Request
import NetPack.Proofs.Exchange.Accepted
import NetPack.Proofs.Failures

/-!
# Requests and jobs agree

A model is converted by a request if it is at hand, and by a job of a batch if it has to be loaded
from a checkpoint. Both go through the same stages, but a request describes its input before the
export, under the name that exported graphs give to theirs, and a job describes it afterwards, under
the name that it finds in the graph. On one of the routes that graph was read back from an exchange
file. It still has the name (`Exported.input_name_of_ofModel`), because nothing else than what was
written can be read from the file.

So a request and a job that say the same (`Request.Matches`) end well together, with the same files
(`Request.convert_iff_runJob`). Every request is matched by a job (`Request.matches_toJob`).
-/

namespace NetPack

open Converting FileStore FileSystem

/-! ### The name of the input -/

namespace Exchange

variable {g g' : NetPack.Graph Binary32} {batch : Nat}

theorem input_name_of_toGraph (h : toGraph (.ofGraph g) batch = .ok g') :
    g'.input.name = g.input.name := by
  obtain ⟨graph, constants, input, _, _, _, _, _, _, _, hgraph, -, hinput, -, -, -, -, -, rfl⟩ :=
    toGraph_eq_ok_iff.1 h
  rw [graph_ofGraph] at hgraph
  obtain rfl := Option.some.inj hgraph
  -- The file declares one input, so that is the one which is no constant.
  have hmem : input ∈ (loweredGraph g).inputs :=
    (List.mem_filter.1 (hinput ▸ List.mem_singleton_self input)).1
  obtain rfl := List.mem_singleton.1 hmem
  rfl

/-- The graph that is read from a written file has the input of the one that was written. -/
theorem input_name_of_validate {report : Report}
    (h : validate (encodeGraph g) batch = .ok (g', report)) : g'.input.name = g.input.name := by
  obtain ⟨m, hdecode, -, hlift, -⟩ := exists_of_validate h
  rw [← encodeGraph_forgetSigns] at hdecode
  obtain rfl := Model.eq_of_decode?_encode (storable_ofGraph (noNegativeZero_forgetSigns g)) hdecode
  exact input_name_of_toGraph (g := g.forgetSigns) hlift

end Exchange

/-- **On both routes the input of an exported model has the name that exports give to it.** -/
theorem Exported.input_name_of_ofModel [NumberSource] {fs₀ fs fs' : FileSystem}
    {directory name : String}
    {model : SequentialModel Binary32} {d : Descriptor} {route : ExportRoute} {e : Exported}
    (hload : fs₀.run (SequentialModel.load directory :
      ExceptT ModelError (StateM FileSystem) _) = (.ok model, fs₀))
    (h : fs.run (ofModel name model.toModel d route : Converting (StateM FileSystem) _) =
      (.ok e, fs')) : e.graph.input.name = Export.inputName := by
  obtain ⟨m, weights, hbuild, -, -⟩ := exists_of_loadModel hload
  obtain ⟨g, hexport, hroute⟩ := exists_of_ofModel h
  have hname : g.input.name = Export.inputName := by
    rw [(Export.exported_of_build hbuild hexport).input]
  rcases hroute with rfl | ⟨path, report, -, hvalidate⟩
  · exact hname
  · exact (Exchange.input_name_of_validate hvalidate).trans hname

/-! ### The declared input -/

/-- Declared extents are a descriptor exactly if an export accepts them. -/
theorem Descriptor.ofDims_dims_eq_ok {d d' : Descriptor} :
    ofDims d.dims = .ok d' ↔ d.check = .ok () ∧ d' = { d with dtype := .f32 } := by
  have hdims : ofDims d.dims = d.check >>= fun _ => pure { d with dtype := .f32 } := by
    by_cases hzero : d.dims.contains 0 = true
    · rw [check, if_pos hzero]
      exact if_pos hzero
    · rw [check, if_neg hzero]
      exact if_neg hzero
  rw [hdims]
  constructor
  · intro h
    obtain ⟨_, hcheck, h⟩ := Outcome.bind_eq_ok.1 h
    exact ⟨hcheck, (Outcome.pure_eq_ok_iff.1 h).symm⟩
  · rintro ⟨hcheck, rfl⟩
    rw [hcheck]
    rfl

/-- The element type plays no part in an export. -/
theorem Exported.ofModel_dtype [NumberSource] {m : Type → Type} [Monad m] [FileStore m]
    (name : String)
    (model : Model Binary32) (d : Descriptor) (dtype : DType) (route : ExportRoute) :
    (ofModel name model { d with dtype } route : Converting m Exported) =
      ofModel name model d route := rfl

/-! ### The last stages -/

/-- What ends well has stored an artifact at its path. -/
theorem Exported.read_of_finish {fs fs' : FileSystem} {e : Exported} {input : InputSpec}
    {options : CompileOptions} {labels : Option Labels} {metadata : Metadata}
    {path stored : String}
    (h : fs.run (e.finish input options labels metadata path : Converting (StateM FileSystem) _) =
      (.ok stored, fs')) : stored = path ∧ ∃ a : Artifact, fs'.read path = .ok a.encode := by
  obtain ⟨compiled, fs₁, -, h⟩ := run_bind_eq_ok.1 h
  obtain ⟨annotated, fs₂, -, h⟩ := run_bind_eq_ok.1 h
  obtain ⟨_, fs₃, hsave, h⟩ := run_bind_eq_ok.1 h
  obtain ⟨hpath, rfl⟩ := Prod.mk.inj h
  exact ⟨(Except.ok.inj hpath).symm, annotated.artifact, read_of_replace (run_during.1 hsave)⟩

/-! ### Requests and jobs that say the same -/

namespace Request

/-- The job of a batch says what the request says: it takes a checkpoint on the same route, its
input is an image, its labels are in the configuration, and options and metadata come from the
preset alone. -/
structure Matches (r : Request) (c : BatchConfig) (job : Job) : Prop where
  /-- The defaults of the batch are empty but for a preset. -/
  defaults : c.defaults = { Defaults.standard with preset := c.defaults.preset }
  metadata : c.metadata = none
  normalization : c.normalization = r.normalization
  name : job.name = r.name
  /-- On the route through an exchange file that file is the same. -/
  route : job.route = .direct ∧ r.route = .direct ∨
    job.route = .exchange ∧ r.route = .exchange (job.exchangePath c.defaults)
  shape : job.inputShape = some r.descriptor.dims
  preset : c.presetFor job = r.preset
  input : job.input = .image
  layout : job.layout = r.layout
  labels : job.labels = r.labels
  labelsFile : job.labelsFile = none
  output : job.output = r.output

/-- The job that takes a checkpoint as the request says. -/
def toJob (r : Request) (source : String) : Job where
  name := r.name
  route := match r.route with
    | .direct => .direct
    | .exchange _ => .exchange
  source
  inputShape := some r.descriptor.dims
  preset := some r.preset
  input := .image
  layout := r.layout
  labels := r.labels
  labelsFile := none
  output := r.output
  exchange := match r.route with
    | .direct => none
    | .exchange path => some path

/-- The batch of that job. -/
def toBatch (r : Request) (source : String) : BatchConfig :=
  ⟨.standard, none, r.normalization, [r.toJob source]⟩

/-- Every request is matched by a job. -/
theorem matches_toJob (r : Request) (source : String) :
    r.Matches (r.toBatch source) (r.toJob source) where
  defaults := rfl
  metadata := rfl
  normalization := rfl
  name := rfl
  route := by
    cases hroute : r.route with
    | direct => simp [toJob, hroute]
    | exchange path => simp [toJob, hroute, Job.exchangePath]
  shape := rfl
  preset := rfl
  input := rfl
  layout := rfl
  labels := rfl
  labelsFile := rfl
  output := rfl

variable {r : Request} {c : BatchConfig} {job : Job}

namespace Matches

theorem optionsFor (h : r.Matches c job) : c.optionsFor job = r.preset.options := by
  rw [BatchConfig.optionsFor, h.defaults, h.preset]
  rfl

theorem metadataFor (h : r.Matches c job) : c.metadataFor job = r.preset.metadata := by
  rw [BatchConfig.metadataFor, h.metadata, h.preset]
  rfl

theorem outputPath (h : r.Matches c job) : job.outputPath c.defaults = r.outputPath := by
  rw [Job.outputPath, h.defaults, h.output, h.name, Request.outputPath]
  cases r.output <;> rfl

theorem exportRoute (h : r.Matches c job) : job.exportRoute c.defaults = r.route := by
  rcases h.route with ⟨hjob, hr⟩ | ⟨hjob, hr⟩
  · rw [Job.exportRoute, hjob, hr, if_neg (by decide)]
  · rw [Job.exportRoute, if_pos hjob, hr]

theorem route_ne_bundle (h : r.Matches c job) : job.route ≠ .bundle := by
  rcases h.route with ⟨hjob, -⟩ | ⟨hjob, -⟩ <;> simp [hjob]

theorem loadLabels {m : Type → Type} [Monad m] [FileStore m] (h : r.Matches c job) :
    (job.loadLabels : ExceptT ConvertError m _) = pure r.labels := by
  rw [Job.loadLabels, h.labels, h.labelsFile]
  cases r.labels <;> rfl

/-- The declared extents are accepted by the job if they are by an export. -/
theorem descriptor_eq_ok (h : r.Matches c job) {declared : Option Descriptor} :
    job.descriptor = .ok declared ↔
      r.descriptor.check = .ok () ∧ declared = some { r.descriptor with dtype := .f32 } := by
  rw [Job.descriptor, h.shape]
  constructor
  · intro hdeclared
    obtain ⟨d, hd, rfl⟩ := Outcome.map_eq_ok.1 hdeclared
    obtain ⟨hcheck, rfl⟩ := Descriptor.ofDims_dims_eq_ok.1 hd
    exact ⟨hcheck, rfl⟩
  · rintro ⟨hcheck, rfl⟩
    exact Outcome.map_eq_ok.2 ⟨_, Descriptor.ofDims_dims_eq_ok.2 ⟨hcheck, rfl⟩, rfl⟩

theorem inputSpec_eq_ok (h : r.Matches c job) {dtype : DType} {g : Graph Binary32}
    {input : InputSpec} :
    job.inputSpec c.normalization (some { r.descriptor with dtype }) g = .ok input ↔
      InputSpec.ofImage g.input.name r.descriptor r.normalization r.layout = .ok input := by
  have hspec : InputSpec.ofImage g.input.name { r.descriptor with dtype } r.normalization r.layout =
      InputSpec.ofImage g.input.name r.descriptor r.normalization r.layout := rfl
  simp only [Job.inputSpec, h.input, h.normalization, h.layout, hspec]
  cases InputSpec.ofImage g.input.name r.descriptor r.normalization r.layout <;> simp

end Matches

/-! ### Both go through the same stages -/

variable {fs fs' : FileSystem} {model : SequentialModel Binary32} {path : String}

theorem input_eq_ok {input : InputSpec} : r.input = .ok input ↔
    InputSpec.ofImage Export.inputName r.descriptor r.normalization r.layout = .ok input := by
  unfold Request.input
  split <;> simp_all

/-- The stages that a request goes through if it ends well. -/
theorem run_convert [NumberSource] {model : Model Binary32} :
    fs.run (convert model r : Converting (StateM FileSystem) _) = (.ok path, fs') ↔
      ∃ e fs₁ input,
        fs.run (Exported.ofModel r.name model r.descriptor r.route :
          Converting (StateM FileSystem) _) = (.ok e, fs₁) ∧
        InputSpec.ofImage Export.inputName r.descriptor r.normalization r.layout = .ok input ∧
        fs₁.run (e.finish input r.preset.options r.labels r.preset.metadata r.outputPath :
          Converting (StateM FileSystem) _) = (.ok path, fs') := by
  constructor
  · intro h
    obtain ⟨input, fs₁, hcompile, h⟩ := run_bind_eq_ok.1 h
    obtain ⟨hspec, rfl⟩ := Prod.mk.inj (run_during.1 hcompile)
    obtain ⟨e, fs₂, hexport, h⟩ := run_bind_eq_ok.1 h
    exact ⟨e, fs₂, input, hexport, input_eq_ok.1 hspec, h⟩
  · rintro ⟨e, fs₁, input, hexport, hspec, hfinish⟩
    exact run_bind_eq_ok.2 ⟨input, fs, run_during.2 (Prod.ext (input_eq_ok.2 hspec) rfl),
      run_bind_eq_ok.2 ⟨e, fs₁, hexport, hfinish⟩⟩

/-- The stages that a job goes through if it ends well. The graph is there when the input is
described. -/
theorem Matches.run_runJob [NumberSource] (h : r.Matches c job)
    (hload : fs.run (SequentialModel.load job.source :
      ExceptT ModelError (StateM FileSystem) _) = (.ok model, fs)) :
    fs.run (c.runJob job : Converting (StateM FileSystem) _) = (.ok path, fs') ↔
      ∃ e fs₁ input,
        fs.run (Exported.ofModel r.name model.toModel r.descriptor r.route :
          Converting (StateM FileSystem) _) = (.ok e, fs₁) ∧
        InputSpec.ofImage e.graph.input.name r.descriptor r.normalization r.layout = .ok input ∧
        fs₁.run (e.finish input r.preset.options r.labels r.preset.metadata r.outputPath :
          Converting (StateM FileSystem) _) = (.ok path, fs') := by
  have hlabels : fs.run (during job.name .load job.loadLabels :
      Converting (StateM FileSystem) _) = (.ok r.labels, fs) := by
    rw [h.loadLabels]
    rfl
  have hexported : fs.run (job.exportGraph c.defaults
      (some { r.descriptor with dtype := .f32 }) : Converting (StateM FileSystem) _) =
        fs.run (Exported.ofModel r.name model.toModel r.descriptor r.route) := by
    rw [Job.run_exportGraph_of_load h.route_ne_bundle hload, h.name, h.exportRoute,
      Exported.ofModel_dtype]
  unfold BatchConfig.runJob
  rw [run_bind_of_ok hlabels, h.optionsFor, h.metadataFor, h.outputPath]
  constructor
  · intro hrun
    obtain ⟨declared, fs₁, hdeclared, hrun⟩ := run_bind_eq_ok.1 hrun
    obtain ⟨hdescriptor, rfl⟩ := Prod.mk.inj (run_during.1 hdeclared)
    obtain ⟨-, rfl⟩ := h.descriptor_eq_ok.1 hdescriptor
    obtain ⟨e, fs₂, hexport, hrun⟩ := run_bind_eq_ok.1 hrun
    obtain ⟨input, fs₃, hcompile, hrun⟩ := run_bind_eq_ok.1 hrun
    obtain ⟨hspec, rfl⟩ := Prod.mk.inj (run_during.1 hcompile)
    exact ⟨e, fs₂, input, hexported ▸ hexport, h.inputSpec_eq_ok.1 hspec, hrun⟩
  · rintro ⟨e, fs₁, input, hexport, hspec, hfinish⟩
    -- The export checked the extents.
    obtain ⟨g, hgraph, -⟩ := Exported.exists_of_ofModel hexport
    obtain ⟨-, hpositive, -⟩ := Export.exists_of_exportGraph hgraph
    have hdescriptor := h.descriptor_eq_ok.2 ⟨Export.check_eq_ok.2 hpositive, rfl⟩
    exact run_bind_eq_ok.2 ⟨_, fs, run_during.2 (Prod.ext hdescriptor rfl),
      run_bind_eq_ok.2 ⟨e, fs₁, hexported.trans hexport,
      run_bind_eq_ok.2 ⟨input, fs₁, run_during.2 (Prod.ext (h.inputSpec_eq_ok.2 hspec) rfl),
        hfinish⟩⟩⟩

/-- **A request and a job that say the same agree.** Let a checkpoint be loaded to a model. On both
routes and from all files, the request for that model succeeds exactly if the job of the checkpoint
does. Then both store one artifact at the same path and leave the same files. -/
theorem convert_iff_runJob [NumberSource] (h : r.Matches c job)
    (hload : (fs.run (SequentialModel.load job.source :
      ExceptT ModelError (StateM FileSystem) _)).1 = .ok model) :
    (fs.run (convert model.toModel r : Converting (StateM FileSystem) _) = (.ok path, fs') ↔
      fs.run (c.runJob job : Converting (StateM FileSystem) _) = (.ok path, fs')) ∧
    (fs.run (convert model.toModel r : Converting (StateM FileSystem) _) = (.ok path, fs') →
      path = r.outputPath ∧ ∃ a : Artifact, fs'.read r.outputPath = .ok a.encode) := by
  have hload : fs.run (SequentialModel.load job.source :
      ExceptT ModelError (StateM FileSystem) _) = (.ok model, fs) :=
    Prod.ext hload (SequentialModel.reads_load _ _)
  rw [run_convert, h.run_runJob hload]
  constructor
  · refine exists_congr fun e => exists_congr fun fs₁ => exists_congr fun input =>
      and_congr_right fun hexport => ?_
    rw [Exported.input_name_of_ofModel hload hexport]
  · rintro ⟨e, fs₁, input, -, -, hfinish⟩
    exact Exported.read_of_finish hfinish

end Request

/-!
### A model that is converted in both ways

The checkpoint of a model with one layer is at hand, and the model goes through an exchange file.
-/

namespace Request.Recorded

open BatchConfig BatchConfig.Recorded

def request : Request where
  name := "m"
  descriptor := ⟨1, 3, 1, 1, .f32⟩
  route := .exchange "m.onnx"
  preset := .classifier
  normalization := .standard
  layout := .rgb
  labels := none
  output := some "m.mlpack"

/-- What the request stores. -/
def artifact : Artifact :=
  { Flat.compiled .standard with metadata := some (Preset.classifier.metadata.describe "m") }

/-- The recorded graph is read back from its exchange file. -/
theorem validate_graph : Exchange.validate (Exchange.encodeGraph graph) 1 =
    .ok (graph, Exchange.reportFor graph) := by
  have hzero : Exchange.NoNegativeZero graph := by simp [Exchange.NoNegativeZero, graph, Flat.graph]
  have hread : Exchange.Model.decode? (Exchange.encodeGraph graph) = some (.ofGraph graph) :=
    Exchange.Model.decode?_encode (Exchange.storable_ofGraph hzero) (by decide +kernel)
  rw [Exchange.validate, Exchange.decode, hread]
  rfl

theorem run_ofModel [NumberSource] : files.run
    (Exported.ofModel "m" model.toModel ⟨1, 3, 1, 1, .f32⟩
      (.exchange "m.onnx") : Converting (StateM FileSystem) _) = (.ok ⟨"m", graph⟩, exchanged) := by
  have hread : exchanged.read "m.onnx" = .ok (Exchange.encodeGraph graph) :=
    read_of_replace run_write
  have hload : exchanged.run (Exchange.load "m.onnx" 1 :
      ExceptT (Fault ConvertError) (StateM FileSystem) _) =
        (.ok (graph, Exchange.reportFor graph), exchanged) :=
    run_bind_eq_ok.2 ⟨_, exchanged,
      run_adapt_eq_ok.2 (run_adapt_eq_ok.2 (Prod.ext hread rfl)), Prod.ext validate_graph rfl⟩
  exact run_bind_eq_ok.2 ⟨graph, files, run_settle.2 ⟨exportGraph_model, rfl⟩,
    run_bind_eq_ok.2 ⟨(), exchanged, run_during.2 run_write,
    run_bind_eq_ok.2 ⟨_, exchanged, run_within.2 hload, rfl⟩⟩⟩

theorem annotate_compiled :
    (Flat.compiled .standard).annotate Preset.classifier.metadata = .ok artifact := by
  have hname : Text.allBlank (Flat.compiled .standard).name = false := by
    change Text.allBlank "m" = false
    decide
  exact Artifact.annotate_eq_ok.2 ⟨hname, rfl, rfl⟩

theorem run_persist : ∃ fs', exchanged.run ((⟨"m", artifact⟩ : Annotated).persist "m.mlpack" :
    Converting (StateM FileSystem) _) = (.ok "m.mlpack", fs') := by
  have htemp : temporary "m.mlpack" exchanged.tag = "m.mlpack.tmp7" := Flat.temporary_output
  have hplain : Path.Plain (temporary "m.mlpack" exchanged.tag) := Flat.plain_temporary
  have hreplace := run_replace artifact.encode Flat.plain_output hplain rfl
    (by decide) (by rw [htemp]; decide)
  exact ⟨_, run_bind_eq_ok.2 ⟨(), _, run_during.2 hreplace, rfl⟩⟩

theorem run_request [NumberSource] : ∃ fs', files.run (convert model.toModel request :
    Converting (StateM FileSystem) _) = (.ok "m.mlpack", fs') := by
  have hinput : InputSpec.ofImage Export.inputName request.descriptor .standard .rgb =
      .ok (Flat.compiled .standard).input := InputSpec.ofImage_eq_ok.2 ⟨by decide, rfl, rfl⟩
  have hcompile : (⟨"m", graph⟩ : Exported).compile (Flat.compiled .standard).input
      Preset.classifier.options none = .ok ⟨"m", Flat.compiled .standard⟩ := rfl
  have hannotate : (⟨"m", Flat.compiled .standard⟩ : Compiled).annotate
      Preset.classifier.metadata = .ok ⟨"m", artifact⟩ :=
    Compiled.annotate_eq_ok.2 ⟨annotate_compiled, rfl⟩
  obtain ⟨fs', hpersist⟩ := run_persist
  have hfinish : exchanged.run ((⟨"m", graph⟩ : Exported).finish (Flat.compiled .standard).input
      Preset.classifier.options none Preset.classifier.metadata "m.mlpack" :
        Converting (StateM FileSystem) _) = (.ok "m.mlpack", fs') :=
    run_bind_eq_ok.2 ⟨_, exchanged, Prod.ext hcompile rfl,
      run_bind_eq_ok.2 ⟨_, exchanged, Prod.ext (Outcome.ofExcept_eq_ok.2 hannotate) rfl, hpersist⟩⟩
  exact ⟨fs', run_convert.2 ⟨_, _, _, run_ofModel, hinput, hfinish⟩⟩

end Request.Recorded

namespace Request

open Recorded BatchConfig.Recorded

attribute [local instance] Export.zeroSource

/-- The request succeeds, and so does the job that says the same. -/
theorem convert_iff_runJob_recorded :
    ∃ fs', files.run (convert model.toModel request : Converting (StateM FileSystem) _) =
        (.ok "m.mlpack", fs') ∧
      files.run ((request.toBatch "ckpt").runJob (request.toJob "ckpt") :
        Converting (StateM FileSystem) _) = (.ok "m.mlpack", fs') ∧
      ∃ a : Artifact, fs'.read "m.mlpack" = .ok a.encode := by
  obtain ⟨fs', hrun⟩ := run_request
  obtain ⟨hagree, hstored⟩ := convert_iff_runJob (request.matches_toJob "ckpt")
    (congrArg Prod.fst run_load)
  exact ⟨fs', hrun, hagree.1 hrun, (hstored hrun).2⟩

end Request

end NetPack
