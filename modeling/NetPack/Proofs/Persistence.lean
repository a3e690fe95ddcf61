import NetPack.Convert.Batch
import NetPack.Proofs.Artifacts
import NetPack.Proofs.Exchange.Loading
import NetPack.Proofs.Files
import NetPack.Proofs.Loading

/-!
# What a job stores can be loaded

A job of a batch goes through its stages to an annotated artifact (`BatchConfig.annotated`), which
it stores. On all routes that artifact is one that a file can hold
(`BatchConfig.storable_of_annotated`): the graph of a bundle was read from a file, the parameters
of a checkpoint were, and what is recorded, folded and lifted out of an exchange file stays within
the bounds of the format. So the only thing that can keep a stored artifact from being loaded is a
number in its header that is not finite, because such a number is written as `null`
(`Annotated.load_of_persist`).

The check of a configuration does not keep these numbers out. It asks of deviations that they are
finite and positive, and of means nothing, so a bias `-mean / std` can be infinite or not a number;
the `ε` of a batch normalisation is checked nowhere. `BatchConfig.load_of_runJob` says which
artifacts are loaded, and `BatchConfig.not_load_of_infinite_mean` is a batch that is accepted and
stored and cannot be loaded.
-/

namespace NetPack

open Converting FileStore

namespace FileSystem

/-- All files are shorter than the number of words. -/
def Sized (fs : FileSystem) : Prop :=
  ∀ n ∈ fs.nodes, ∀ content, n.2 = .file content → content.length < Word.modulus

theorem Sized.length_lt {fs : FileSystem} (h : fs.Sized) {path : String} {bytes : Bytes}
    (hread : fs.read path = .ok bytes) : bytes.length < Word.modulus := by
  obtain ⟨place, hfile⟩ := read_eq_ok.1 hread
  obtain ⟨-, hfind⟩ := resolveFile_eq_ok.1 hfile
  cases place with
  | nil => cases hfind
  | cons part rest =>
    obtain ⟨before, after, hnodes, -⟩ := List.lookup_eq_some_iff.1 hfind
    refine h (part :: rest, .file bytes) ?_ bytes rfl
    rw [hnodes]
    exact List.mem_append_right _ List.mem_cons_self

section

variable {fs : FileSystem} {place : Location} {content : Bytes}

theorem Sized.erase (h : fs.Sized) : (fs.erase place).Sized :=
  fun n hn => h n (List.mem_of_mem_filter hn)

theorem Sized.put (h : fs.Sized) (hcontent : content.length < Word.modulus) :
    (fs.put place (.file content)).Sized := by
  refine List.forall_mem_cons.2 ⟨?_, h.erase⟩
  rintro _ ⟨⟩
  exact hcontent

end

end FileSystem

/-! ### Stages -/

section Stages

variable {α : Type} {fs fs' : FileSystem} {name : String} {stage : Stage} {a : α}

theorem run_during {x : ExceptT ConvertError (StateM FileSystem) α} :
    fs.run (during name stage x) = (.ok a, fs') ↔ fs.run x = (.ok a, fs') :=
  FileSystem.run_adapt_eq_ok

theorem run_settle {r : Outcome ConvertError α} :
    fs.run (settle name stage r : Converting (StateM FileSystem) α) = (.ok a, fs') ↔
      r = .ok a ∧ fs' = fs := by
  unfold settle
  rw [FileSystem.run_mk_pure, Prod.mk.injEq, Outcome.mapError_eq_ok]
  exact and_congr_right fun _ => eq_comm

theorem run_modelBytes {path : String} {bytes : Bytes} :
    fs.run (modelBytes path : ExceptT ModelError (StateM FileSystem) Bytes) = (.ok bytes, fs') ↔
      fs.read path = .ok bytes ∧ fs' = fs := by
  unfold modelBytes
  rw [FileSystem.run_adapt_eq_ok, FileSystem.run_bytes, Prod.mk.injEq]
  exact and_congr_right fun _ => eq_comm

theorem run_within {x : ExceptT (Fault ConvertError) (StateM FileSystem) α} :
    fs.run (within name stage x) = (.ok a, fs') ↔ fs.run x = (.ok a, fs') :=
  FileSystem.run_adapt_eq_ok

theorem storable_of_loadBundle {path : String} {g : Graph Binary32}
    (h : fs.run (Bundle.load path : ExceptT (Fault ModelError) (StateM FileSystem) _) =
      (.ok g, fs')) : g.Storable := by
  obtain ⟨bytes, fs₁, -, h⟩ := FileSystem.run_bind_eq_ok.1 h
  obtain ⟨g', hdecode, hvalidate⟩ := Outcome.bind_eq_ok.1 (congrArg Prod.fst h)
  obtain ⟨-, rfl⟩ := Graph.validate_eq_ok.1 hvalidate
  exact Bundle.storable_of_decode (Outcome.ofExcept_eq_ok.1 hdecode)

/-- A checkpoint is built from a manifest and weights that can be stored. -/
theorem exists_of_loadModel {directory : String} {model : SequentialModel Binary32}
    (h : fs.run (SequentialModel.load directory : ExceptT ModelError (StateM FileSystem) _) =
      (.ok model, fs')) :
    ∃ m weights, SequentialModel.build m weights = .ok model ∧ (∀ l ∈ m.layers, l.Words) ∧
      ∀ name t, weights.find? name = some t → Container.Storable name t := by
  obtain ⟨contents, fs₁, -, h⟩ := FileSystem.run_bind_eq_ok.1 h
  obtain ⟨m, fs₂, hparse, h⟩ := FileSystem.run_bind_eq_ok.1 h
  obtain ⟨_, fs₃, -, h⟩ := FileSystem.run_bind_eq_ok.1 h
  obtain ⟨bytes, fs₄, -, h⟩ := FileSystem.run_bind_eq_ok.1 h
  obtain ⟨weights, fs₅, hweights, h⟩ := FileSystem.run_bind_eq_ok.1 h
  refine ⟨m, weights, congrArg Prod.fst h, ?_,
    SequentialModel.storable_of_weightsOf (congrArg Prod.fst hweights)⟩
  have hparse : Manifest.parse contents = .ok m := congrArg Prod.fst hparse
  unfold Manifest.parse at hparse
  split at hparse
  · rename_i m' hdecode
    obtain rfl := Except.ok.inj hparse
    exact Manifest.gives_read.decode hdecode
  · cases hparse

/-- What an exported model is: the graph that was recorded, or what is read back from the file that
was just written. -/
theorem Exported.exists_of_ofModel [NumberSource] {model : Model Binary32} {d : Descriptor}
    {route : ExportRoute} {e : Exported}
    (h : fs.run (ofModel name model d route : Converting (StateM FileSystem) _) = (.ok e, fs')) :
    ∃ g, Export.exportGraph model d = .ok g ∧
      (e = ⟨name, g⟩ ∨ ∃ path report,
        fs'.read path = .ok (Exchange.encodeGraph g) ∧
          Exchange.validate (Exchange.encodeGraph g) d.batch = .ok (e.graph, report)) := by
  obtain ⟨g, fs₁, hsettle, hroute⟩ := FileSystem.run_bind_eq_ok.1 h
  obtain ⟨hexport, rfl⟩ := run_settle.1 hsettle
  refine ⟨g, hexport, ?_⟩
  clear h
  cases route with
  | direct => exact .inl (Except.ok.inj (congrArg Prod.fst hroute)).symm
  | exchange path =>
    obtain ⟨_, fs₂, hwrite, hrest⟩ := FileSystem.run_bind_eq_ok.1 hroute
    obtain ⟨⟨g', report⟩, fs₃, hload, hexported⟩ := FileSystem.run_bind_eq_ok.1 hrest
    obtain ⟨he, rfl⟩ := Prod.mk.inj hexported
    obtain rfl := Except.ok.inj he
    have hread := FileSystem.read_of_replace (run_during.1 hwrite)
    obtain ⟨bytes, fs₄, hbytes, hchecked⟩ := FileSystem.run_bind_eq_ok.1 (run_within.1 hload)
    rw [reporting, FileSystem.run_adapt_eq_ok, FileSystem.run_adapt_eq_ok, FileSystem.run_bytes,
      hread] at hbytes
    obtain ⟨hsame, rfl⟩ := Prod.mk.inj hbytes
    obtain rfl := Except.ok.inj hsame
    obtain ⟨hvalidate, rfl⟩ := Prod.mk.inj hchecked
    exact .inr ⟨path, report, hread, hvalidate⟩

/-- An exported model can be stored on both routes. -/
theorem storable_of_ofModel [NumberSource] {m : Manifest} {weights : Table (Tensor Binary32)}
    {model : SequentialModel Binary32} {d : Descriptor} {route : ExportRoute} {e : Exported}
    (hm : ∀ l ∈ m.layers, l.Words)
    (hweights : ∀ name t, weights.find? name = some t → Container.Storable name t)
    (hd : ∀ n ∈ d.dims, n < Word.modulus) (hbuild : SequentialModel.build m weights = .ok model)
    (hsized : fs'.Sized)
    (h : fs.run (Exported.ofModel name model.toModel d route : Converting (StateM FileSystem) _) =
      (.ok e, fs')) : e.graph.Storable := by
  obtain ⟨g, hexport, hroute⟩ := Exported.exists_of_ofModel h
  have hg := Export.storable_of_build hm hweights hd hbuild hexport
  rcases hroute with rfl | ⟨path, report, hread, hvalidate⟩
  · exact hg
  · have hbatch : d.batch < Word.modulus := hd d.batch (by simp [Descriptor.dims])
    exact Exchange.storable_of_validate (fun name t ht => (hg.params name t ht).unreserved) hbatch
      (hsized.length_lt hread) hvalidate

theorem Exported.compile_eq_ok {e : Exported} {input : InputSpec} {options : CompileOptions}
    {labels : Option Labels} {compiled : Compiled} :
    e.compile input options labels = .ok compiled ↔
      NetPack.compile { e.graph with name := e.model } input options labels =
        .ok compiled.artifact ∧ compiled.model = e.model := by
  unfold compile
  dsimp only
  constructor
  · intro h
    split at h
    · rename_i artifact hartifact
      obtain rfl := Except.ok.inj h
      exact ⟨hartifact, rfl⟩
    · cases h
  · rintro ⟨h, hmodel⟩
    rw [h, ← hmodel]

theorem Compiled.annotate_eq_ok {compiled : Compiled} {metadata : Metadata} {a : Annotated} :
    compiled.annotate metadata = .ok a ↔
      compiled.artifact.annotate metadata = .ok a.artifact ∧ a.model = compiled.model := by
  unfold annotate
  constructor
  · intro h
    split at h
    · rename_i artifact hartifact
      obtain rfl := Except.ok.inj h
      exact ⟨hartifact, rfl⟩
    · cases h
  · rintro ⟨h, hmodel⟩
    rw [h, ← hmodel]

end Stages

/-! ### Jobs -/

theorem InputSpec.ofImage_eq_ok {name : String} {d : Descriptor} {n : Normalization}
    {layout : ColorLayout} {spec : InputSpec} :
    ofImage name d n layout = .ok spec ↔ n.valid = true ∧ d.channels = layout.channels ∧
      spec = image name d.shape layout (1 / Scalar.count 255) (channelBias n layout) := by
  simp only [ofImage, Outcome.throw_eq_error, Outcome.error_bind]
  rw [Outcome.ite_eq_ok (by simp), Outcome.ite_eq_ok (by simp), Outcome.pure_eq_ok_iff, not_not,
    Bool.not_eq_true', Bool.not_eq_false]
  exact and_congr_right fun _ => and_congr_right fun _ => eq_comm

namespace Job

theorem dims_of_descriptor {job : Job} {declared : Option Descriptor}
    (hshape : ∀ dims ∈ job.inputShape, ∀ n ∈ dims, n < Word.modulus)
    (h : job.descriptor = .ok declared) : ∀ d ∈ declared, ∀ n ∈ d.dims, n < Word.modulus := by
  unfold descriptor at h
  cases hdims : job.inputShape with
  | none =>
    rw [hdims] at h
    obtain rfl := Outcome.pure_eq_ok_iff.1 h
    simp
  | some dims =>
    rw [hdims] at h
    obtain ⟨d, hd, rfl⟩ := Outcome.map_eq_ok.1 h
    have hsame : d.dims = dims := by
      simp only [Descriptor.ofDims] at hd
      split at hd
      · rw [Outcome.throw_eq_error, Outcome.error_bind, Outcome.ite_eq_ok (by simp),
          Outcome.pure_eq_ok_iff] at hd
        obtain ⟨-, rfl⟩ := hd
        rfl
      · cases hd
    rintro _ ⟨⟩
    exact hsame ▸ hshape dims hdims

/-- A job of a checkpoint exports the model that it loads. -/
theorem run_exportGraph_of_load [NumberSource] {job : Job} {d : Defaults} {descriptor : Descriptor}
    {fs : FileSystem} {model : SequentialModel Binary32} (hroute : job.route ≠ .bundle)
    (hload : fs.run (SequentialModel.load job.source :
      ExceptT ModelError (StateM FileSystem) _) = (.ok model, fs)) :
    fs.run (job.exportGraph d (some descriptor) : Converting (StateM FileSystem) _) =
      fs.run (Exported.ofModel job.name model.toModel descriptor (job.exportRoute d)) := by
  unfold exportGraph
  rw [if_neg hroute]
  exact FileSystem.run_bind_of_ok (run_during.2 (FileSystem.run_adapt_eq_ok.2 hload))

theorem storable_of_exportGraph [NumberSource] {job : Job} {d : Defaults}
    {declared : Option Descriptor} {e : Exported} {fs fs' : FileSystem}
    (hdeclared : ∀ d ∈ declared, ∀ n ∈ d.dims, n < Word.modulus) (hsized : fs'.Sized)
    (h : fs.run (job.exportGraph d declared : Converting (StateM FileSystem) _) = (.ok e, fs')) :
    e.graph.Storable := by
  unfold exportGraph at h
  split at h
  · obtain ⟨g, fs₁, hload, h⟩ := FileSystem.run_bind_eq_ok.1 h
    obtain rfl := Except.ok.inj (congrArg Prod.fst h)
    exact storable_of_loadBundle (FileSystem.run_adapt_eq_ok.1 (run_within.1 hload))
  · split at h
    · rename_i descriptor
      obtain ⟨model, fs₁, hload, h⟩ := FileSystem.run_bind_eq_ok.1 h
      obtain ⟨m, weights, hbuild, hm, hweights⟩ :=
        exists_of_loadModel (FileSystem.run_adapt_eq_ok.1 (run_during.1 hload))
      exact storable_of_ofModel hm hweights (hdeclared descriptor rfl) hbuild hsized h
    · cases congrArg Prod.fst h

theorem singles_of_ofImage {name : String} {d : Descriptor} {n : Normalization}
    {layout : ColorLayout} {spec : InputSpec} (h : InputSpec.ofImage name d n layout = .ok spec) :
    spec.singles = 1 / Scalar.count 255 :: InputSpec.channelBias n layout := by
  obtain ⟨-, -, rfl⟩ := InputSpec.ofImage_eq_ok.1 h
  rfl

/-- A plain tensor has no numbers of its own; an image has the scale of its bytes and the biases. -/
theorem singles_of_inputSpec {job : Job} {n : Normalization} {declared : Option Descriptor}
    {g : Graph Binary32} {input : InputSpec} (h : job.inputSpec n declared g = .ok input) :
    input.singles =
      if job.input = .image then 1 / Scalar.count 255 :: InputSpec.channelBias n job.layout
      else [] := by
  unfold inputSpec at h
  dsimp only at h
  split at h
  · rename_i d hinput
    rw [if_pos hinput]
    split at h
    · rename_i spec hspec
      obtain rfl := Except.ok.inj h
      exact singles_of_ofImage hspec
    · cases h
  · rename_i d hinput
    obtain rfl := Outcome.pure_eq_ok_iff.1 h
    rw [if_neg (by simp [hinput])]
    rfl
  · rename_i hinput
    obtain ⟨d, -, h⟩ := Outcome.bind_eq_ok.1 h
    rw [if_pos hinput]
    split at h
    · rename_i spec hspec
      obtain rfl := Except.ok.inj h
      exact singles_of_ofImage hspec
    · cases h
  · rename_i hinput
    obtain rfl := Outcome.pure_eq_ok_iff.1 h
    rw [if_neg (by simp [hinput])]
    rfl

end Job

namespace BatchConfig

section

variable {m : Type → Type} [Monad m] [FileStore m]

/-- The stages of a job up to the annotated artifact. -/
def annotated [NumberSource] (c : BatchConfig) (job : Job) : Converting m Annotated := do
  let labels ← during job.name .load job.loadLabels
  let declared ← during job.name .load (ofResult job.descriptor)
  let exported ← job.exportGraph c.defaults declared
  let input ← during job.name .compile
    (ofResult (job.inputSpec c.normalization declared exported.graph))
  let compiled ← ExceptT.mk (pure (exported.compile input (c.optionsFor job) labels))
  ExceptT.mk (pure (Outcome.ofExcept (compiled.annotate (c.metadataFor job))))

/-- A job stores its annotated artifact. -/
theorem runJob_eq [NumberSource] [LawfulMonad m] (c : BatchConfig) (job : Job) :
    (c.runJob job : Converting m String) =
      c.annotated job >>= fun a => a.persist (job.outputPath c.defaults) := by
  simp only [runJob, annotated, Exported.finish, bind_assoc]

end

variable {c : BatchConfig} {job : Job} {fs fs' : FileSystem} {a : Annotated}

/-- The stages that a job went through. -/
theorem exists_of_annotated [NumberSource]
    (h : fs.run (c.annotated job : Converting (StateM FileSystem) _) = (.ok a, fs')) :
    ∃ (labels : _) (declared : _) (e : _) (input : _) (compiled : _) (fs₁ : FileSystem),
      job.descriptor = .ok declared ∧
      fs₁.run (job.exportGraph c.defaults declared : Converting (StateM FileSystem) _) =
        (.ok e, fs') ∧
      job.inputSpec c.normalization declared e.graph = .ok input ∧
      compile { e.graph with name := e.model } input (c.optionsFor job) labels = .ok compiled ∧
      compiled.annotate (c.metadataFor job) = .ok a.artifact := by
  obtain ⟨labels, fs₁, -, h⟩ := FileSystem.run_bind_eq_ok.1 h
  obtain ⟨declared, fs₂, hdeclared, h⟩ := FileSystem.run_bind_eq_ok.1 h
  obtain ⟨e, fs₃, hexport, h⟩ := FileSystem.run_bind_eq_ok.1 h
  obtain ⟨input, fs₄, hinput, h⟩ := FileSystem.run_bind_eq_ok.1 h
  obtain ⟨compiled, fs₅, hcompile, h⟩ := FileSystem.run_bind_eq_ok.1 h
  -- Everything after the export leaves the file system alone.
  obtain rfl : fs₃ = fs₄ := congrArg Prod.snd (run_during.1 hinput)
  obtain rfl : fs₃ = fs₅ := congrArg Prod.snd hcompile
  obtain rfl : fs₃ = fs' := congrArg Prod.snd h
  have hannotate := Outcome.ofExcept_eq_ok.1 (congrArg Prod.fst h)
  exact ⟨labels, declared, e, input, compiled.artifact, fs₂,
    congrArg Prod.fst (run_during.1 hdeclared), hexport, congrArg Prod.fst (run_during.1 hinput),
    (Exported.compile_eq_ok.1 (congrArg Prod.fst hcompile)).1,
    (Compiled.annotate_eq_ok.1 hannotate).1⟩

/-- **On all routes the artifact of a job can be stored**, if the lengths of the files that the job
wrote are words. -/
theorem storable_of_annotated [NumberSource]
    (hshape : ∀ dims ∈ job.inputShape, ∀ n ∈ dims, n < Word.modulus) (hsized : fs'.Sized)
    (h : fs.run (c.annotated job : Converting (StateM FileSystem) _) = (.ok a, fs')) :
    a.artifact.Storable := by
  obtain ⟨_, declared, e, _, _, _, hdescriptor, hexport, -, hcompile, hannotate⟩ :=
    exists_of_annotated h
  have hdims := Job.dims_of_descriptor hshape hdescriptor
  have he := Job.storable_of_exportGraph hdims hsized hexport
  have hnamed : ({ e.graph with name := e.model } : Graph Binary32).Storable :=
    ⟨he.input, he.outputAxes, he.ops, he.params⟩
  exact (Artifact.storable_of_compile hnamed hcompile).annotate hannotate

/-- Of the numbers that the artifact of a job is stored with, the configuration gives the biases of
an image. -/
theorem singles_of_annotated [NumberSource]
    (h : fs.run (c.annotated job : Converting (StateM FileSystem) _) = (.ok a, fs')) :
    a.artifact.input.singles =
      if job.input = .image then
        1 / Scalar.count 255 :: InputSpec.channelBias c.normalization job.layout
      else [] := by
  obtain ⟨_, _, _, _, _, _, -, -, hinput, hcompile, hannotate⟩ := exists_of_annotated h
  obtain ⟨-, _, -, rfl⟩ := compile_eq_ok.1 hcompile
  obtain ⟨-, -, hartifact⟩ := Artifact.annotate_eq_ok.1 hannotate
  rw [hartifact]
  exact Job.singles_of_inputSpec hinput

/-- All numbers in the header of the artifact of a job are finite if those of its operations are,
and the biases that the configuration gives. -/
theorem finite_of_annotated [NumberSource]
    (h : fs.run (c.annotated job : Converting (StateM FileSystem) _) = (.ok a, fs')) :
    (∀ x ∈ a.artifact.singles, x.isFinite) ↔
      (∀ x ∈ a.artifact.graph.toTopology.singles, x.isFinite) ∧
        (job.input = .image →
          ∀ x ∈ InputSpec.channelBias c.normalization job.layout, x.isFinite) := by
  have hscale : (1 / Scalar.count 255 : Binary32).isFinite = true := by decide
  rw [Artifact.singles, List.forall_mem_append, singles_of_annotated h]
  refine and_congr_right fun _ => ?_
  by_cases himage : job.input = .image
  · simp [himage, hscale]
  · simp [himage]

end BatchConfig

/-! ### What was stored -/

/-- What is assumed of the writers of containers and of decimals: the header of the artifact is not
too long to be read, and its finite numbers are read back. -/
structure Artifact.Printable (a : Artifact) : Prop where
  header : (Bytes.ofString (Container.headerText kind a.headerToJson.render
    a.graph.params)).length ≤ Container.maxHeader
  readsBack : ∀ x ∈ a.singles, x.isFinite → Json.ReadsBack x

namespace Artifact

variable {a : Artifact} {fs fs' : FileSystem} {path : String}

theorem Storable.fits (ha : a.Storable) (hprint : a.Printable)
    (hsize : a.encode.length < Word.modulus) :
    Container.Fits kind a.headerToJson.render a.graph.params := by
  have hparams : ∀ e ∈ a.graph.params.entries, Container.Storable e.1 e.2 := fun e he =>
    ha.graph.params e.1 e.2 (Table.find?_eq_some_iff.2 he)
  refine ⟨?_, fun e he => Tensor.built_iff_wellFormed.2 (hparams e he).wellFormed,
    fun e he => (hparams e he).extents, hprint.header, hsize⟩
  rw [Table.contains, Option.isSome_eq_false_iff, Option.isNone_iff_eq_none,
    Option.eq_none_iff_forall_ne_some]
  exact fun t ht => (ha.graph.params _ t ht).unreserved rfl

/-- **Storable artifacts are read back exactly if the numbers in their headers are finite.** -/
theorem Storable.decode_encode_eq_ok (ha : a.Storable) (hprint : a.Printable)
    (hsize : a.encode.length < Word.modulus) (found : Artifact) :
    decode a.encode = .ok found ↔ found = a ∧ ∀ x ∈ a.singles, x.isFinite := by
  have hfits := ha.fits hprint hsize
  constructor
  · intro h
    have hfinite := finite_of_decode_encode ha.counts hprint.readsBack hfits h
    have hnumbers : Representable a.counts a.singles :=
      ⟨ha.counts, hfinite, fun x hx => hprint.readsBack x hx (hfinite x hx)⟩
    rw [decode_encode ha.valid hnumbers hfits] at h
    exact ⟨(Except.ok.inj h).symm, hfinite⟩
  · rintro ⟨rfl, hfinite⟩
    exact decode_encode ha.valid
      ⟨ha.counts, hfinite, fun x hx => hprint.readsBack x hx (hfinite x hx)⟩ hfits

theorem run_load : fs.run (load path : ExceptT (Fault ConvertError) (StateM FileSystem) _) =
    (.ok a, fs') ↔ ∃ bytes, fs.read path = .ok bytes ∧ decode bytes = .ok a ∧ fs' = fs := by
  unfold load
  rw [FileSystem.run_bind_eq_ok]
  constructor
  · rintro ⟨bytes, fs₁, hbytes, hresult⟩
    obtain ⟨hread, rfl⟩ := run_modelBytes.1 (FileSystem.run_adapt_eq_ok.1 hbytes)
    obtain ⟨hdecode, rfl⟩ := Prod.mk.inj hresult
    exact ⟨bytes, hread, hdecode, rfl⟩
  · rintro ⟨bytes, hread, hdecode, rfl⟩
    exact ⟨bytes, fs', FileSystem.run_adapt_eq_ok.2 (run_modelBytes.2 ⟨hread, rfl⟩),
      Prod.ext hdecode rfl⟩

end Artifact

/-- **A stored artifact is loaded exactly if the numbers in its header are finite.** -/
theorem Annotated.load_of_persist {a : Annotated} {fs fs' fs'' : FileSystem} {path stored : String}
    {found : Artifact} (ha : a.artifact.Storable) (hprint : a.artifact.Printable)
    (hsized : fs'.Sized)
    (h : fs.run (a.persist path : Converting (StateM FileSystem) _) = (.ok stored, fs')) :
    fs'.run (Artifact.load stored : ExceptT (Fault ConvertError) (StateM FileSystem) _) =
        (.ok found, fs'') ↔
      found = a.artifact ∧ fs'' = fs' ∧ ∀ x ∈ a.artifact.singles, x.isFinite := by
  obtain ⟨_, fs₁, hsave, hdone⟩ := FileSystem.run_bind_eq_ok.1 h
  obtain ⟨hpath, rfl⟩ := Prod.mk.inj hdone
  obtain rfl := Except.ok.inj hpath
  have hread := FileSystem.read_of_replace (run_during.1 hsave)
  have hdecode := ha.decode_encode_eq_ok hprint (hsized.length_lt hread) found
  rw [Artifact.run_load, hread]
  constructor
  · rintro ⟨bytes, hbytes, hfound, hfs⟩
    obtain rfl := Except.ok.inj hbytes
    obtain ⟨hsame, hfinite⟩ := hdecode.1 hfound
    exact ⟨hsame, hfs, hfinite⟩
  · rintro ⟨hsame, hfs, hfinite⟩
    exact ⟨_, rfl, hdecode.2 ⟨hsame, hfinite⟩, hfs⟩

/-!
### A batch of one job

The job takes a graph from a bundle and stores its artifact beside it, whatever the statistics of
the batch are.
-/

namespace BatchConfig.Flat

/-- A graph that flattens images of one pixel. -/
def graph : Graph Binary32 where
  name := "g"
  input := ⟨"input", ⟨[1, 3, 1, 1]⟩, [0]⟩
  output := ⟨"output", ⟨[1, 3]⟩, [0]⟩
  nodes := [⟨"flat", .flatten, "input", [], "output", ⟨[1, 3]⟩⟩]
  params := .empty

/-- A bundle of the graph. -/
def files : FileSystem := ⟨[(["g.bundle"], .file (Bundle.encode graph))], [], "7"⟩

def job : Job :=
  { Job.ofSource "m" "g.bundle" with route := .bundle, output := some "m.mlpack" }

def metadata : Metadata := ⟨"", none, "flat", "1"⟩

def config (n : Normalization) : BatchConfig := ⟨.standard, some metadata, n, [job]⟩

/-- What the job compiles, before it is annotated. -/
def compiled (n : Normalization) : Artifact where
  name := "m"
  graph := { graph with name := "m" }
  input := .image "input" ⟨[1, 3, 1, 1]⟩ .rgb (1 / Scalar.count 255) (InputSpec.channelBias n .rgb)
  labels := none
  options := Preset.classifier.options
  passes := []
  metadata := none

def artifact (n : Normalization) : Artifact := { compiled n with metadata := some metadata }

variable {n : Normalization}

theorem check_config (hn : n.valid) : (config n).check = .ok () := by
  have hname : Text.allBlank "m" = false := by decide
  rw [check, show (config n).normalization.valid = true from hn]
  simp [config, job, checkJob, Job.ofSource, hname, Job.hasBothLabels]

theorem fits_bundle :
    Container.Fits Bundle.kind (Bundle.headerToJson graph.toTopology).render graph.params :=
  .of_weight (by decide) (by decide) (by decide) (by decide) (by decide)

theorem sized_files : files.Sized := by
  refine List.forall_mem_singleton.2 ?_
  rintro _ ⟨⟩
  exact fits_bundle.file

theorem plain_source : Path.Plain "g.bundle" := by decide

theorem plain_output : Path.Plain "m.mlpack" := by decide

theorem temporary_output : temporary "m.mlpack" files.tag = "m.mlpack.tmp7" := by
  rw [temporary, plain_output.withFileName, plain_output.fileName?]
  rfl

theorem plain_temporary : Path.Plain (temporary "m.mlpack" files.tag) := by
  rw [temporary_output]
  decide

theorem read_source : files.read "g.bundle" = .ok (Bundle.encode graph) :=
  FileSystem.read_eq_ok.2 ⟨["g.bundle"],
    FileSystem.resolveFile_eq_ok.2 ⟨FileSystem.resolve_plain plain_source rfl, rfl⟩⟩

/-- The bundle is loaded from all paths at which it is read. -/
theorem run_loadBundle {fs : FileSystem} {path : String}
    (hread : fs.read path = .ok (Bundle.encode graph)) :
    fs.run (Bundle.load path : ExceptT (Fault ModelError) (StateM FileSystem) _) =
      (.ok graph, fs) := by
  have hdecode : Bundle.decode (Bundle.encode graph) = .ok graph :=
    Bundle.decode_encode ⟨by decide, by decide, by decide⟩ fits_bundle
  have hvalid : graph.validate = .ok graph := Graph.validate_eq_ok.2 ⟨by decide, rfl⟩
  refine FileSystem.run_bind_eq_ok.2
    ⟨_, fs, FileSystem.run_adapt_eq_ok.2 (run_modelBytes.2 ⟨hread, rfl⟩), ?_⟩
  rw [FileSystem.run_ofResult, hdecode, Outcome.liftM_eq_ofExcept, Outcome.ofExcept_ok,
    Outcome.ok_bind, hvalid]

theorem inputSpec_job (hn : n.valid) :
    job.inputSpec n none graph = .ok (artifact n).input := by
  have himage : InputSpec.ofImage "input" ⟨1, 3, 1, 1, .f32⟩ n .rgb = .ok (artifact n).input :=
    InputSpec.ofImage_eq_ok.2 ⟨hn, rfl, rfl⟩
  simp only [Job.inputSpec, show job.input = .image from rfl,
    show Descriptor.ofDims graph.input.shape.dims = .ok ⟨1, 3, 1, 1, .f32⟩ from rfl,
    Outcome.ok_bind, show graph.input.name = "input" from rfl, show job.layout = .rgb from rfl,
    himage]

/-- The metadata mentions no model. -/
theorem describe_metadata (name : String) : metadata.describe name = metadata := by
  rw [Metadata.describe, Metadata.renderDescription,
    Path.splitOn_of_not_mem (by decide) (by decide)]
  rfl

theorem annotate_compiled : (compiled n).annotate metadata = .ok (artifact n) := by
  have hname : Text.allBlank (compiled n).name = false := by
    change Text.allBlank "m" = false
    decide
  refine Artifact.annotate_eq_ok.2 ⟨hname, rfl, ?_⟩
  rw [describe_metadata]
  rfl

theorem run_annotated [NumberSource] (hn : n.valid) :
    files.run ((config n).annotated job : Converting (StateM FileSystem) _) =
      (.ok ⟨"m", artifact n⟩, files) := by
  have hexport : files.run
      (job.exportGraph (config n).defaults none : Converting (StateM FileSystem) _) =
        (.ok ⟨"m", graph⟩, files) :=
    FileSystem.run_bind_eq_ok.2
      ⟨_, _, run_within.2 (FileSystem.run_adapt_eq_ok.2 (run_loadBundle read_source)), rfl⟩
  have hcompile : (⟨"m", graph⟩ : Exported).compile (artifact n).input
      ((config n).optionsFor job) none = .ok ⟨"m", compiled n⟩ := rfl
  have hannotate : (⟨"m", compiled n⟩ : Compiled).annotate ((config n).metadataFor job) =
      .ok ⟨"m", artifact n⟩ := Compiled.annotate_eq_ok.2 ⟨annotate_compiled, rfl⟩
  exact FileSystem.run_bind_eq_ok.2 ⟨none, files, rfl,
    FileSystem.run_bind_eq_ok.2 ⟨none, files, rfl,
    FileSystem.run_bind_eq_ok.2 ⟨_, _, hexport,
    FileSystem.run_bind_eq_ok.2 ⟨_, _, run_during.2 (Prod.ext (inputSpec_job hn) rfl),
    FileSystem.run_bind_eq_ok.2 ⟨_, files, Prod.ext hcompile rfl,
    Prod.ext (Outcome.ofExcept_eq_ok.2 hannotate) rfl⟩⟩⟩⟩⟩

/-- The files after the job. -/
def stored (n : Normalization) : FileSystem :=
  (files.erase ["m.mlpack.tmp7"]).put ["m.mlpack"] (.file (artifact n).encode)

theorem run_persist : files.run
    ((⟨"m", artifact n⟩ : Annotated).persist "m.mlpack" : Converting (StateM FileSystem) _) =
      (.ok "m.mlpack", stored n) := by
  have hfree : ∀ name, files.find? [name] ≠ some .directory := by
    intro name
    simp only [files, FileSystem.find?, List.lookup_cons, List.lookup_nil]
    split <;> simp
  have hreplace := FileSystem.run_replace (artifact n).encode plain_output plain_temporary rfl
    (hfree _) (hfree _)
  rw [temporary_output] at hreplace
  exact FileSystem.run_bind_eq_ok.2 ⟨(), _, run_during.2 hreplace, rfl⟩

theorem run_job [NumberSource] (hn : n.valid) : files.run
    ((config n).runJob job : Converting (StateM FileSystem) _) = (.ok "m.mlpack", stored n) := by
  rw [runJob_eq]
  exact FileSystem.run_bind_eq_ok.2 ⟨_, _, run_annotated hn, run_persist⟩

/-- The statistics of the usual training images but for the means, of which one is infinite. -/
def unbounded : Normalization := ⟨⟨⟨0x7f800000⟩, 0, 0⟩, Normalization.standard.std⟩

end BatchConfig.Flat

/-! ### Loading what a job stored -/

namespace BatchConfig

variable {c : BatchConfig} {job : Job} {fs fs' : FileSystem} {path : String}

/-- **Which stored artifacts are loaded.** A job that ends well has stored the artifact that its
stages gave. Loading that file gives the very same artifact, with its name, input, labels, options,
passes, metadata, topology and parameters, and it succeeds exactly if all numbers in the header are
finite: the `ε` of the batch normalisations that folding left, and for an image the biases that the
configuration gives. This holds of every configuration, be it accepted by its check or not. -/
theorem load_of_runJob [NumberSource]
    (hshape : ∀ dims ∈ job.inputShape, ∀ n ∈ dims, n < Word.modulus)
    (hrun : fs.run (c.runJob job : Converting (StateM FileSystem) _) = (.ok path, fs')) :
    ∃ a fs₁, fs.run (c.annotated job : Converting (StateM FileSystem) _) = (.ok a, fs₁) ∧
      (fs₁.Sized → fs'.Sized → a.artifact.Printable → ∀ found fs'',
        (fs'.run (Artifact.load path : ExceptT (Fault ConvertError) (StateM FileSystem) _) =
            (.ok found, fs'') ↔
          found = a.artifact ∧ fs'' = fs' ∧
            (∀ x ∈ a.artifact.graph.toTopology.singles, x.isFinite) ∧
            (job.input = .image →
              ∀ x ∈ InputSpec.channelBias c.normalization job.layout, x.isFinite))) := by
  rw [runJob_eq] at hrun
  obtain ⟨a, fs₁, hannotated, hpersist⟩ := FileSystem.run_bind_eq_ok.1 hrun
  refine ⟨a, fs₁, hannotated, fun hsized₁ hsized hprint found fs'' => ?_⟩
  have hstorable := storable_of_annotated hshape hsized₁ hannotated
  rw [← finite_of_annotated hannotated]
  exact Annotated.load_of_persist hstorable hprint hsized hpersist

attribute [local instance] Export.zeroSource

/-- With the usual statistics the artifact of the job is loaded. -/
theorem load_of_runJob_flat :
    ∃ fs', Flat.files.run
        ((Flat.config .standard).runJob Flat.job : Converting (StateM FileSystem) _) =
          (.ok "m.mlpack", fs') ∧
      fs'.run (Artifact.load "m.mlpack" : ExceptT (Fault ConvertError) (StateM FileSystem) _) =
        (.ok (Flat.artifact .standard), fs') := by
  have hvalid : Normalization.standard.valid = true := by decide +kernel
  have hfits : Container.Fits Artifact.kind (Flat.artifact .standard).headerToJson.render
      (Flat.artifact .standard).graph.params :=
    .of_weight (by decide +kernel) (by decide) (by decide) (by decide +kernel) (by decide +kernel)
  have hrun := Flat.run_job hvalid
  obtain ⟨a, fs₁, hannotated, hload⟩ := load_of_runJob (by simp [Flat.job, Job.ofSource]) hrun
  obtain ⟨ha, rfl⟩ := Prod.mk.inj ((Flat.run_annotated hvalid).symm.trans hannotated)
  obtain rfl := Except.ok.inj ha
  have hbiases : ∀ x ∈ InputSpec.channelBias .standard .rgb, x.isFinite := by decide +kernel
  exact ⟨_, hrun, (hload Flat.sized_files (Flat.sized_files.erase.put hfits.file)
    ⟨hfits.header, by decide +kernel⟩ _ _).2 ⟨rfl, rfl, by decide, fun _ => hbiases⟩⟩

/-- With an infinite mean the batch is accepted and the artifact of the job is stored, and it cannot
be loaded. -/
theorem not_load_of_infinite_mean :
    (Flat.config Flat.unbounded).check = .ok () ∧ Flat.job ∈ (Flat.config Flat.unbounded).jobs ∧
      ∃ fs', Flat.files.run
          ((Flat.config Flat.unbounded).runJob Flat.job : Converting (StateM FileSystem) _) =
            (.ok "m.mlpack", fs') ∧
        ∀ a fs'', fs'.run
            (Artifact.load "m.mlpack" : ExceptT (Fault ConvertError) (StateM FileSystem) _) ≠
          (.ok a, fs'') := by
  have hvalid : Flat.unbounded.valid = true := by decide +kernel
  have hfits : Container.Fits Artifact.kind (Flat.artifact Flat.unbounded).headerToJson.render
      (Flat.artifact Flat.unbounded).graph.params :=
    .of_weight (by decide +kernel) (by decide) (by decide) (by decide +kernel) (by decide +kernel)
  have hstorable := storable_of_annotated (by simp [Flat.job, Job.ofSource]) Flat.sized_files
    (Flat.run_annotated hvalid)
  have hbias : ¬∀ x ∈ (Flat.artifact Flat.unbounded).singles, x.isFinite := by decide +kernel
  refine ⟨Flat.check_config hvalid, List.mem_singleton_self _, _, Flat.run_job hvalid, ?_⟩
  intro a fs'' hload
  obtain ⟨-, -, hfinite⟩ := (Annotated.load_of_persist hstorable ⟨hfits.header, by decide +kernel⟩
    (Flat.sized_files.erase.put hfits.file) Flat.run_persist).1 hload
  exact hbias hfinite

end BatchConfig

end NetPack
