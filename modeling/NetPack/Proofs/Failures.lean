import NetPack.Proofs.BatchResults

/-!
# What a failed job leaves

A file is replaced by filling a temporary one beside it and moving that one. As long as it was not
moved, only the temporary file has changed (`FileSystem.keepsFailing_replace`), and that is not the
file itself (`FileSystem.keepsFailing_target`). Storing the artifact is the last thing that a job
does, and before it at most the exchange file is replaced (`Job.keeps_annotated`). So a job that
fails leaves the file at its artifact path as it was (`BatchConfig.fileAt_of_failed`), unless the
exchange file was put there: nothing keeps a configuration from giving both files one path, and an
artifact whose name ends in `.onnx` has the path of its exchange file if nothing else is said
(`BatchConfig.not_forall_fileAt_of_failed`).
-/

namespace NetPack

open Converting FileStore

namespace FileSystem

variable {ε α β : Type} {fs fs' : FileSystem} {path temp : String} {bytes : Bytes}
  {F D : Location → Prop}

/-! ### Computations that fail -/

/-- A computation goes on to have a property of the files if it fails. -/
def KeepsFailing (Q : FileSystem → Prop) (x : ExceptT ε (StateM FileSystem) α) : Prop :=
  ∀ fs e fs', Q fs → fs.run x = (.error e, fs') → Q fs'

section KeepsFailing

variable {Q : FileSystem → Prop}

theorem Keeps.failing {x : ExceptT ε (StateM FileSystem) α} (h : Keeps Q x) : KeepsFailing Q x := by
  intro fs e fs' hfs hrun
  have hkept := h fs hfs
  rwa [hrun] at hkept

theorem Keeps.bind_failing {x : ExceptT ε (StateM FileSystem) α}
    {f : α → ExceptT ε (StateM FileSystem) β} (hx : Keeps Q x) (hf : ∀ a, KeepsFailing Q (f a)) :
    KeepsFailing Q (x >>= f) := by
  intro fs e fs' hfs hrun
  have hkept := hx fs hfs
  rw [run_bind] at hrun
  rcases hfirst : fs.run x with ⟨e' | a, fs₁⟩
  · rw [hfirst] at hrun hkept
    exact (Prod.mk.inj hrun).2 ▸ hkept
  · rw [hfirst] at hrun hkept
    exact hf a fs₁ e fs' hkept hrun

theorem KeepsFailing.adapt {ε' : Type} {x : ExceptT ε (StateM FileSystem) α}
    (h : KeepsFailing Q x) (f : ε → ε') : KeepsFailing Q (ExceptT.adapt f x) := by
  intro fs e fs' hfs hrun
  have hadapt : fs.run (ExceptT.adapt f x) = ((fs.run x).1.mapError f, (fs.run x).2) := rfl
  rw [hadapt] at hrun
  rcases hx : fs.run x with ⟨cause | a, fs₁⟩
  · rw [hx] at hrun
    exact (Prod.mk.inj hrun).2 ▸ h fs cause fs₁ hfs hx
  · rw [hx] at hrun
    cases (Prod.mk.inj hrun).1

theorem KeepsFailing.bind_pure {x : ExceptT ε (StateM FileSystem) α} (h : KeepsFailing Q x)
    (f : α → β) : KeepsFailing Q (x >>= fun a => pure (f a)) := by
  intro fs e fs' hfs hrun
  rw [run_bind] at hrun
  rcases hx : fs.run x with ⟨cause | a, fs₁⟩
  · rw [hx] at hrun
    exact (Prod.mk.inj hrun).2 ▸ h fs cause fs₁ hfs hx
  · rw [hx] at hrun
    cases (Prod.mk.inj hrun).1

theorem keepsFailing_tag {tag : String} (htag : ∀ fs, Q fs → fs.tag = tag)
    {f : String → ExceptT ε (StateM FileSystem) α} (h : KeepsFailing Q (f tag)) :
    KeepsFailing Q ((liftM (FileStore.tag : StateM FileSystem String) :
      ExceptT ε (StateM FileSystem) String) >>= f) := by
  intro fs e fs' hfs hrun
  change fs.run (f fs.tag) = (.error e, fs') at hrun
  rw [htag fs hfs] at hrun
  exact h fs e fs' hfs hrun

/-- A step on files that fails changes nothing. -/
theorem keepsFailing_step {s : FileStep} (h : ∀ p, s ≠ .createDirectories p) :
    KeepsFailing Q (step s : ExceptT FileError (StateM FileSystem) Unit) := by
  intro fs e fs' hfs hrun
  change fs.perform s = (.error e, fs') at hrun
  have hsame : fs' = fs := by
    cases s with
    | createDirectories p => exact absurd rfl (h p)
    | create p => exact eq_of_attempt_eq_error hrun
    | append p bytes => exact eq_of_attempt_eq_error hrun
    | sync p => exact eq_of_attempt_eq_error hrun
    | rename p q => exact eq_of_attempt_eq_error hrun
    | remove p => exact eq_of_attempt_eq_error hrun
  exact hsame ▸ hfs

end KeepsFailing

/-! ### Replacing a file in vain -/

/-- If the file could not be filled and moved, writing it ends with that failure. -/
theorem keepsFailing_writeBeside {Q : FileSystem → Prop} {tag : String}
    (htag : ∀ fs, Q fs → fs.tag = tag)
    (hfill : KeepsFailing Q (fillAndMove path (temporary path tag) fun write => write bytes :
      ExceptT FileError (StateM FileSystem) Unit))
    (hremove : ∀ fs, Q fs → Q (fs.perform (.remove (temporary path tag))).2) :
    KeepsFailing Q (writeBeside path bytes) := by
  refine keepsFailing_tag htag ?_
  intro fs e fs' hfs hrun
  rw [run_attempted] at hrun
  rcases hfilled : fs.run (fillAndMove path (temporary path tag) fun write => write bytes)
    with ⟨cause | _, fs₁⟩
  · rw [hfilled] at hrun
    have hfs' : fs' = (fs₁.perform (.remove (temporary path tag))).2 :=
      (congrArg Prod.snd hrun).symm
    exact hfs' ▸ hremove fs₁ (hfill fs cause fs₁ hfs hfilled)
  · rw [hfilled] at hrun
    cases (Prod.mk.inj hrun).1

/-- **If a file cannot be replaced, at most the temporary file has changed.** -/
theorem keepsFailing_replace (htemp : F (fs.destination (temporary path fs.tag))) :
    KeepsFailing (Changes F (fun _ => True) fs)
      (replace path bytes : ExceptT ConvertError (StateM FileSystem) Unit) := by
  have hstep : ∀ s : FileStep, s.paths ⊆ [temporary path fs.tag] →
      ∀ fs₁, Changes F (fun _ => True) fs fs₁ → Changes F (fun _ => True) fs (fs₁.perform s).2 := by
    intro s hpaths fs₁ h₁
    refine h₁.trans (changes_perform (fun p hp => ?_) fun _ _ _ _ => .inr trivial)
    rw [h₁.destination, List.mem_singleton.1 (hpaths hp)]
    exact htemp
  have hkeeps : ∀ s : FileStep, s.paths ⊆ [temporary path fs.tag] →
      Keeps (Changes F (fun _ => True) fs)
        (step s : ExceptT FileError (StateM FileSystem) Unit) :=
    fun s hs => keeps_step (hstep s hs)
  have hfill : KeepsFailing (Changes F (fun _ => True) fs)
      (fillAndMove path (temporary path fs.tag) fun write => write bytes :
        ExceptT FileError (StateM FileSystem) Unit) :=
    (hkeeps (.create _) (by simp [FileStep.paths])).bind_failing fun _ =>
      (hkeeps (.append _ _) (by simp [FileStep.paths])).bind_failing fun _ =>
        (hkeeps (.sync _) (by simp [FileStep.paths])).bind_failing fun _ =>
          keepsFailing_step (by simp)
  have hway : Keeps (Changes F (fun _ => True) fs) (makeWay path) := by
    unfold makeWay
    split
    · exact (hkeeps (.createDirectories _) (by simp [FileStep.paths])).adapt _
    · exact keeps_pure _
  rw [replace_eq]
  split
  · exact (keeps_throw _).failing
  · exact hway.bind_failing fun _ => keepsFailing_writeBeside (fun _ h => h.tag) hfill
      (hstep (.remove _) (by simp [FileStep.paths]))

/-- So the file is as it was: the temporary one is another. -/
theorem keepsFailing_target (htag : '/' ∉ fs.tag.toList) :
    KeepsFailing (Changes (· ≠ fs.destination path) (fun _ => True) fs)
      (replace path bytes : ExceptT ConvertError (StateM FileSystem) Unit) := by
  by_cases hname : (Path.fileName? path).isSome
  · obtain ⟨l⟩ := Path.exists_layout hname
    exact keepsFailing_replace (destination_temporary_ne l htag)
  · rw [replace_of_not_named hname]
    exact (keeps_throw _).failing

end FileSystem

open FileSystem

namespace BatchConfig

variable {c : BatchConfig} {job : Job} {fs fs' : FileSystem} {fault : Fault Failure}

theorem changes_of_failed [NumberSource] (htag : '/' ∉ fs.tag.toList)
    (hexchange : job.route = .exchange →
      fs.Avoids (· = fs.destination (job.outputPath c.defaults)) (job.exchangePath c.defaults))
    (h : fs.run (c.runJob job : Converting (StateM FileSystem) _) = (.error fault, fs')) :
    Changes (· ≠ fs.destination (job.outputPath c.defaults)) (fun _ => True) fs fs' := by
  have hpersist : ∀ a : Annotated, KeepsFailing
      (Changes (· ≠ fs.destination (job.outputPath c.defaults)) (fun _ => True) fs)
      (a.persist (job.outputPath c.defaults) : Converting (StateM FileSystem) _) := fun a =>
    ((keepsFailing_target htag).adapt _).bind_pure _
  have hrun : KeepsFailing
      (Changes (· ≠ fs.destination (job.outputPath c.defaults)) (fun _ => True) fs)
      (c.runJob job : Converting (StateM FileSystem) _) := by
    rw [runJob_eq]
    refine (Job.keeps_annotated fun hroute bytes => ?_).bind_failing hpersist
    exact keeps_changes (hexchange hroute).1 (hexchange hroute).2 fun _ _ _ _ => .inr trivial
  exact hrun fs fault fs' (.refl fs) h

/-- **A failed job leaves the file at its artifact path as it was**, or missing if there was none,
whatever the route is and in whichever stage it fails or breaks off. On the route through an
exchange file this holds if that file and its temporary one are not at the path of the artifact. -/
theorem fileAt_of_failed [NumberSource] (htag : '/' ∉ fs.tag.toList)
    (hexchange : job.route = .exchange →
      fs.Avoids (· = fs.destination (job.outputPath c.defaults)) (job.exchangePath c.defaults))
    (h : fs.run (c.runJob job : Converting (StateM FileSystem) _) = (.error fault, fs')) :
    fs'.fileAt (fs.destination (job.outputPath c.defaults)) =
        fs.fileAt (fs.destination (job.outputPath c.defaults)) ∧
      ∀ bytes, fs.read (job.outputPath c.defaults) = .ok bytes →
        fs'.read (job.outputPath c.defaults) = .ok bytes := by
  have hchanges := changes_of_failed htag hexchange h
  refine ⟨hchanges.fileAt fun hne => hne rfl, fun bytes hread => ?_⟩
  obtain ⟨place, hfile⟩ := read_eq_ok.1 hread
  have hplace := (not_directory_of_resolveFile hfile).2
  exact read_eq_ok.2 ⟨place, hchanges.resolveFile (fun hne => hne hplace.symm) hfile⟩

end BatchConfig

/-!
### A job that fails behind its exchange file

The model of a checkpoint is recorded and goes through an exchange file. Then the options are
refused, because no platform has them together.
-/

namespace BatchConfig.Recorded

/-- A manifest with one layer, which flattens. -/
def manifest : Manifest where
  name := "m"
  architecture := ""
  dtype := "f32"
  layers := [⟨"flat", "Flatten", [], none, none, none, none, none⟩]

/-- The model that is built from it. -/
def model : SequentialModel Binary32 := ⟨"m", [⟨"flat", .op .flatten, []⟩], .eval⟩

def graph : Graph Binary32 := { Flat.graph with name := "m" }

theorem read_manifest : Manifest.read manifest.toJson = .ok manifest := rfl

theorem faithful_manifest (room : Nat) : Json.Faithful (room + 4) manifest.toJson := by
  have hlayer : ∀ l ∈ manifest.layers, Json.Faithful (room + 2) l.toJson := by
    simp [manifest, LayerSpec.toJson, Json.members, Json.faithful_object, Json.faithful_string,
      Json.faithful_strings]
  rw [Manifest.toJson, Json.faithful_object]
  simp [Json.faithful_string, Json.faithful_array]
  exact hlayer

theorem parse_manifest : Manifest.parse manifest.toJson.render = .ok manifest := by
  rw [Manifest.parse, Json.decode_render (faithful_manifest 123), read_manifest]

theorem validate_manifest : manifest.validate = .ok () := rfl

theorem build_manifest : SequentialModel.build manifest .empty = .ok model := rfl

theorem exportGraph_model [NumberSource] : Export.exportGraph model.toModel
    ⟨1, 3, 1, 1, .f32⟩ = .ok graph := rfl

/-- A container without tensors. -/
def container : Bytes := Container.encode "source" (Json.object []).render .empty

theorem weightsOf_manifest (path : String) :
    SequentialModel.weightsOf manifest path container = .ok .empty := by
  have hfits : Container.Fits "source" (Json.object []).render .empty :=
    .of_weight (by decide) (by decide) (by decide) (by decide) (by decide)
  rw [SequentialModel.weightsOf, container, Container.index_encode hfits]
  rfl

/-- A checkpoint of the model. -/
def files : FileSystem where
  nodes := [(["ckpt"], .directory),
    (["model.json", "ckpt"], .file (Bytes.ofString manifest.toJson.render)),
    (["model.safetensors", "ckpt"], .file container)]
  current := []
  tag := "7"

/-- The files of the checkpoint are where their names say. -/
theorem resolve_files {name : String} (h : Path.Plain name) :
    files.resolve (Path.join "ckpt" name) = .ok [name, "ckpt"] :=
  resolve_join_plain (by decide) h rfl rfl

theorem run_load : files.run (SequentialModel.load "ckpt" :
    ExceptT ModelError (StateM FileSystem) _) = (.ok model, files) := by
  have hmanifest : files.read (Path.join "ckpt" SequentialModel.manifestFile) =
      .ok (Bytes.ofString manifest.toJson.render) :=
    read_eq_ok.2 ⟨_, resolveFile_eq_ok.2 ⟨resolve_files (by decide), rfl⟩⟩
  have hweights : files.read (Path.join "ckpt" SequentialModel.weightsFile) = .ok container :=
    read_eq_ok.2 ⟨_, resolveFile_eq_ok.2 ⟨resolve_files (by decide), rfl⟩⟩
  have htext : files.run (text (Path.join "ckpt" SequentialModel.manifestFile) :
      ExceptT FileError (StateM FileSystem) _) = (.ok manifest.toJson.render, files) := by
    refine run_bind_eq_ok.2 ⟨_, files, Prod.ext hmanifest rfl, ?_⟩
    rw [Bytes.toString?_ofString]
    rfl
  refine run_bind_eq_ok.2 ⟨_, files, run_adapt_eq_ok.2 htext, ?_⟩
  refine run_bind_eq_ok.2 ⟨manifest, files, by rw [run_ofResult, parse_manifest], ?_⟩
  refine run_bind_eq_ok.2 ⟨(), files, by rw [run_ofResult, validate_manifest], ?_⟩
  refine run_bind_eq_ok.2 ⟨container, files, run_modelBytes.2 ⟨hweights, rfl⟩, ?_⟩
  refine run_bind_eq_ok.2 ⟨.empty, files, ?_, by rw [run_ofResult, build_manifest]⟩
  rw [run_ofResult, SequentialModel.weightsFile, weightsOf_manifest]

/-- A job that takes the model through an exchange file beside its artifact. -/
def job (output : String) : Job :=
  { Job.ofSource "m" "ckpt" with
    route := .exchange, inputShape := some [1, 3, 1, 1], output := some output }

/-- A configuration whose options do not fit together. -/
def config (output : String) : BatchConfig where
  defaults := { Defaults.standard with target := some .iOS13, format := some .mlProgram }
  metadata := some Flat.metadata
  normalization := .standard
  jobs := [job output]

/-- The files after the exchange file was written. -/
def exchanged : FileSystem :=
  (files.erase ["m.onnx.tmp7"]).put ["m.onnx"] (.file (Exchange.encodeGraph graph))

variable {output : String}

theorem check_config : (config output).check = .ok () := by
  have hname : Text.allBlank "m" = false := by decide
  have hvalid : Normalization.standard.valid = true := by decide
  simp [config, check, job, checkJob, Job.ofSource, hname, hvalid, Job.hasBothLabels]

theorem exchangePath_job (h : Path.Plain output) (hstem : Path.stem output = "m") :
    (job output).exchangePath (config output).defaults = "m.onnx" := by
  have hparts : Path.parts output = [output] := h.parts
  change Path.withExtension output "onnx" = "m.onnx"
  rw [Path.withExtension, hparts, h.fileName?]
  dsimp only
  rw [hstem, if_neg (by simp)]
  decide

theorem plain_exchange : Path.Plain "m.onnx" := by decide

theorem temporary_exchange : temporary "m.onnx" files.tag = "m.onnx.tmp7" := by
  rw [temporary, plain_exchange.withFileName, plain_exchange.fileName?]
  rfl

theorem run_write : files.run (Exchange.write graph "m.onnx" :
    ExceptT ConvertError (StateM FileSystem) Unit) = (.ok (), exchanged) := by
  have hfree : ∀ name, name ≠ "ckpt" → files.find? [name] ≠ some .directory := by
    intro name hname
    have hne : ([name] == ["ckpt"]) = false := by simpa using hname
    simp [files, FileSystem.find?, List.lookup_cons, hne]
  have htemp : Path.Plain (temporary "m.onnx" files.tag) := by
    rw [temporary_exchange]
    decide
  have hreplace := run_replace (Exchange.encodeGraph graph) plain_exchange htemp rfl
    (hfree _ (by decide)) (hfree _ (by rw [temporary_exchange]; decide))
  rwa [temporary_exchange] at hreplace

theorem run_exportGraph [NumberSource]
    (hpath : (job output).exchangePath (config output).defaults = "m.onnx") :
    (files.run ((job output).exportGraph (config output).defaults (some ⟨1, 3, 1, 1, .f32⟩) :
      Converting (StateM FileSystem) _)).2 = exchanged := by
  have hroute : (job output).exportRoute (config output).defaults = .exchange "m.onnx" := by
    rw [Job.exportRoute, if_pos (show (job output).route = .exchange from rfl), hpath]
  have hload : files.run (SequentialModel.load (job output).source :
      ExceptT ModelError (StateM FileSystem) _) = (.ok model, files) := run_load
  rw [Job.run_exportGraph_of_load (by simp [job]) hload, hroute]
  unfold Exported.ofModel
  rw [run_bind_of_ok (run_settle.2 ⟨exportGraph_model, rfl⟩)]
  dsimp only
  rw [run_bind_of_ok (run_during.2 run_write)]
  exact ((Exchange.reads_load _ _).adapt _).bind (fun _ => reads_pure _) exchanged

/-- The exchange file is written, and then the options are refused. -/
theorem run_failed [NumberSource]
    (hpath : (job output).exchangePath (config output).defaults = "m.onnx") :
    ∃ fault, files.run ((config output).runJob (job output) :
      Converting (StateM FileSystem) _) = (.error fault, exchanged) := by
  have hrest : (files.run ((config output).annotated (job output) :
      Converting (StateM FileSystem) _)).2 = exchanged := by
    have hlabels : files.run (during (job output).name .load (job output).loadLabels) =
        (.ok none, files) := rfl
    have hdeclared : files.run (during (job output).name .load
        (ofResult (job output).descriptor)) = (.ok (some ⟨1, 3, 1, 1, .f32⟩), files) := rfl
    unfold annotated
    rw [run_bind_of_ok hlabels, run_bind_of_ok hdeclared, run_bind_reads, run_exportGraph hpath]
    exact fun e => ((reads_ofResult _).adapt _).bind fun _ =>
      Reads.bind (fun _ => rfl) fun _ _ => rfl
  have hfails : ∀ a fs', files.run ((config output).annotated (job output) :
      Converting (StateM FileSystem) _) ≠ (.ok a, fs') := by
    intro a fs' h
    obtain ⟨_, _, _, _, _, _, -, -, -, hcompile, -⟩ := exists_of_annotated h
    cases hcompile
  rw [runJob_eq, run_bind]
  rcases hrun : files.run ((config output).annotated (job output) :
    Converting (StateM FileSystem) _) with ⟨fault | a, fs'⟩
  · rw [hrun] at hrest
    exact ⟨fault, by rw [← hrest]⟩
  · exact absurd hrun (hfails a fs')

theorem exchangePath_mlpack :
    (job "m.mlpack").exchangePath (config "m.mlpack").defaults = "m.onnx" := by
  refine exchangePath_job (by decide) ?_
  rw [Path.stem, show "m.mlpack".splitOn "." = ["m", "mlpack"] from Path.splitOn_char '.' _]
  decide

theorem exchangePath_onnx : (job "m.onnx").exchangePath (config "m.onnx").defaults = "m.onnx" := by
  refine exchangePath_job (by decide) ?_
  rw [Path.stem, show "m.onnx".splitOn "." = ["m", "onnx"] from Path.splitOn_char '.' _]
  decide

end BatchConfig.Recorded

namespace BatchConfig

open Recorded

attribute [local instance] Export.zeroSource

/-- The options are refused, and there is still no artifact beside the exchange file. -/
theorem fileAt_of_failed_recorded :
    ∃ fault fs', files.run ((config "m.mlpack").runJob (job "m.mlpack") :
        Converting (StateM FileSystem) _) = (.error fault, fs') ∧
      (fs'.fileAt ["m.onnx"]).isSome ∧ fs'.fileAt ["m.mlpack"] = none := by
  obtain ⟨fault, hrun⟩ := run_failed exchangePath_mlpack
  have hplain : Path.Plain "m.mlpack" := by decide
  have htemp : Path.Plain (temporary "m.onnx" files.tag) := by
    rw [temporary_exchange]
    decide
  have houtput : files.destination ((job "m.mlpack").outputPath (config "m.mlpack").defaults) =
      ["m.mlpack"] := destination_plain hplain
  have havoids : files.Avoids
      (· = files.destination ((job "m.mlpack").outputPath (config "m.mlpack").defaults))
      ((job "m.mlpack").exchangePath (config "m.mlpack").defaults) := by
    rw [houtput, exchangePath_mlpack, Avoids, destination_plain plain_exchange,
      destination_plain htemp, temporary_exchange]
    decide
  have hkept := (fileAt_of_failed (by decide) (fun _ => havoids) hrun).1
  rw [houtput] at hkept
  exact ⟨fault, exchanged, hrun, rfl, hkept⟩

/-- With the artifact at the path of the exchange file, the failed job leaves the exchange file in
its place. -/
theorem not_forall_fileAt_of_failed :
    ¬∀ (fs fs' : FileSystem) (c : BatchConfig) (job : Job) (fault : Fault Failure),
      '/' ∉ fs.tag.toList → c.check = .ok () → job ∈ c.jobs →
      fs.run (c.runJob job : Converting (StateM FileSystem) _) = (.error fault, fs') →
      fs'.fileAt (fs.destination (job.outputPath c.defaults)) =
        fs.fileAt (fs.destination (job.outputPath c.defaults)) := by
  intro h
  obtain ⟨fault, hrun⟩ := run_failed exchangePath_onnx
  have hkept := h files exchanged _ _ fault (by decide) check_config
    (List.mem_singleton_self _) hrun
  rw [show (job "m.onnx").outputPath (config "m.onnx").defaults = "m.onnx" from rfl,
    destination_plain plain_exchange] at hkept
  cases hkept

end BatchConfig

end NetPack
