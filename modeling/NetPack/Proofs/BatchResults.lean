import NetPack.Proofs.Frames
import NetPack.Proofs.Persistence

/-!
# Which results of a batch are kept

The jobs of a batch share one file system, and a file that a job stores replaces what was there. The
check of a configuration tells jobs apart by their names and not by their destinations, so a job can
write over the artifact of an earlier one (`BatchConfig.not_forall_kept`).

Where a job writes can be told from its ending. All stages up to the annotated artifact only read
files, with one exception: on the route through an exchange file that file is replaced
(`Job.exports_annotated`). So a job that could not be loaded has written nothing, any other one at
most its exchange file and its artifact (`Job.written`), and what lies elsewhere is spared
(`Job.spares_runJob`, `BatchConfig.spares_runJobs`). A job that is reported with a path therefore
keeps its artifact there as long as no later job has written to the same place
(`BatchConfig.kept_of_run`).
-/

namespace NetPack

open Converting FileStore

namespace FileSystem

variable {ε ε' α β : Type} {fs fs' : FileSystem}

/-! ### Computations that only read files -/

/-- The computation leaves all files as they are. -/
def Reads (x : ExceptT ε (StateM FileSystem) α) : Prop := ∀ fs : FileSystem, (fs.run x).2 = fs

theorem reads_ofResult (r : Except ε α) : Reads (ofResult r : ExceptT ε (StateM FileSystem) α) :=
  fun _ => rfl

theorem reads_pure (a : α) : Reads (pure a : ExceptT ε (StateM FileSystem) α) := fun _ => rfl

theorem reads_throw (e : ε) : Reads (throw e : ExceptT ε (StateM FileSystem) α) := fun _ => rfl

theorem reads_bytes (path : String) :
    Reads (bytes path : ExceptT FileError (StateM FileSystem) Bytes) := fun _ => rfl

theorem Reads.adapt {x : ExceptT ε (StateM FileSystem) α} (hx : Reads x) (f : ε → ε') :
    Reads (ExceptT.adapt f x) := hx

/-- What follows a computation that only reads files starts with the same files. -/
theorem Reads.cases {x : ExceptT ε (StateM FileSystem) α}
    {f : α → ExceptT ε (StateM FileSystem) β} {r : Except ε β} (hx : Reads x)
    (h : fs.run (x >>= f) = (r, fs')) :
    (∃ e, fs.run x = (.error e, fs) ∧ r = .error e ∧ fs' = fs) ∨
      ∃ a, fs.run x = (.ok a, fs) ∧ fs.run (f a) = (r, fs') := by
  have hsame := hx fs
  rw [run_bind] at h
  rcases hrun : fs.run x with ⟨e | a, fs₁⟩
  · rw [hrun] at h hsame
    obtain rfl : fs₁ = fs := hsame
    obtain ⟨rfl, rfl⟩ := Prod.mk.inj h
    exact .inl ⟨e, rfl, rfl, rfl⟩
  · rw [hrun] at h hsame
    obtain rfl : fs₁ = fs := hsame
    exact .inr ⟨a, rfl, h⟩

theorem Reads.bind {x : ExceptT ε (StateM FileSystem) α}
    {f : α → ExceptT ε (StateM FileSystem) β} (hx : Reads x) (hf : ∀ a, Reads (f a)) :
    Reads (x >>= f) := by
  intro fs
  rcases hx.cases (Prod.mk.eta (p := fs.run (x >>= f))).symm with ⟨_, -, -, hsame⟩ | ⟨a, -, hrun⟩
  · exact hsame
  · exact (congrArg Prod.snd hrun).symm.trans (hf a fs)

/-- Before a computation that only reads files, the files are as that one leaves them. -/
theorem run_bind_reads {x : ExceptT ε (StateM FileSystem) α}
    {f : α → ExceptT ε (StateM FileSystem) β} (hf : ∀ a, Reads (f a)) :
    (fs.run (x >>= f)).2 = (fs.run x).2 := by
  rw [run_bind]
  rcases fs.run x with ⟨e | a, fs₁⟩
  · rfl
  · exact hf a fs₁

theorem Reads.map {x : ExceptT ε (StateM FileSystem) α} (hx : Reads x) (f : α → β) :
    Reads (f <$> x) := by
  rw [map_eq_pure_bind]
  exact hx.bind fun a => reads_pure (f a)

theorem reads_text (path : String) :
    Reads (text path : ExceptT FileError (StateM FileSystem) String) := by
  refine (reads_bytes path).bind fun content => ?_
  split
  · exact reads_pure _
  · exact reads_throw _

end FileSystem

open FileSystem

/-! ### The stages of a job that only read files -/

theorem reads_modelBytes (path : String) :
    Reads (modelBytes path : ExceptT ModelError (StateM FileSystem) Bytes) :=
  (reads_bytes path).adapt _

theorem Bundle.reads_load (path : String) :
    Reads (load path : ExceptT (Fault ModelError) (StateM FileSystem) (Graph Binary32)) :=
  ((reads_modelBytes path).adapt _).bind fun _ => reads_ofResult _

theorem SequentialModel.reads_load (directory : String) :
    Reads (load directory : ExceptT ModelError (StateM FileSystem) _) :=
  ((reads_text _).adapt _).bind fun _ => (reads_ofResult _).bind fun _ =>
    (reads_ofResult _).bind fun _ => (reads_modelBytes _).bind fun _ =>
      (reads_ofResult _).bind fun _ => reads_ofResult _

theorem Exchange.reads_load (path : String) (batch : Nat) :
    Reads (load path batch : ExceptT (Fault ConvertError) (StateM FileSystem) _) :=
  (((reads_bytes path).adapt _).adapt _).bind fun _ => reads_ofResult _

theorem Job.reads_loadLabels (job : Job) :
    Reads (job.loadLabels : ExceptT ConvertError (StateM FileSystem) _) := by
  unfold loadLabels
  split
  · exact reads_throw _
  · exact reads_pure _
  · exact (((reads_text _).adapt _).bind fun _ => reads_pure _).map _
  · exact reads_pure _

/-! ### The files that a job writes -/

/-- The stage in which a conversion has failed. -/
def stageOf {α : Type} : Outcome Failure α → Option Stage
  | .error (.reported f) => some f.stage
  | _ => none

section Stages

variable {α β : Type} {fs fs' : FileSystem} {name : String} {stage : Stage}
  {r : Outcome Failure β}

/-- A computation that belongs to a stage fails as that stage, or the next one goes on. -/
theorem cases_during {x : ExceptT ConvertError (StateM FileSystem) α}
    {f : α → Converting (StateM FileSystem) β}
    (h : fs.run (during name stage x >>= f) = (r, fs')) :
    (stageOf r = some stage ∧ fs' = (fs.run x).2) ∨
      ∃ a fs₁, fs.run x = (.ok a, fs₁) ∧ fs₁.run (f a) = (r, fs') := by
  have hduring : fs.run (during name stage x) =
      ((fs.run x).1.mapError fun cause => .reported ⟨name, stage, cause⟩, (fs.run x).2) := rfl
  rw [run_bind, hduring] at h
  rcases hrun : fs.run x with ⟨cause | a, fs₁⟩
  · rw [hrun] at h
    obtain ⟨rfl, rfl⟩ := Prod.mk.inj h
    exact .inl ⟨rfl, rfl⟩
  · rw [hrun] at h
    exact .inr ⟨a, fs₁, rfl, h⟩

/-- If it only reads files, the next one starts with the same files. -/
theorem cases_reading {x : ExceptT ConvertError (StateM FileSystem) α}
    {f : α → Converting (StateM FileSystem) β} (hx : Reads x)
    (h : fs.run (during name stage x >>= f) = (r, fs')) :
    (stageOf r = some stage ∧ fs' = fs) ∨ ∃ a, fs.run (f a) = (r, fs') := by
  rcases cases_during h with ⟨hstage, hsame⟩ | ⟨a, fs₁, hrun, hrest⟩
  · exact .inl ⟨hstage, hsame.trans (hx fs)⟩
  · obtain rfl : fs₁ = fs := (congrArg Prod.snd hrun).symm.trans (hx fs)
    exact .inr ⟨a, hrest⟩

/-- A computation that may break off fails as its stage or breaks off, or the next one starts with
the same files. -/
theorem cases_within {x : ExceptT (Fault ConvertError) (StateM FileSystem) α}
    {f : α → Converting (StateM FileSystem) β} (hx : Reads x)
    (h : fs.run (within name stage x >>= f) = (r, fs')) :
    ((stageOf r = some stage ∨ stageOf r = none) ∧ fs' = fs) ∨
      ∃ a, fs.run (f a) = (r, fs') := by
  have hwithin : fs.run (within name stage x) =
      ((fs.run x).1.mapError (Fault.map fun cause => ⟨name, stage, cause⟩), (fs.run x).2) := rfl
  rw [run_bind, hwithin, hx fs] at h
  rcases hrun : (fs.run x).1 with fault | a
  · rw [hrun] at h
    obtain ⟨rfl, rfl⟩ := Prod.mk.inj h
    cases fault with
    | reported cause => exact .inl ⟨.inl rfl, rfl⟩
    | crash => exact .inl ⟨.inr rfl, rfl⟩
  · rw [hrun] at h
    exact .inr ⟨a, h⟩

/-- A result that belongs to a stage fails as that stage or breaks off. -/
theorem cases_settle {x : Outcome ConvertError α} {f : α → Converting (StateM FileSystem) β}
    (h : fs.run (settle name stage x >>= f) = (r, fs')) :
    ((stageOf r = some stage ∨ stageOf r = none) ∧ fs' = fs) ∨
      ∃ a, fs.run (f a) = (r, fs') := by
  have hwithin : (settle name stage x : Converting (StateM FileSystem) α) =
      within name stage (ExceptT.mk (pure x)) := by
    cases x with
    | ok a => rfl
    | error fault => cases fault <;> rfl
  rw [hwithin] at h
  exact cases_within (fun _ => rfl) h

theorem stageOf_error (fault : Fault Failure) :
    stageOf (.error fault : Outcome Failure α) = stageOf (.error fault : Outcome Failure β) := by
  cases fault <;> rfl

theorem stageOf_compile (e : Exported) (input : InputSpec) (options : CompileOptions)
    (labels : Option Labels) :
    stageOf (e.compile input options labels) = some .compile ∨
      stageOf (e.compile input options labels) = none := by
  unfold Exported.compile
  dsimp only
  split
  · exact .inr rfl
  · rename_i fault _
    cases fault with
    | reported cause => exact .inl rfl
    | crash => exact .inr rfl

theorem stageOf_annotate (c : Compiled) (metadata : Metadata) :
    stageOf (Outcome.ofExcept (c.annotate metadata)) = some .annotate ∨
      stageOf (Outcome.ofExcept (c.annotate metadata)) = none := by
  unfold Compiled.annotate
  split
  · exact .inr rfl
  · exact .inl rfl

end Stages

namespace Job

variable {α : Type} {job : Job} {d : Defaults} {fs fs' : FileSystem} {r : Outcome Failure α}

/-- What the stages up to the annotated artifact change: nothing, or the exchange file on that
route, once the model was loaded. -/
structure Exports (job : Job) (d : Defaults) (fs : FileSystem) (r : Outcome Failure α)
    (fs' : FileSystem) : Prop where
  stage : stageOf r ≠ some .persist
  files : fs' = fs ∨ job.route = .exchange ∧ stageOf r ≠ some .load ∧
    ∃ bytes, fs' = (fs.run (replace (job.exchangePath d) bytes)).2

theorem Exports.of_stage {stage : Stage} (h : stageOf r = some stage) (hne : stage ≠ .persist) :
    Exports job d fs r fs :=
  ⟨by rw [h]; simpa using hne, .inl rfl⟩

/-- Loading a model fails as that stage or breaks off, and changes nothing. -/
theorem Exports.of_loading (h : stageOf r = some .load ∨ stageOf r = none) :
    Exports job d fs r fs :=
  ⟨by rcases h with h | h <;> simp [h], .inl rfl⟩

theorem exports_ofModel [NumberSource] {name : String} {model : Model Binary32}
    {descriptor : Descriptor} {r : Outcome Failure Exported}
    (h : fs.run (Exported.ofModel name model descriptor (job.exportRoute d) :
      Converting (StateM FileSystem) _) = (r, fs')) :
    Exports job d fs r fs' ∧ stageOf r ≠ some .load := by
  unfold Exported.ofModel at h
  rcases cases_settle h with ⟨hstage, rfl⟩ | ⟨g, h⟩
  · rcases hstage with hstage | hstage
    · exact ⟨.of_stage hstage (by simp), by simp [hstage]⟩
    · exact ⟨⟨by simp [hstage], .inl rfl⟩, by simp [hstage]⟩
  · unfold exportRoute at h
    by_cases hroute : job.route = .exchange
    · rw [if_pos hroute] at h
      dsimp only at h
      -- The exchange file is written, and what comes then only reads it.
      have hfiles : ∀ fs₁, fs₁ = (fs.run (Exchange.write g (job.exchangePath d))).2 →
          stageOf r ≠ some .load → fs₁ = fs ∨ job.route = .exchange ∧ stageOf r ≠ some .load ∧
            ∃ bytes, fs₁ = (fs.run (replace (job.exchangePath d) bytes)).2 :=
        fun fs₁ hfs hload => .inr ⟨hroute, hload, _, hfs⟩
      rcases cases_during h with ⟨hstage, hfs⟩ | ⟨u, fs₁, hwrite, h⟩
      · have hload : stageOf r ≠ some .load := by simp [hstage]
        exact ⟨⟨by simp [hstage], hfiles fs' hfs hload⟩, hload⟩
      · have hfs : fs₁ = (fs.run (Exchange.write g (job.exchangePath d))).2 := by rw [hwrite]
        rcases cases_within (Exchange.reads_load _ _) h with ⟨hstage, rfl⟩ | ⟨loaded, h⟩
        · have hload : stageOf r ≠ some .load := by
            rcases hstage with hstage | hstage <;> simp [hstage]
          have hpersist : stageOf r ≠ some .persist := by
            rcases hstage with hstage | hstage <;> simp [hstage]
          exact ⟨⟨hpersist, hfiles _ hfs hload⟩, hload⟩
        · obtain ⟨rfl, rfl⟩ := Prod.mk.inj h
          exact ⟨⟨by simp [stageOf], hfiles _ hfs (by simp [stageOf])⟩, by simp [stageOf]⟩
    · rw [if_neg hroute] at h
      obtain ⟨rfl, rfl⟩ := Prod.mk.inj h
      exact ⟨⟨by simp [stageOf], .inl rfl⟩, by simp [stageOf]⟩

theorem exports_exportGraph [NumberSource] {declared : Option Descriptor}
    {r : Outcome Failure Exported}
    (h : fs.run (job.exportGraph d declared : Converting (StateM FileSystem) _) = (r, fs')) :
    Exports job d fs r fs' := by
  unfold exportGraph at h
  split at h
  · rcases cases_within ((Bundle.reads_load job.source).adapt _) h with ⟨hstage, rfl⟩ | ⟨g, h⟩
    · exact .of_loading hstage
    · obtain ⟨rfl, rfl⟩ := Prod.mk.inj h
      exact ⟨by simp [stageOf], .inl rfl⟩
  · split at h
    · rename_i descriptor
      rcases cases_reading ((SequentialModel.reads_load job.source).adapt _) h with
        ⟨hstage, rfl⟩ | ⟨model, h⟩
      · exact .of_stage hstage (by simp)
      · exact (exports_ofModel h).1
    · obtain ⟨rfl, rfl⟩ := Prod.mk.inj h
      exact .of_stage rfl (by simp)

theorem Exports.error {β : Type} {fault : Fault Failure}
    (h : Exports job d fs (.error fault : Outcome Failure α) fs') :
    Exports job d fs (.error fault : Outcome Failure β) fs' :=
  ⟨stageOf_error fault ▸ h.stage, stageOf_error fault ▸ h.files⟩

/-- Later stages that change no files. -/
theorem Exports.later {β : Type} {a : α} {r : Outcome Failure β}
    (h : Exports job d fs (.ok a : Outcome Failure α) fs')
    (hr : stageOf r = some .compile ∨ stageOf r = some .annotate ∨ stageOf r = none) :
    Exports job d fs r fs' where
  stage hr' := by rcases hr with hr | hr | hr <;> simp [hr] at hr'
  files := h.files.imp_right fun hfiles =>
    ⟨hfiles.1, fun hr' => by rcases hr with hr | hr | hr <;> simp [hr] at hr', hfiles.2.2⟩

/-- **Up to its annotated artifact a job writes at most its exchange file.** -/
theorem exports_annotated [NumberSource] {c : BatchConfig} {r : Outcome Failure Annotated}
    (h : fs.run (c.annotated job : Converting (StateM FileSystem) _) = (r, fs')) :
    Exports job c.defaults fs r fs' := by
  rcases cases_reading job.reads_loadLabels h with ⟨hstage, rfl⟩ | ⟨labels, h⟩
  · exact .of_stage hstage (by simp)
  rcases cases_reading (reads_ofResult _) h with ⟨hstage, rfl⟩ | ⟨declared, h⟩
  · exact .of_stage hstage (by simp)
  rw [run_bind] at h
  rcases hexport : fs.run (job.exportGraph c.defaults declared : Converting (StateM FileSystem) _)
    with ⟨fault | e, fs₁⟩
  · rw [hexport] at h
    obtain ⟨rfl, rfl⟩ := Prod.mk.inj h
    exact (exports_exportGraph hexport).error
  · rw [hexport] at h
    have hexports := exports_exportGraph hexport
    rcases cases_reading (reads_ofResult _) h with ⟨hstage, rfl⟩ | ⟨input, h⟩
    · exact hexports.later (.inl hstage)
    have hcompile := stageOf_compile e input (c.optionsFor job) labels
    rcases hresult : e.compile input (c.optionsFor job) labels with fault | compiled
    · rw [run_bind, hresult] at h
      obtain ⟨rfl, rfl⟩ := Prod.mk.inj h
      rw [hresult, stageOf_error] at hcompile
      exact hexports.later (hcompile.imp_right .inr)
    · rw [run_bind, hresult] at h
      obtain ⟨rfl, rfl⟩ := Prod.mk.inj h
      exact hexports.later (.inr (stageOf_annotate _ _))

theorem Exports.spares {P : Location → Prop} (h : Exports job d fs r fs')
    (hP : job.route = .exchange → stageOf r ≠ some .load → fs.Avoids P (job.exchangePath d)) :
    Spares P fs fs' := by
  rcases h.files with rfl | ⟨hroute, hload, bytes, rfl⟩
  · exact .refl fs'
  · exact spares_replace (hP hroute hload)

/-- What replacing the exchange file keeps is kept up to the annotated artifact. -/
theorem keeps_annotated [NumberSource] {c : BatchConfig} {Q : FileSystem → Prop}
    (hexchange : job.route = .exchange →
      ∀ bytes, Keeps Q (replace (job.exchangePath c.defaults) bytes)) :
    Keeps Q (c.annotated job : Converting (StateM FileSystem) _) := by
  intro fs hfs
  rcases (exports_annotated (Prod.eta (fs.run (c.annotated job))).symm).files with
    hsame | ⟨hroute, -, bytes, hwritten⟩
  · rwa [hsame]
  · rw [hwritten]
    exact hexchange hroute bytes fs hfs

/-- The paths at which a job has put files, judging by how it has ended: the exchange file on that
route, unless the job could not be loaded, and the artifact if it was stored or storing it has
failed. -/
def written (job : Job) (d : Defaults) (r : Outcome Failure String) : List String :=
  (if job.route = .exchange ∧ stageOf r ≠ some .load then [job.exchangePath d] else []) ++
    if r.isOk ∨ stageOf r = some .persist then [job.outputPath d] else []

theorem exchangePath_mem_written {r : Outcome Failure String} (hroute : job.route = .exchange)
    (hload : stageOf r ≠ some .load) : job.exchangePath d ∈ job.written d r :=
  List.mem_append_left _ (by rw [if_pos ⟨hroute, hload⟩]; exact List.mem_singleton_self _)

theorem outputPath_mem_written {r : Outcome Failure String}
    (h : r.isOk ∨ stageOf r = some .persist) : job.outputPath d ∈ job.written d r :=
  List.mem_append_right _ (by rw [if_pos h]; exact List.mem_singleton_self _)

/-- Storing an artifact replaces the file at the path, and it fails as that stage if it fails. -/
theorem cases_persist {a : Annotated} {path : String} {r : Outcome Failure String}
    (h : fs.run (a.persist path : Converting (StateM FileSystem) _) = (r, fs')) :
    (r.isOk ∨ stageOf r = some .persist) ∧
      fs' = (fs.run (replace path a.artifact.encode)).2 := by
  rcases cases_during h with ⟨hstage, hsame⟩ | ⟨u, fs₁, hrun, h⟩
  · exact ⟨.inr hstage, hsame⟩
  · obtain ⟨rfl, rfl⟩ := Prod.mk.inj h
    exact ⟨.inl rfl, (congrArg Prod.snd hrun).symm⟩

/-- **A job spares all files to which the paths that it has written do not lead.** -/
theorem spares_runJob [NumberSource] {c : BatchConfig} {r : Outcome Failure String}
    {P : Location → Prop} (h : fs.run (c.runJob job : Converting (StateM FileSystem) _) = (r, fs'))
    (hP : ∀ path ∈ job.written c.defaults r, fs.Avoids P path) : Spares P fs fs' := by
  rw [BatchConfig.runJob_eq, run_bind] at h
  rcases hannotated : fs.run (c.annotated job : Converting (StateM FileSystem) _)
    with ⟨fault | a, fs₁⟩
  · rw [hannotated] at h
    obtain ⟨rfl, rfl⟩ := Prod.mk.inj h
    exact (exports_annotated hannotated).error.spares fun hroute hload =>
      hP _ (exchangePath_mem_written hroute hload)
  · rw [hannotated] at h
    obtain ⟨hend, rfl⟩ := cases_persist h
    have hload : stageOf r ≠ some .load := by
      rcases hend with hok | hstage
      · obtain ⟨path, rfl⟩ := Outcome.exists_of_isOk hok
        simp [stageOf]
      · simp [hstage]
    have hexports : Spares P fs fs₁ := (exports_annotated hannotated).spares fun hroute _ =>
      hP _ (exchangePath_mem_written hroute hload)
    exact hexports.trans (spares_replace (hexports.avoids.2 (hP _ (outputPath_mem_written hend))))

end Job

/-! ### Batches -/

namespace BatchConfig

variable {c : BatchConfig} {job : Job} {rest jobs : List Job} {fs fs' fs₁ : FileSystem}
  {r : Outcome Failure String} {outcomes : List JobOutcome} {P : Location → Prop}

/-- A job that breaks off is the last one. -/
theorem run_runJobs_of_crash [NumberSource]
    (h : fs.run (c.runJob job : Converting (StateM FileSystem) _) = (.error .crash, fs₁)) :
    (c.runJobs (job :: rest) : StateM FileSystem _).run fs =
      ([⟨job.name, .error .crash⟩], fs₁) := by
  have hrun : (c.runJob job : Converting (StateM FileSystem) _).run.run fs =
      (.error .crash, fs₁) := h
  rw [runJobs, StateT.run_bind, hrun]
  rfl

/-- After any other job the rest of the batch is run. -/
theorem run_runJobs_of_ne [NumberSource]
    (h : fs.run (c.runJob job : Converting (StateM FileSystem) _) = (r, fs₁))
    (hr : r ≠ .error .crash) :
    (c.runJobs (job :: rest) : StateM FileSystem _).run fs =
      (⟨job.name, r⟩ :: ((c.runJobs rest : StateM FileSystem _).run fs₁).1,
        ((c.runJobs rest : StateM FileSystem _).run fs₁).2) := by
  have hrun : (c.runJob job : Converting (StateM FileSystem) _).run.run fs = (r, fs₁) := h
  rw [runJobs, StateT.run_bind, hrun]
  rcases r with (failure | _) | path
  · rfl
  · exact absurd rfl hr
  · rfl

theorem run_run [NumberSource] (c : BatchConfig) (fs : FileSystem) :
    (c.run : StateM FileSystem _).run fs = (⟨((c.runJobs c.jobs : StateM FileSystem _).run fs).1⟩,
      ((c.runJobs c.jobs : StateM FileSystem _).run fs).2) := rfl

/-- **Jobs spare all files to which the paths that they have written do not lead.** -/
theorem spares_runJobs [NumberSource]
    (h : (c.runJobs jobs : StateM FileSystem _).run fs = (outcomes, fs'))
    (hP : ∀ x ∈ jobs.zip outcomes, ∀ path ∈ x.1.written c.defaults x.2.result, fs.Avoids P path) :
    Spares P fs fs' := by
  induction jobs generalizing fs outcomes with
  | nil =>
    obtain ⟨-, rfl⟩ := Prod.mk.inj h
    exact .refl fs
  | cons job rest ih =>
    rcases hrun : fs.run (c.runJob job : Converting (StateM FileSystem) _) with ⟨r, fs₁⟩
    by_cases hr : r = .error .crash
    · subst hr
      obtain ⟨rfl, rfl⟩ := Prod.mk.inj ((run_runJobs_of_crash hrun).symm.trans h)
      exact Job.spares_runJob hrun (hP _ List.mem_cons_self)
    · obtain ⟨rfl, hrest⟩ := Prod.mk.inj ((run_runJobs_of_ne hrun hr).symm.trans h)
      have hfirst := Job.spares_runJob hrun (hP _ List.mem_cons_self)
      refine hfirst.trans (ih (Prod.ext rfl hrest) fun x hx path hpath => hfirst.avoids.2 ?_)
      exact hP x (List.mem_cons_of_mem _ hx) path hpath

/-- A job that ends well has put the artifact that its stages gave at its path. -/
theorem exists_of_runJob [NumberSource] {path : String}
    (h : fs.run (c.runJob job : Converting (StateM FileSystem) _) = (.ok path, fs')) :
    path = job.outputPath c.defaults ∧ ∃ a fs₁,
      fs.run (c.annotated job : Converting (StateM FileSystem) _) = (.ok a, fs₁) ∧
      fs'.read path = .ok a.artifact.encode := by
  rw [runJob_eq] at h
  obtain ⟨a, fs₁, hannotated, hpersist⟩ := run_bind_eq_ok.1 h
  obtain ⟨_, fs₂, hsave, hdone⟩ := run_bind_eq_ok.1 hpersist
  obtain ⟨hpath, rfl⟩ := Prod.mk.inj hdone
  obtain rfl := Except.ok.inj hpath
  exact ⟨rfl, a, fs₁, hannotated, read_of_replace (run_during.1 hsave)⟩

/-- Whatever a job does, paths lead from the same directory and have the same temporary paths. -/
theorem spares_nothing [NumberSource]
    (h : fs.run (c.runJob job : Converting (StateM FileSystem) _) = (r, fs')) :
    Spares (fun _ => False) fs fs' :=
  Job.spares_runJob h fun _ _ => ⟨id, id⟩

theorem kept_of_runJobs [NumberSource] {i : Nat} {name path : String}
    (hrun : (c.runJobs jobs : StateM FileSystem _).run fs = (outcomes, fs'))
    (hjob : jobs[i]? = some job) (hresult : outcomes[i]? = some ⟨name, .ok path⟩)
    (hlater : ∀ x ∈ (jobs.zip outcomes).drop (i + 1), ∀ p ∈ x.1.written c.defaults x.2.result,
      fs.Avoids (· = fs.destination path) p) :
    path = job.outputPath c.defaults ∧ ∃ a fs₁,
      ((c.runJobs (jobs.take i) : StateM FileSystem _).run fs).2.run
        (c.annotated job : Converting (StateM FileSystem) _) = (.ok a, fs₁) ∧
      fs'.read path = .ok a.artifact.encode := by
  induction jobs generalizing fs outcomes i with
  | nil => cases hjob
  | cons first rest ih =>
    rcases hfirst : fs.run (c.runJob first : Converting (StateM FileSystem) _) with ⟨r, fs₁⟩
    have hspared := spares_nothing hfirst
    by_cases hr : r = .error .crash
    · -- A job that broke off is the last one, and it has not ended well.
      subst hr
      obtain ⟨rfl, -⟩ := Prod.mk.inj ((run_runJobs_of_crash hfirst).symm.trans hrun)
      cases i <;> cases hresult
    · obtain ⟨rfl, hafter⟩ := Prod.mk.inj ((run_runJobs_of_ne hfirst hr).symm.trans hrun)
      have hlater' : ∀ x ∈ (rest.zip ((c.runJobs rest : StateM FileSystem _).run fs₁).1).drop i,
          ∀ p ∈ x.1.written c.defaults x.2.result, fs₁.Avoids (· = fs₁.destination path) p := by
        intro x hx p hp
        rw [hspared.destination, hspared.avoids]
        exact hlater x hx p hp
      cases i with
      | zero =>
        obtain rfl := Option.some.inj hjob
        obtain ⟨rfl, rfl⟩ := JobOutcome.mk.inj (Option.some.inj hresult)
        obtain ⟨hpath, a, fs₂, hannotated, hread⟩ := exists_of_runJob hfirst
        refine ⟨hpath, a, fs₂, hannotated, ?_⟩
        -- The file is at the place to which the path leads, and the later jobs spare that place.
        obtain ⟨place, hfile⟩ := read_eq_ok.1 hread
        have hplace := (not_directory_of_resolveFile hfile).2
        have hspares : Spares _ fs₁ fs' := spares_runJobs (Prod.ext rfl hafter) hlater'
        exact read_eq_ok.2 ⟨place, hspares.resolveFile hplace.symm hfile⟩
      | succ i =>
        obtain ⟨hpath, a, fs₂, hannotated, hread⟩ := ih (Prod.ext rfl hafter) hjob hresult hlater'
        refine ⟨hpath, a, fs₂, ?_, hread⟩
        rw [List.take_succ_cons, run_runJobs_of_ne hfirst hr]
        exact hannotated

/-- The job at a position still has its artifact at a path: what it has annotated, started with the
files that the jobs before it have left, is what the file there holds. -/
def Kept [NumberSource] (c : BatchConfig) (fs : FileSystem) (i : Nat) (job : Job) (path : String)
    (fs' : FileSystem) : Prop :=
  ∃ a fs₁, ((c.runJobs (c.jobs.take i) : StateM FileSystem _).run fs).2.run
      (c.annotated job : Converting (StateM FileSystem) _) = (.ok a, fs₁) ∧
    fs'.read path = .ok a.artifact.encode

end BatchConfig

/-!
### Two jobs with one bundle

Both take the graph of the same bundle and store it under names of their own. Where the files go is
left open, except that they lie in the directory where paths start.
-/

namespace BatchConfig.Pair

/-- A job that stores the graph of the bundle. -/
def job (name output : String) : Job :=
  { Job.ofSource name "g.bundle" with route := .bundle, input := .tensor, output := some output }

/-- Two jobs with the given destinations. -/
def config (p q : String) : BatchConfig :=
  ⟨.standard, some Flat.metadata, .standard, [job "a" p, job "b" q]⟩

/-- What a job compiles, before it is annotated. -/
def compiled (name : String) : Artifact where
  name := name
  graph := { Flat.graph with name := name }
  input := .tensor "input" ⟨[1, 3, 1, 1]⟩ .f32
  labels := none
  options := Preset.classifier.options
  passes := []
  metadata := none

def artifact (name : String) : Artifact := { compiled name with metadata := some Flat.metadata }

/-- Files among which the jobs can store theirs: there are no directories beside the bundle. -/
structure Holds (fs : FileSystem) : Prop where
  current : fs.current = []
  tag : fs.tag = "7"
  source : fs.find? ["g.bundle"] = some (.file (Bundle.encode Flat.graph))
  flat : ∀ name, fs.find? [name] ≠ some .directory

/-- Destinations beside the bundle. -/
structure Target (output : String) : Prop where
  plain : Path.Plain output
  temporary : Path.Plain (output ++ ".tmp" ++ "7")
  ne_source : output ≠ "g.bundle"
  temporary_ne_source : output ++ ".tmp" ++ "7" ≠ "g.bundle"

variable {fs fs' : FileSystem} {name output p q : String}

theorem holds_files : Holds Flat.files where
  current := rfl
  tag := rfl
  source := rfl
  flat name := by
    simp only [Flat.files, FileSystem.find?, List.lookup_cons, List.lookup_nil]
    split <;> simp

theorem Holds.read_source (h : Holds fs) :
    fs.read "g.bundle" = .ok (Bundle.encode Flat.graph) := by
  have hcurrent : fs.find? fs.current = some .directory := by
    rw [h.current]
    rfl
  have hplace := resolve_plain Flat.plain_source hcurrent
  rw [h.current] at hplace
  exact read_eq_ok.2 ⟨["g.bundle"], resolveFile_eq_ok.2 ⟨hplace, h.source⟩⟩

theorem Target.temporary_eq (h : Target output) :
    FileStore.temporary output "7" = output ++ ".tmp" ++ "7" := by
  rw [FileStore.temporary, h.plain.withFileName, h.plain.fileName?]
  rfl

/-- A file can be stored at a destination, and then files can be stored again. -/
theorem Holds.run_replace (h : Holds fs) (ht : Target output) (content : Bytes) :
    ∃ fs', fs.run (replace output content) = (.ok (), fs') ∧ Holds fs' := by
  have hcurrent : fs.find? fs.current = some .directory := by
    rw [h.current]
    rfl
  have htemp : Path.Plain (FileStore.temporary output fs.tag) := by
    rw [h.tag, ht.temporary_eq]
    exact ht.temporary
  have hfree : ∀ name, fs.find? (name :: fs.current) ≠ some .directory := by
    rw [h.current]
    exact h.flat
  refine ⟨_, FileSystem.run_replace content ht.plain htemp hcurrent (hfree _) (hfree _), ?_⟩
  rw [h.current, h.tag, ht.temporary_eq]
  refine ⟨h.current, h.tag, ?_, fun name => ?_⟩
  · rw [find?_put_of_ne (by simpa using Ne.symm ht.ne_source),
      find?_erase_of_ne (by simpa using Ne.symm ht.temporary_ne_source), h.source]
  · by_cases hname : name = output
    · rw [hname, find?_put_self (by simp)]
      simp
    · rw [find?_put_of_ne (by simpa using hname)]
      by_cases hname' : name = output ++ ".tmp" ++ "7"
      · rw [hname', find?_erase_self (by simp)]
        simp
      · rw [find?_erase_of_ne (by simpa using hname')]
        exact h.flat name

/-- A batch of such jobs. -/
def batch (jobs : List Job) : BatchConfig := ⟨.standard, some Flat.metadata, .standard, jobs⟩

/-- A job that stores the graph of a bundle at another path. -/
def jobFrom (name source output : String) : Job := { job name output with source := source }

/-- The bundle gives the same artifact wherever it is read. -/
theorem run_annotated_of_read [NumberSource] (jobs : List Job) {source : String}
    (hread : fs.read source = .ok (Bundle.encode Flat.graph)) (hname : Text.allBlank name = false) :
    fs.run ((batch jobs).annotated (jobFrom name source output) :
      Converting (StateM FileSystem) _) = (.ok ⟨name, artifact name⟩, fs) := by
  have hexport : fs.run ((jobFrom name source output).exportGraph (batch jobs).defaults none :
      Converting (StateM FileSystem) _) = (.ok ⟨name, Flat.graph⟩, fs) :=
    run_bind_eq_ok.2
      ⟨_, _, run_within.2 (run_adapt_eq_ok.2 (Flat.run_loadBundle hread)), rfl⟩
  have hcompile : (⟨name, Flat.graph⟩ : Exported).compile (artifact name).input
      ((batch jobs).optionsFor (jobFrom name source output)) none = .ok ⟨name, compiled name⟩ := rfl
  have hartifact : (compiled name).annotate Flat.metadata = .ok (artifact name) := by
    refine Artifact.annotate_eq_ok.2 ⟨hname, rfl, ?_⟩
    rw [Flat.describe_metadata]
    rfl
  have hannotate : (⟨name, compiled name⟩ : Compiled).annotate
      ((batch jobs).metadataFor (jobFrom name source output)) = .ok ⟨name, artifact name⟩ :=
    Compiled.annotate_eq_ok.2 ⟨hartifact, rfl⟩
  exact run_bind_eq_ok.2 ⟨none, fs, rfl, run_bind_eq_ok.2 ⟨none, fs, rfl,
    run_bind_eq_ok.2 ⟨_, _, hexport, run_bind_eq_ok.2 ⟨(artifact name).input, fs, rfl,
    run_bind_eq_ok.2 ⟨_, fs, Prod.ext hcompile rfl,
    Prod.ext (Outcome.ofExcept_eq_ok.2 hannotate) rfl⟩⟩⟩⟩⟩

theorem run_annotated [NumberSource] (h : Holds fs) (hname : Text.allBlank name = false) :
    fs.run ((config p q).annotated (job name output) : Converting (StateM FileSystem) _) =
      (.ok ⟨name, artifact name⟩, fs) :=
  run_annotated_of_read [job "a" p, job "b" q] h.read_source hname

theorem run_job [NumberSource] (p q name : String) (h : Holds fs)
    (hname : Text.allBlank name = false) (ht : Target output) :
    ∃ fs', fs.run ((config p q).runJob (job name output) : Converting (StateM FileSystem) _) =
        (.ok output, fs') ∧ Holds fs' ∧ fs'.read output = .ok (artifact name).encode := by
  obtain ⟨fs', hreplace, hholds⟩ := h.run_replace ht (artifact name).encode
  refine ⟨fs', ?_, hholds, read_of_replace hreplace⟩
  rw [runJob_eq]
  exact run_bind_eq_ok.2 ⟨_, _, run_annotated h hname,
    run_bind_eq_ok.2 ⟨(), _, run_during.2 hreplace, rfl⟩⟩

/-- Both jobs end well, and the second one has its artifact at its path. -/
theorem run_config [NumberSource] (hp : Target p) (hq : Target q) :
    ∃ fs', ((config p q).run : StateM FileSystem _).run Flat.files =
        (⟨[⟨"a", .ok p⟩, ⟨"b", .ok q⟩]⟩, fs') ∧ fs'.read q = .ok (artifact "b").encode := by
  obtain ⟨fs₁, hfirst, hholds, -⟩ := run_job p q "a" holds_files (by decide) hp
  obtain ⟨fs₂, hsecond, -, hread⟩ := run_job p q "b" hholds (by decide) hq
  refine ⟨fs₂, ?_, hread⟩
  rw [run_run, show (config p q).jobs = [job "a" p, job "b" q] from rfl,
    run_runJobs_of_ne hfirst (by simp), run_runJobs_of_ne hsecond (by simp)]
  rfl

theorem check_config : (config p q).check = .ok () := by
  have ha : Text.allBlank "a" = false := by decide
  have hb : Text.allBlank "b" = false := by decide
  have hvalid : Normalization.standard.valid = true := by decide
  simp [config, check, job, checkJob, Job.ofSource, ha, hb, hvalid, Job.hasBothLabels]

theorem decode_encode_artifact (name : String) (hfits : Container.Fits Artifact.kind
    (artifact name).headerToJson.render (artifact name).graph.params) :
    Artifact.decode (artifact name).encode = .ok (artifact name) := by
  have hvalid : Flat.graph.Valid := by decide
  have hcounts : ∀ n ∈ (artifact "").counts, n < Word.modulus := by decide
  have hsingles : (artifact name).singles = [] := rfl
  refine Artifact.decode_encode hvalid ⟨hcounts, ?_, ?_⟩ hfits
  all_goals simp [hsingles]

/-- The two artifacts are told apart by their bytes. -/
theorem encode_artifact_ne : (artifact "a").encode ≠ (artifact "b").encode := by
  have hfirst := decode_encode_artifact "a"
    (.of_weight (by decide) (by decide) (by decide) (by decide) (by decide))
  have hsecond := decode_encode_artifact "b"
    (.of_weight (by decide) (by decide) (by decide) (by decide) (by decide))
  intro hsame
  rw [hsame, hsecond] at hfirst
  have hname : "b" = "a" := congrArg Artifact.name (Except.ok.inj hfirst)
  exact absurd hname (by decide)

theorem Holds.artifact_eq [NumberSource] {a : Annotated} (h : Holds fs)
    (hname : Text.allBlank name = false)
    (ha : fs.run ((config p q).annotated (job name output) : Converting (StateM FileSystem) _) =
      (.ok a, fs')) : a.artifact = artifact name := by
  have hsame := (run_annotated h hname).symm.trans ha
  obtain rfl := Except.ok.inj (congrArg Prod.fst hsame)
  rfl

end BatchConfig.Pair

namespace BatchConfig

variable {c : BatchConfig} {job : Job} {fs fs' : FileSystem} {report : BatchReport} {i : Nat}
  {name path : String}

/-- **A result is kept unless a later job writes over it.** A job that is reported with a path has
its artifact there after the batch, if none of the paths that later jobs have written, their
exchange files and artifacts with the temporary files of both, leads to the same place. This holds
of every configuration, be it accepted by its check or not. -/
theorem kept_of_run [NumberSource] (hrun : (c.run : StateM FileSystem _).run fs = (report, fs'))
    (hjob : c.jobs[i]? = some job) (hresult : report.outcomes[i]? = some ⟨name, .ok path⟩)
    (hlater : ∀ x ∈ (c.jobs.zip report.outcomes).drop (i + 1),
      ∀ p ∈ x.1.written c.defaults x.2.result, fs.Avoids (· = fs.destination path) p) :
    path = job.outputPath c.defaults ∧ c.Kept fs i job path fs' := by
  rw [run_run] at hrun
  obtain ⟨rfl, hfiles⟩ := Prod.mk.inj hrun
  exact kept_of_runJobs (Prod.ext rfl hfiles) hjob hresult hlater

attribute [local instance] Export.zeroSource

/-- The first of two jobs with different destinations keeps its artifact. -/
theorem kept_of_run_pair :
    ∃ fs', ((Pair.config "a.mlpack" "b.mlpack").run : StateM FileSystem _).run Flat.files =
        (⟨[⟨"a", .ok "a.mlpack"⟩, ⟨"b", .ok "b.mlpack"⟩]⟩, fs') ∧
      (Pair.config "a.mlpack" "b.mlpack").Kept Flat.files 0 (Pair.job "a" "a.mlpack") "a.mlpack"
        fs' := by
  have hfirst : Pair.Target "a.mlpack" :=
    ⟨by decide, by decide, by decide, by decide⟩
  have hsecond : Pair.Target "b.mlpack" :=
    ⟨by decide, by decide, by decide, by decide⟩
  obtain ⟨fs', hrun, -⟩ := Pair.run_config hfirst hsecond
  refine ⟨fs', hrun, (kept_of_run (i := 0) hrun rfl rfl ?_).2⟩
  -- The second job has put files at two places, and the artifact of the first is at neither.
  have havoids : Flat.files.Avoids (· = Flat.files.destination "a.mlpack") "b.mlpack" := by
    have htemporary : FileStore.temporary "b.mlpack" Flat.files.tag = "b.mlpack" ++ ".tmp" ++ "7" :=
      hsecond.temporary_eq
    rw [Avoids, htemporary, destination_plain hfirst.plain, destination_plain hsecond.plain,
      destination_plain hsecond.temporary]
    decide
  exact List.forall_mem_singleton.2 (List.forall_mem_singleton.2 havoids)

/-- Two jobs with the same destination are accepted, both end well, and the first one does not keep
its artifact. -/
theorem not_forall_kept :
    ¬∀ (c : BatchConfig) (fs fs' : FileSystem) (report : BatchReport) (i : Nat) (job : Job)
      (name path : String), c.check = .ok () →
      (c.run : StateM FileSystem _).run fs = (report, fs') → c.jobs[i]? = some job →
      report.outcomes[i]? = some ⟨name, .ok path⟩ → c.Kept fs i job path fs' := by
  intro h
  have htarget : Pair.Target "m.mlpack" :=
    ⟨Flat.plain_output, by decide, by decide, by decide⟩
  obtain ⟨fs', hrun, hread⟩ := Pair.run_config htarget htarget
  obtain ⟨a, fs₁, hannotated, hkept⟩ := h _ _ _ _ 0 (Pair.job "a" "m.mlpack") "a" "m.mlpack"
    Pair.check_config hrun rfl rfl
  rw [Pair.holds_files.artifact_eq (by decide) hannotated] at hkept
  exact Pair.encode_artifact_ne (Except.ok.inj (hkept.symm.trans hread))

end BatchConfig

end NetPack
