import NetPack.Proofs.Agreement
import NetPack.Proofs.BatchResults

/-!
# Jobs that do not depend on each other

Two jobs are independent if no place where one of them writes is a place of the other one, holds one
or lies in one (`Job.Independent`). The places are told from the paths of the jobs and the directory
where paths start, so they are the same before and after other jobs.

A job runs alike beside changes that are at none of its places (`BatchConfig.agrees_runJob`): each
stage does, as its reads and replacements do (`Job.agrees_runJob`). What it changes itself lies at
the places where it writes, and directories are made to hold these (`BatchConfig.changes_after`).
Both together give that independent jobs commute (`BatchConfig.commute_of_independent`): each ends
as it does alone, and the files are the same in the end. The directories that both jobs need are
made by the one that comes first.
-/

namespace NetPack

open Converting FileStore FileSystem

variable {R : FileSystem → FileSystem → Prop}

namespace FileSystem

variable {path : String} {bytes : Bytes}

theorem agrees_replace_of_named
    (h : (Path.fileName? path).isSome → Agrees R (replace path bytes)) :
    Agrees R (replace path bytes) := by
  by_cases hname : (Path.fileName? path).isSome
  · exact h hname
  · rw [replace_of_not_named hname]
    exact agrees_throw _

/-- Neither of two places is the other one or holds it. -/
def Apart (p q : Location) : Prop := ¬p <:+ q ∧ ¬q <:+ p

instance (p q : Location) : Decidable (Apart p q) := inferInstanceAs (Decidable (_ ∧ _))

theorem apart_of_ne {part other : String} (h : part ≠ other) (place : Location) :
    Apart (part :: place) (other :: place) :=
  ⟨fun hsuffix => h (List.cons.inj (hsuffix.eq_of_length rfl)).1,
    fun hsuffix => h (List.cons.inj (hsuffix.eq_of_length rfl)).1.symm⟩

/-- **Two changes at different places, made in either order, give the same.** The files that one of
them changes are no matter of the other one, and each makes the same directories before and after
the other one, except those that it then finds there. -/
theorem find?_eq_of_changes {Fa Fb Da Db : Location → Prop} {fa fb fab fba : FileSystem}
    (hab : Changes Fb Db fa fab) (hba : Changes Fa Da fb fba)
    (hab' : Changes Fa (fun q => Da q ∧ fa.find? q = some .directory) fb fab)
    (hba' : Changes Fb (fun q => Db q ∧ fb.find? q = some .directory) fa fba)
    (ha : ∀ q, Fa q → ¬Fb q ∧ ¬Db q) (hb : ∀ q, Fb q → ¬Fa q ∧ ¬Da q) (q : Location) :
    fab.find? q = fba.find? q := by
  by_cases hFa : Fa q
  · obtain ⟨hFb, hDb⟩ := ha q hFa
    rw [hab.find?_eq hFb hDb, hba'.find?_eq hFb fun hD => hDb hD.1]
  by_cases hFb : Fb q
  · obtain ⟨-, hDa⟩ := hb q hFb
    rw [hab'.find?_eq hFa fun hD => hDa hD.1, hba.find?_eq hFa hDa]
  by_cases hnone : fa.find? q = none
  · -- What is missing after the first change comes from the second one.
    have hfab : fab.find? q = fb.find? q :=
      hab'.find?_eq hFa fun hD => by simp [hnone] at hD
    rcases hba'.rest q hFb with hsame | ⟨-, hmade, -, hfb⟩
    · have hfba : fba.find? q = fb.find? q := by
        refine (hba.rest q hFa).resolve_right fun hmade => ?_
        rw [hsame, hnone] at hmade
        exact absurd hmade.2.1 (by simp)
      rw [hfab, hfba]
    · rw [hfab, hmade, hfb]
  · have hfab : fab.find? q = fa.find? q := (hab.rest q hFb).resolve_right fun h => hnone h.1
    have hfba : fba.find? q = fa.find? q := (hba'.rest q hFb).resolve_right fun h => hnone h.1
    rw [hfab, hfba]

end FileSystem

/-! ### Runs of the stages of a job -/

theorem agrees_text {path : String}
    (h : Agrees R (bytes path : ExceptT FileError (StateM FileSystem) Bytes)) :
    Agrees R (text path : ExceptT FileError (StateM FileSystem) String) := by
  refine h.bind fun content => ?_
  split
  · exact agrees_pure _
  · exact agrees_throw _

theorem Bundle.agrees_load {path : String}
    (h : Agrees R (bytes path : ExceptT FileError (StateM FileSystem) Bytes)) :
    Agrees R (load path : ExceptT (Fault ModelError) (StateM FileSystem) (Graph Binary32)) :=
  ((h.adapt _).adapt _).bind fun _ => agrees_mk_pure _

theorem SequentialModel.agrees_load {directory : String}
    (h : ∀ name ∈ [manifestFile, weightsFile],
      Agrees R (bytes (Path.join directory name) : ExceptT FileError (StateM FileSystem) Bytes)) :
    Agrees R (load directory : ExceptT ModelError (StateM FileSystem) _) :=
  ((agrees_text (h _ (by simp))).adapt _).bind fun _ => (agrees_mk_pure _).bind fun _ =>
    (agrees_mk_pure _).bind fun _ => ((h weightsFile (by simp)).adapt _).bind fun _ =>
      (agrees_mk_pure _).bind fun _ => agrees_mk_pure _

/-- An exchange file that was written is loaded alike. -/
theorem Exported.agrees_ofModel [NumberSource] {name : String} {model : Model Binary32}
    {d : Descriptor} {route : ExportRoute} (h : ∀ path, route = .exchange path →
      ∀ bytes, Agrees R (replace path bytes)) :
    Agrees R (ofModel name model d route : Converting (StateM FileSystem) Exported) := by
  unfold ofModel
  refine (agrees_mk_pure _).bind fun graph => ?_
  split
  · exact agrees_pure _
  · rename_i path
    intro g g' hR
    refine (((h path rfl _).adapt _) g g' hR).bind fun _ g₁ g₁' hrun hrun' h₁ => ?_
    -- Both runs find the bytes that they have just written.
    have hread := read_of_replace (run_during.1 hrun)
    have hread' := read_of_replace (run_during.1 hrun')
    have hbytes : AgreesFrom R (bytes path : ExceptT FileError (StateM FileSystem) Bytes) g₁ g₁' :=
      ⟨by rw [run_bytes, run_bytes, hread, hread'], h₁⟩
    have hload : AgreesFrom R (Exchange.load path d.batch :
        ExceptT (Fault ConvertError) (StateM FileSystem) _) g₁ g₁' :=
      ((hbytes.adapt _).adapt _).bind fun _ _ _ _ _ h₂ => agrees_mk_pure _ _ _ h₂
    exact (hload.adapt _).bind fun _ _ _ _ _ h₂ => agrees_pure _ _ _ h₂

namespace Job

variable {job : Job} {d : Defaults} {c : BatchConfig} {base g g' fs : FileSystem} {path : String}

/-- The paths of the files that a job reads, apart from the exchange file that it has written. -/
def readPaths (job : Job) : List String :=
  (if job.route = .bundle then [job.source]
    else [SequentialModel.manifestFile, SequentialModel.weightsFile].map (Path.join job.source)) ++
  job.labelsFile.toList

/-- The paths of the files that a job writes. -/
def writePaths (job : Job) (d : Defaults) : List String :=
  ((if job.route = .exchange then [job.exchangePath d] else []) ++ [job.outputPath d]).filter
    fun path => (Path.fileName? path).isSome

theorem agrees_loadLabels
    (h : ∀ path ∈ job.labelsFile, Agrees R (bytes path :
      ExceptT FileError (StateM FileSystem) Bytes)) :
    Agrees R (job.loadLabels : ExceptT ConvertError (StateM FileSystem) _) := by
  unfold loadLabels
  split
  · exact agrees_throw _
  · exact agrees_pure _
  · rename_i path _ hpath
    rw [map_eq_pure_bind]
    exact (((agrees_text (h path hpath)).adapt _).bind fun _ => agrees_pure _).bind
      fun _ => agrees_pure _
  · exact agrees_pure _

theorem mem_writePaths_outputPath (h : (Path.fileName? (job.outputPath d)).isSome) :
    job.outputPath d ∈ job.writePaths d :=
  List.mem_filter.2 ⟨List.mem_append_right _ (List.mem_singleton_self _), h⟩

theorem mem_writePaths_exchangePath (hroute : job.route = .exchange)
    (h : (Path.fileName? (job.exchangePath d)).isSome) :
    job.exchangePath d ∈ job.writePaths d := by
  refine List.mem_filter.2 ⟨List.mem_append_left _ ?_, h⟩
  rw [if_pos hroute]
  exact List.mem_singleton_self _

theorem agrees_exportGraph [NumberSource] {declared : Option Descriptor}
    (hread : ∀ path ∈ job.readPaths, Agrees R (bytes path :
      ExceptT FileError (StateM FileSystem) Bytes))
    (hwrite : job.route = .exchange →
      ∀ bytes, Agrees R (replace (job.exchangePath d) bytes)) :
    Agrees R (job.exportGraph d declared : Converting (StateM FileSystem) _) := by
  unfold exportGraph
  by_cases hbundle : job.route = .bundle
  · rw [if_pos hbundle]
    have hsource : job.source ∈ job.readPaths := by simp [readPaths, hbundle]
    exact (((Bundle.agrees_load (hread _ hsource)).adapt _).adapt _).bind fun _ => agrees_pure _
  · rw [if_neg hbundle]
    split
    · refine (((SequentialModel.agrees_load fun name hname => hread _ ?_).adapt _).adapt _).bind
        fun model => Exported.agrees_ofModel fun path hpath => ?_
      · rw [readPaths, if_neg hbundle]
        exact List.mem_append_left _ (List.mem_map_of_mem hname)
      · unfold exportRoute at hpath
        split at hpath
        · obtain rfl := ExportRoute.exchange.inj hpath
          exact hwrite ‹_›
        · cases hpath
    · exact agrees_throw _

/-- **Runs of a job agree if those of its reads and replacements do.** -/
theorem agrees_runJob [NumberSource]
    (hread : ∀ path ∈ job.readPaths, Agrees R (bytes path :
      ExceptT FileError (StateM FileSystem) Bytes))
    (hwrite : ∀ path ∈ job.writePaths c.defaults, ∀ bytes, Agrees R (replace path bytes)) :
    Agrees R (c.runJob job : Converting (StateM FileSystem) _) := by
  have hlabels : ∀ path ∈ job.labelsFile, Agrees R (bytes path :
      ExceptT FileError (StateM FileSystem) Bytes) :=
    fun path hpath => hread path (List.mem_append_right _ (Option.mem_toList.2 hpath))
  have hexchange : job.route = .exchange →
      ∀ bytes, Agrees R (replace (job.exchangePath c.defaults) bytes) :=
    fun hroute bytes => agrees_replace_of_named fun hname =>
      hwrite _ (mem_writePaths_exchangePath hroute hname) bytes
  have houtput : ∀ bytes, Agrees R (replace (job.outputPath c.defaults) bytes) :=
    fun bytes => agrees_replace_of_named fun hname =>
      hwrite _ (mem_writePaths_outputPath hname) bytes
  have hpersist : ∀ a : Annotated,
      Agrees R (a.persist (job.outputPath c.defaults) : Converting (StateM FileSystem) _) :=
    fun a => ((houtput _).adapt _).bind fun _ => agrees_pure _
  exact ((agrees_loadLabels hlabels).adapt _).bind fun labels =>
    ((agrees_mk_pure _).adapt _).bind fun declared =>
      (agrees_exportGraph hread hexchange).bind fun exported =>
        ((agrees_mk_pure _).adapt _).bind fun input =>
          (agrees_mk_pure _).bind fun compiled => (agrees_mk_pure _).bind hpersist

/-- What the replacements of a job keep is kept. -/
theorem keeps_runJob [NumberSource] {Q : FileSystem → Prop}
    (hwrite : ∀ path ∈ job.writePaths c.defaults, ∀ bytes, Keeps Q (replace path bytes)) :
    Keeps Q (c.runJob job : Converting (StateM FileSystem) _) := by
  rw [BatchConfig.runJob_eq]
  refine (keeps_annotated fun hroute bytes => keeps_replace_of_named fun hname =>
    hwrite _ (mem_writePaths_exchangePath hroute hname) bytes).bind fun a => ?_
  refine Keeps.bind (Keeps.adapt ?_ _) fun _ => keeps_pure _
  exact keeps_replace_of_named fun hname => hwrite _ (mem_writePaths_outputPath hname) _

/-! ### Where jobs read and write -/

/-- The places of the files that a job reads. -/
def readPlaces (job : Job) (fs : FileSystem) : List Location := job.readPaths.map fs.destination

/-- The places of the files that a job writes, and of their temporary files. -/
def writePlaces (job : Job) (d : Defaults) (fs : FileSystem) : List Location :=
  (job.writePaths d).flatMap fun path =>
    [fs.destination path, fs.destination (temporary path fs.tag)]

/-- All places of a job. -/
def places (job : Job) (d : Defaults) (fs : FileSystem) : List Location :=
  job.readPlaces fs ++ job.writePlaces d fs

/-- No place where one of the jobs writes is a place of the other one or holds it or lies in it. -/
def Independent (d : Defaults) (fs : FileSystem) (a b : Job) : Prop :=
  (∀ w ∈ a.writePlaces d fs, ∀ p ∈ b.places d fs, Apart w p) ∧
    ∀ w ∈ b.writePlaces d fs, ∀ p ∈ a.places d fs, Apart w p

/-- The paths of the job do not wander off. -/
structure SteadyIn (job : Job) (d : Defaults) (fs : FileSystem) : Prop where
  reads : ∀ path ∈ job.readPaths, fs.Steady Unnamable path
  writes : ∀ path ∈ job.writePaths d, fs.Steady Upwards path

/-- Where a job writes or has to make directories. -/
def Reaches (job : Job) (d : Defaults) (fs : FileSystem) (q : Location) : Prop :=
  ∃ w ∈ job.writePlaces d fs, q <:+ w

theorem mem_writePlaces (fs : FileSystem) (hpath : path ∈ job.writePaths d) :
    fs.destination path ∈ job.writePlaces d fs ∧
      fs.destination (temporary path fs.tag) ∈ job.writePlaces d fs := by
  constructor <;> exact List.mem_flatMap.2 ⟨path, hpath, by simp⟩

theorem Independent.symm {a b : Job} (h : Independent d fs a b) : Independent d fs b a := ⟨h.2, h.1⟩

/-! #### Places are told from the start -/

theorem readPlaces_grown (h : Grown base fs) : job.readPlaces fs = job.readPlaces base :=
  List.map_congr_left fun path _ => h.destination path

theorem writePlaces_grown (h : Grown base fs) : job.writePlaces d fs = job.writePlaces d base := by
  unfold writePlaces
  simp only [h.destination, h.tag]

theorem Independent.grown {a b : Job} (h : Independent d base a b) (hgrown : Grown base fs) :
    Independent d fs a b := by
  unfold Independent places at h ⊢
  rw [writePlaces_grown hgrown, writePlaces_grown hgrown, readPlaces_grown hgrown,
    readPlaces_grown hgrown]
  exact h

theorem SteadyIn.grown (h : job.SteadyIn d base) (hgrown : Grown base fs) : job.SteadyIn d fs :=
  ⟨fun path hpath => (h.reads path hpath).grown hgrown,
    fun path hpath => (h.writes path hpath).grown hgrown⟩

end Job

namespace BatchConfig

variable [NumberSource] {c : BatchConfig} {job a b : Job} {base g g' fs fs' : FileSystem}
  {F D : Location → Prop}
  {q : Location}

/-- How a job ends. -/
def outcome (c : BatchConfig) (fs : FileSystem) (job : Job) : JobOutcome :=
  ⟨job.name, (fs.run (c.runJob job : Converting (StateM FileSystem) _)).1⟩

/-- The files that a job leaves. -/
def after (c : BatchConfig) (fs : FileSystem) (job : Job) : FileSystem :=
  (fs.run (c.runJob job : Converting (StateM FileSystem) _)).2

theorem grown_after (h : Grown base fs) : Grown base (c.after fs job) := by
  have hkept : Keeps (Grown base) (c.runJob job : Converting (StateM FileSystem) _) :=
    Job.keeps_runJob fun path _ bytes => keeps_grown base path bytes
  exact hkept fs h

theorem wellFormed_after (h : fs.WellFormed) : (c.after fs job).WellFormed :=
  (grown_after (.refl h)).wellFormed

/-- **A job changes the files at the places where it writes**, and it makes directories that are to
hold them. -/
theorem changes_after (hfs : fs.WellFormed) (hsteady : job.SteadyIn c.defaults fs) :
    Changes (· ∈ job.writePlaces c.defaults fs) (job.Reaches c.defaults fs) fs
      (c.after fs job) := by
  have hkept : Keeps (Changes (· ∈ job.writePlaces c.defaults fs) (job.Reaches c.defaults fs) fs)
      (c.runJob job : Converting (StateM FileSystem) _) := by
    refine Job.keeps_runJob fun path hpath bytes => ?_
    obtain ⟨hplace, htemp⟩ := Job.mem_writePlaces fs hpath
    refine keeps_changes hplace htemp fun directory henclosing q hq => ?_
    have hmissing := (hsteady.writes path hpath).missingIn hfs (List.mem_filter.1 hpath).2
      henclosing
    exact (hmissing q hq).imp_right fun hsuffix => ⟨_, hplace, hsuffix⟩
  exact hkept fs (.refl fs)

/-- A job runs alike beside changes that are at none of its places. -/
theorem agrees_runJob (hsteady : job.SteadyIn c.defaults base)
    (hclear : ∀ p ∈ job.places c.defaults base, Clear F D p) :
    Agrees (Beside base F D) (c.runJob job : Converting (StateM FileSystem) _) := by
  refine Job.agrees_runJob (fun path hpath => ?_) fun path hpath bytes => ?_
  · exact agrees_bytes (hsteady.reads path hpath)
      (hclear _ (List.mem_append_left _ (List.mem_map_of_mem hpath)))
  · obtain ⟨hplace, htemp⟩ := Job.mem_writePlaces base hpath
    exact agrees_replace (hsteady.writes path hpath) (hclear _ (List.mem_append_right _ hplace))
      (hclear _ (List.mem_append_right _ htemp))

/-! ### Two jobs -/

/-- What a job has changed, and which of the directories are there that it was to make. -/
def Left (c : BatchConfig) (fs : FileSystem) (job : Job) (q : Location) : Prop :=
  job.Reaches c.defaults fs q ∧ (c.after fs job).find? q = some .directory

/-- After a job there is a difference only where it was at work. -/
theorem beside_after (hfs : fs.WellFormed) (hsteady : a.SteadyIn c.defaults fs) :
    Beside fs (· ∈ a.writePlaces c.defaults fs) (c.Left fs a) fs (c.after fs a) := by
  have h := changes_after hfs hsteady
  refine ⟨.refl hfs, h.current, h.tag, h.directories, fun q hq => ?_⟩
  exact (h.rest q hq).imp_right fun ⟨hnone, hmade, hD⟩ => ⟨hnone, hmade, hD, hmade⟩

theorem clear_of_independent (h : a.Independent c.defaults fs b) :
    ∀ p ∈ b.places c.defaults fs, Clear (· ∈ a.writePlaces c.defaults fs) (c.Left fs a) p := by
  intro p hp
  refine ⟨fun q hq hF => (h.1 q hF p hp).1 hq, ?_⟩
  rintro ⟨⟨w, hw, hsuffix⟩, -⟩
  exact (h.1 w hw p hp).2 hsuffix

/-- Two jobs end alike in either order and leave the same at all places. -/
structure Commute (c : BatchConfig) (fs : FileSystem) (a b : Job) : Prop where
  first : c.outcome (c.after fs b) a = c.outcome fs a
  second : c.outcome (c.after fs a) b = c.outcome fs b
  files : ∀ q, (c.after (c.after fs a) b).find? q = (c.after (c.after fs b) a).find? q

/-- After an independent job a job ends alike, and the files differ as they did before. -/
theorem agreesFrom_after (hfs : fs.WellFormed) (ha : a.SteadyIn c.defaults fs)
    (hb : b.SteadyIn c.defaults fs) (h : a.Independent c.defaults fs b) :
    c.outcome (c.after fs a) b = c.outcome fs b ∧
      Changes (· ∈ a.writePlaces c.defaults fs) (c.Left fs a) (c.after fs b)
        (c.after (c.after fs a) b) := by
  obtain ⟨hsame, hbeside⟩ :=
    agrees_runJob hb (clear_of_independent h) fs (c.after fs a) (beside_after hfs ha)
  exact ⟨congrArg (JobOutcome.mk b.name) hsame, hbeside.changes⟩

omit [NumberSource] in
theorem not_reaches_of_mem (h : a.Independent c.defaults fs b)
    (hq : q ∈ a.writePlaces c.defaults fs) :
    q ∉ b.writePlaces c.defaults fs ∧ ¬b.Reaches c.defaults fs q := by
  have hapart : ∀ w ∈ b.writePlaces c.defaults fs, ¬q <:+ w :=
    fun w hw => (h.1 q hq w (List.mem_append_right _ hw)).1
  exact ⟨fun hq' => hapart q hq' List.suffix_rfl, fun ⟨w, hw, hsuffix⟩ => hapart w hw hsuffix⟩

/-- What the other job changes after the first one. -/
theorem changes_after_after (hfs : fs.WellFormed) (hb : b.SteadyIn c.defaults fs) :
    Changes (· ∈ b.writePlaces c.defaults fs) (b.Reaches c.defaults fs) (c.after fs a)
      (c.after (c.after fs a) b) := by
  have hgrown : Grown fs (c.after fs a) := grown_after (.refl hfs)
  have h := changes_after hgrown.wellFormed (hb.grown hgrown)
  unfold Job.Reaches at h
  rwa [Job.writePlaces_grown hgrown] at h

/-- **Independent jobs commute.** -/
theorem commute_of_independent (hfs : fs.WellFormed) (ha : a.SteadyIn c.defaults fs)
    (hb : b.SteadyIn c.defaults fs) (h : a.Independent c.defaults fs b) : c.Commute fs a b := by
  obtain ⟨hsecond, hbeside⟩ := agreesFrom_after hfs ha hb h
  obtain ⟨hfirst, hbeside'⟩ := agreesFrom_after hfs hb ha h.symm
  refine ⟨hfirst, hsecond, ?_⟩
  exact find?_eq_of_changes (changes_after_after hfs hb) (changes_after_after hfs ha) hbeside
    hbeside' (fun q => not_reaches_of_mem h) fun q => not_reaches_of_mem h.symm

end BatchConfig

end NetPack
