import NetPack.Proofs.Commuting

/-!
# The order of the jobs of a batch

When the jobs of a batch are independent, each ends as it does alone
(`BatchConfig.outcomes_of_independent`), the batch breaks off if one of them does
(`BatchConfig.crashed_iff_of_independent`), and the files in the end do not depend on the order
(`BatchConfig.find?_of_perm`). All this is put together in `BatchConfig.run_perm_of_independent`.

The paths have to be steady. A path through a directory that another job makes leads somewhere only
after that job, and a name that is too long is refused only in a directory that is there
(`BatchConfig.not_forall_commute`).
-/

namespace NetPack

open Converting FileStore FileSystem

namespace BatchConfig

variable [NumberSource] {c : BatchConfig} {job a b : Job} {rest jobs jobs' : List Job}
  {base g g' fs fs' : FileSystem} {F D : Location → Prop} {q : Location}

/-! ### Lists of jobs -/

/-- No job of a list depends on another one. -/
structure IndependentJobs (d : Defaults) (fs : FileSystem) (jobs : List Job) : Prop where
  steady : ∀ job ∈ jobs, job.SteadyIn d fs
  pairwise : jobs.Pairwise (Job.Independent d fs)

theorem IndependentJobs.after (h : IndependentJobs c.defaults fs (job :: rest))
    (hfs : fs.WellFormed) : IndependentJobs c.defaults (c.after fs job) rest := by
  have hgrown : Grown fs (c.after fs job) := grown_after (.refl hfs)
  exact ⟨fun other hother => (h.steady other (List.mem_cons_of_mem _ hother)).grown hgrown,
    (List.pairwise_cons.1 h.pairwise).2.imp fun hpair => hpair.grown hgrown⟩

omit [NumberSource] in
theorem IndependentJobs.perm {d : Defaults} (h : IndependentJobs d fs jobs)
    (hperm : jobs.Perm jobs') : IndependentJobs d fs jobs' :=
  ⟨fun job hjob => h.steady job (hperm.mem_iff.2 hjob),
    hperm.pairwise h.pairwise fun hpair => hpair.symm⟩

/-- A job ends without breaking off. -/
def Ends (c : BatchConfig) (fs : FileSystem) (job : Job) : Prop :=
  (c.outcome fs job).result ≠ .error .crash

/-- After the first job the other ones end as they do before it. -/
theorem IndependentJobs.outcome_after (h : IndependentJobs c.defaults fs (job :: rest))
    (hfs : fs.WellFormed) {other : Job} (hother : other ∈ rest) :
    c.outcome (c.after fs job) other = c.outcome fs other :=
  (agreesFrom_after hfs (h.steady job List.mem_cons_self)
    (h.steady other (List.mem_cons_of_mem _ hother))
    ((List.pairwise_cons.1 h.pairwise).1 other hother)).1

theorem IndependentJobs.ends_after (h : IndependentJobs c.defaults fs (job :: rest))
    (hfs : fs.WellFormed) {other : Job} (hother : other ∈ rest) :
    c.Ends (c.after fs job) other ↔ c.Ends fs other := by
  rw [Ends, Ends, h.outcome_after hfs hother]

theorem run_runJobs_cons (h : c.Ends fs job) :
    (c.runJobs (job :: rest) : StateM FileSystem _).run fs =
      (c.outcome fs job :: ((c.runJobs rest : StateM FileSystem _).run (c.after fs job)).1,
        ((c.runJobs rest : StateM FileSystem _).run (c.after fs job)).2) :=
  run_runJobs_of_ne Prod.mk.eta.symm h

/-- **Each job of a batch ends as it does alone.** -/
theorem outcomes_of_independent (hfs : fs.WellFormed)
    (h : IndependentJobs c.defaults fs jobs) (hends : ∀ job ∈ jobs, c.Ends fs job) :
    ((c.runJobs jobs : StateM FileSystem _).run fs).1 = jobs.map (c.outcome fs) := by
  induction jobs generalizing fs with
  | nil => rfl
  | cons job rest ih =>
    have hafter : ∀ other ∈ rest, c.outcome (c.after fs job) other = c.outcome fs other :=
      fun other hother => h.outcome_after hfs hother
    have hends' : ∀ other ∈ rest, c.Ends (c.after fs job) other := fun other hother =>
      (h.ends_after hfs hother).2 (hends other (List.mem_cons_of_mem _ hother))
    rw [run_runJobs_cons (hends job List.mem_cons_self), List.map_cons,
      ih (wellFormed_after hfs) (h.after hfs) hends', List.map_congr_left hafter]

omit [NumberSource] in
theorem crashed_cons {o : JobOutcome} {outcomes : List JobOutcome} :
    (⟨o :: outcomes⟩ : BatchReport).crashed = true ↔
      o.result = .error .crash ∨ (⟨outcomes⟩ : BatchReport).crashed = true := by
  rw [BatchReport.crashed, BatchReport.crashed, List.any_cons, Bool.or_eq_true]
  refine or_congr_left ?_
  rcases o with ⟨name, (failure | _) | path⟩ <;> simp

/-- **A batch breaks off if one of its jobs does so alone.** -/
theorem crashed_iff_of_independent (hfs : fs.WellFormed)
    (h : IndependentJobs c.defaults fs jobs) :
    (⟨((c.runJobs jobs : StateM FileSystem _).run fs).1⟩ : BatchReport).crashed = true ↔
      ∃ job ∈ jobs, ¬c.Ends fs job := by
  induction jobs generalizing fs with
  | nil => exact iff_of_false Bool.false_ne_true (by simp)
  | cons job rest ih =>
    by_cases hends : c.Ends fs job
    · rw [run_runJobs_cons hends, crashed_cons, ih (wellFormed_after hfs) (h.after hfs),
        List.exists_mem_cons_iff, or_iff_right hends, or_iff_right (not_not_intro hends)]
      refine exists_congr fun other => and_congr_right fun hother => ?_
      exact not_congr (h.ends_after hfs hother)
    · have hcrash : (c.outcome fs job).result = .error .crash := by simpa [Ends] using hends
      rw [run_runJobs_of_crash (Prod.ext hcrash rfl), crashed_cons]
      exact iff_of_true (.inl rfl) ⟨job, List.mem_cons_self, hends⟩

/-- Jobs end alike beside changes that are at none of their places. -/
theorem runJobs_beside (hsteady : ∀ job ∈ jobs, job.SteadyIn c.defaults base)
    (hclear : ∀ job ∈ jobs, ∀ p ∈ job.places c.defaults base, Clear F D p)
    (h : Beside base F D g g') :
    ((c.runJobs jobs : StateM FileSystem _).run g').1 =
        ((c.runJobs jobs : StateM FileSystem _).run g).1 ∧
      Beside base F D ((c.runJobs jobs : StateM FileSystem _).run g).2
        ((c.runJobs jobs : StateM FileSystem _).run g').2 := by
  induction jobs generalizing g g' with
  | nil => exact ⟨rfl, h⟩
  | cons job rest ih =>
    obtain ⟨hsame, hbeside⟩ := agrees_runJob (hsteady job List.mem_cons_self)
      (hclear job List.mem_cons_self) g g' h
    rcases hrun : g.run (c.runJob job : Converting (StateM FileSystem) _) with ⟨r, g₁⟩
    rcases hrun' : g'.run (c.runJob job : Converting (StateM FileSystem) _) with ⟨r', g₁'⟩
    rw [hrun, hrun'] at hsame hbeside
    obtain rfl : r' = r := hsame
    by_cases hr : r' = .error .crash
    · subst hr
      rw [run_runJobs_of_crash hrun, run_runJobs_of_crash hrun']
      exact ⟨rfl, hbeside⟩
    · rw [run_runJobs_of_ne hrun hr, run_runJobs_of_ne hrun' hr]
      obtain ⟨hrest, hbeside'⟩ := ih (fun other hother => hsteady other
        (List.mem_cons_of_mem _ hother)) (fun other hother => hclear other
        (List.mem_cons_of_mem _ hother)) hbeside
      exact ⟨congrArg (List.cons _) hrest, hbeside'⟩

omit [NumberSource] in
theorem beside_of_find? (hg : Grown base g) (hg' : Grown base g')
    (h : ∀ q, g'.find? q = g.find? q) : Beside base (fun _ => False) (fun _ => False) g g' where
  grown := hg
  changes := ⟨hg'.current.trans hg.current.symm, hg'.tag.trans hg.tag.symm,
    fun q hq => (h q).trans hq, fun q _ => .inl (h q)⟩

/-- **The order of independent jobs does not matter for the files.** -/
theorem find?_of_perm (hperm : jobs.Perm jobs') (hfs : fs.WellFormed)
    (h : IndependentJobs c.defaults fs jobs) (hends : ∀ job ∈ jobs, c.Ends fs job) :
    ((c.runJobs jobs : StateM FileSystem _).run fs).2.find? q =
      ((c.runJobs jobs' : StateM FileSystem _).run fs).2.find? q := by
  induction hperm generalizing fs with
  | nil => rfl
  | cons job hperm ih =>
    have hfirst := hends job List.mem_cons_self
    rw [run_runJobs_cons hfirst, run_runJobs_cons hfirst]
    exact ih (wellFormed_after hfs) (h.after hfs) fun other hother =>
      (h.ends_after hfs hother).2 (hends other (List.mem_cons_of_mem _ hother))
  | swap a b rest =>
    obtain ⟨hb, ha⟩ := (List.forall_mem_cons.1 h.steady).imp_right (List.forall_mem_cons.1 · |>.1)
    have hpair := (List.pairwise_cons.1 h.pairwise).1 a List.mem_cons_self
    have hcommute : c.Commute fs b a := commute_of_independent hfs hb ha hpair
    have hendsb := hends b List.mem_cons_self
    have hendsa := hends a (List.mem_cons_of_mem _ List.mem_cons_self)
    have hendsa' : c.Ends (c.after fs b) a := by rwa [Ends, hcommute.second]
    have hendsb' : c.Ends (c.after fs a) b := by rwa [Ends, hcommute.first]
    rw [run_runJobs_cons hendsb, run_runJobs_cons hendsa', run_runJobs_cons hendsa,
      run_runJobs_cons hendsb']
    -- The other jobs start with the same files.
    have hgrown : ∀ first second, Grown fs (c.after (c.after fs first) second) :=
      fun _ _ => grown_after (grown_after (.refl hfs))
    have hbeside := beside_of_find? (hgrown a b) (hgrown b a) hcommute.files
    have hsteady : ∀ job ∈ rest, job.SteadyIn c.defaults fs :=
      fun job hjob => h.steady job (List.mem_cons_of_mem _ (List.mem_cons_of_mem _ hjob))
    have hrest := runJobs_beside hsteady (fun _ _ _ _ => ⟨fun _ _ => id, id⟩) hbeside
    exact hrest.2.changes.find?_eq id id
  | trans hperm hperm' ih ih' =>
    have hends' := fun job hjob => hends job (hperm.mem_iff.2 hjob)
    exact (ih hfs h hends).trans (ih' hfs (h.perm hperm) hends')

end BatchConfig

/-!
### Two jobs with one bundle

The paths of the jobs are short, and both read the same bundle.
-/

namespace BatchConfig.Pair

variable {d : Defaults} {fs : FileSystem} {name source output : String}

theorem wellFormed_files : Flat.files.WellFormed where
  current := rfl
  tag := by decide
  parent part place h := by
    have hplace : part :: place = ["g.bundle"] := by
      by_contra hne
      exact h (by simp [Flat.files, FileSystem.find?, List.lookup_cons, beq_false_of_ne hne])
    obtain ⟨-, rfl⟩ := List.cons.inj hplace
    rfl

theorem steadyIn_jobFrom (hsource : fs.Steady Unnamable source)
    (houtput : fs.Steady Upwards output) : (jobFrom name source output).SteadyIn d fs := by
  refine ⟨List.forall_mem_singleton.2 hsource, fun path hpath => ?_⟩
  obtain rfl := List.mem_singleton.1 (List.mem_filter.1 hpath).1
  exact houtput

theorem mem_paths_jobFrom {path : String}
    (h : path ∈ (jobFrom name source output).readPaths ++
      (jobFrom name source output).writePaths d) : path = source ∨ path = output := by
  rcases List.mem_append.1 h with hread | hwrite
  · exact .inl (List.mem_singleton.1 hread)
  · exact .inr (List.mem_singleton.1 (List.mem_filter.1 hwrite).1)

theorem mem_writePlaces_jobFrom {w : Location}
    (h : w ∈ (jobFrom name source output).writePlaces d fs) :
    w = fs.destination output ∨ w = fs.destination (temporary output fs.tag) := by
  obtain ⟨path, hpath, hw⟩ := List.mem_flatMap.1 h
  obtain rfl := List.mem_singleton.1 (List.mem_filter.1 hpath).1
  simpa using hw

theorem mem_places_jobFrom {p : Location} (h : p ∈ (jobFrom name source output).places d fs) :
    p = fs.destination source ∨ p = fs.destination output ∨
      p = fs.destination (temporary output fs.tag) := by
  rcases List.mem_append.1 h with hread | hwrite
  · exact .inl (List.mem_singleton.1 hread)
  · exact .inr (mem_writePlaces_jobFrom hwrite)

theorem independent_jobFrom {name' source' output' : String}
    (h : ∀ w ∈ [fs.destination output, fs.destination (temporary output fs.tag)],
      ∀ p ∈ [fs.destination source', fs.destination output',
        fs.destination (temporary output' fs.tag)], Apart w p)
    (h' : ∀ w ∈ [fs.destination output', fs.destination (temporary output' fs.tag)],
      ∀ p ∈ [fs.destination source, fs.destination output,
        fs.destination (temporary output fs.tag)], Apart w p) :
    (jobFrom name source output).Independent d fs (jobFrom name' source' output') := by
  constructor
  · intro w hw p hp
    exact h w (by simpa using mem_writePlaces_jobFrom hw) p (by simpa using mem_places_jobFrom hp)
  · intro w hw p hp
    exact h' w (by simpa using mem_writePlaces_jobFrom hw) p (by simpa using mem_places_jobFrom hp)

theorem destination_temporary_target (h : Target output) :
    Flat.files.destination (temporary output Flat.files.tag) = [output ++ ".tmp" ++ "7"] := by
  have htemporary : temporary output Flat.files.tag = output ++ ".tmp" ++ "7" := h.temporary_eq
  rw [htemporary, destination_plain h.temporary]
  rfl

theorem target_first : Target "a.mlpack" := ⟨by decide, by decide, by decide, by decide⟩

theorem target_second : Target "b.mlpack" := ⟨by decide, by decide, by decide, by decide⟩

theorem steadyIn_job (h : Target output) : (job name output).SteadyIn d Flat.files :=
  steadyIn_jobFrom (.of_plain Flat.plain_source fun _ => id) (.of_plain h.plain fun _ => .inl)

theorem independent_job :
    (job "a" "a.mlpack").Independent d Flat.files (job "b" "b.mlpack") := by
  have h : (jobFrom "a" "g.bundle" "a.mlpack").Independent d Flat.files
      (jobFrom "b" "g.bundle" "b.mlpack") := by
    apply independent_jobFrom <;>
      rw [destination_plain target_first.plain, destination_plain target_second.plain,
        destination_plain Flat.plain_source, destination_temporary_target target_first,
        destination_temporary_target target_second] <;> decide
  exact h

/-- A job ends well beside the bundle. -/
theorem outcome_job [NumberSource] {jobs : List Job} (hname : Text.allBlank name = false)
    (h : Target output) :
    (batch jobs).outcome Flat.files (job name output) = ⟨name, .ok output⟩ := by
  obtain ⟨fs', hrun, -⟩ := run_job output output name holds_files hname h
  exact congrArg (JobOutcome.mk name) (congrArg Prod.fst hrun)

/-- A job that cannot read its bundle fails in the first stage. -/
theorem outcome_of_read_error [NumberSource] {cause : FileError} (jobs : List Job)
    (hread : fs.read source = .error cause) :
    (batch jobs).outcome fs (jobFrom name source output) =
      ⟨name, .error (.reported ⟨name, .load, .file source cause⟩)⟩ := by
  have hlabels : fs.run (during name .load (jobFrom name source output).loadLabels) =
      (.ok none, fs) := rfl
  have hdeclared : fs.run (during name .load (ofResult (jobFrom name source output).descriptor)) =
      (.ok none, fs) := rfl
  have hbytes : fs.run (bytes source : ExceptT FileError (StateM FileSystem) Bytes) =
      (.error cause, fs) := by
    rw [run_bytes, hread]
  have hload : fs.run (Bundle.load source : ExceptT (Fault ModelError) (StateM FileSystem) _) =
      (.error (.reported (.file source cause)), fs) :=
    run_bind_of_error (run_adapt_of_error (run_adapt_of_error hbytes))
  have hexport : fs.run ((jobFrom name source output).exportGraph (batch jobs).defaults none :
      Converting (StateM FileSystem) _) =
        (.error (.reported ⟨name, .load, .file source cause⟩), fs) :=
    run_bind_of_error (run_adapt_of_error (run_adapt_of_error hload))
  have hrun : fs.run ((batch jobs).runJob (jobFrom name source output) :
      Converting (StateM FileSystem) _) =
        (.error (.reported ⟨name, .load, .file source cause⟩), fs) :=
    (run_bind_of_ok hlabels).trans ((run_bind_of_ok hdeclared).trans (run_bind_of_error hexport))
  exact congrArg (JobOutcome.mk name) (congrArg Prod.fst hrun)

/-- A job that can read it does not. -/
theorem stageOf_of_read [NumberSource] (jobs : List Job) (hname : Text.allBlank name = false)
    (hread : fs.read source = .ok (Bundle.encode Flat.graph)) :
    stageOf ((batch jobs).outcome fs (jobFrom name source output)).result ≠ some .load := by
  rcases hrun : fs.run ((batch jobs).runJob (jobFrom name source output) :
    Converting (StateM FileSystem) _) with ⟨r, fs'⟩
  have hpersist := hrun
  rw [runJob_eq, run_bind_of_ok (run_annotated_of_read jobs hread hname)] at hpersist
  rw [outcome, hrun]
  rcases (Job.cases_persist hpersist).1 with hok | hstage
  · obtain ⟨path, rfl⟩ := Outcome.exists_of_isOk hok
    simp [stageOf]
  · simp [hstage]

/-! #### Paths through a directory that is made -/

/-- A path to the bundle through a directory. -/
def around : String := "d/../g.bundle"

theorem splitOn_around : around.splitOn "/" = ["d", "..", "g.bundle"] := by
  rw [Path.splitOn_slash]
  decide

theorem accepted_around : Accepted around := by
  refine ⟨by decide, ?_, by decide⟩
  simp [around]

/-- A name of a given length. -/
def repeated (n : Nat) : String := String.ofList (List.replicate n 'x')

theorem not_mem_repeated {n : Nat} {ch : Char} (h : ch ≠ 'x') : ch ∉ (repeated n).toList := by
  rw [repeated, String.toList_ofList]
  exact fun hmem => h (List.eq_of_mem_replicate hmem)

theorem size_repeated (n : Nat) : (repeated n).utf8ByteSize = n := by
  rw [repeated, String.utf8ByteSize_ofList]
  induction n with
  | zero => rfl
  | succ n ih =>
    rw [List.replicate_succ, String.utf8Len_cons, ih]
    rfl

theorem repeated_ne {n : Nat} (hlong : maxName < n) (other : String)
    (hother : other.utf8ByteSize ≤ maxName) : repeated n ≠ other := by
  rintro rfl
  rw [size_repeated] at hother
  exact absurd hlong hother.not_gt

theorem splitOn_repeated (n : Nat) :
    ("d" ++ "/" ++ repeated n).splitOn "/" = ["d", repeated n] := by
  have hd : "d".splitOn "/" = ["d"] := Path.splitOn_of_noSlash (by decide)
  have hname : (repeated n).splitOn "/" = [repeated n] :=
    Path.splitOn_of_noSlash (not_mem_repeated (by decide))
  rw [Path.splitOn_append_slash, hd, hname, List.singleton_append]

theorem accepted_repeated {n : Nat} (h : n ≤ 4093) : Accepted ("d" ++ "/" ++ repeated n) := by
  refine ⟨by simp, ?_, ?_⟩
  · have hnull : Char.ofNat 0 ∉ (repeated n).toList := not_mem_repeated (by decide)
    simpa using hnull
  · have hd : ("d" ++ "/").utf8ByteSize = 2 := by decide
    rw [String.utf8ByteSize_append, size_repeated, hd, maxPath]
    omega

theorem startOf_of_current {path : String} (h : fs.current = []) : fs.startOf path = [] := by
  unfold FileSystem.startOf
  split
  · rfl
  · exact h

/-- While the directory is missing, there is nothing behind it. -/
theorem read_of_missing {path part : String} {parts : List String} (hcurrent : fs.current = [])
    (haccepted : Accepted path) (hsplit : path.splitOn "/" = "d" :: part :: parts)
    (hd : fs.find? ["d"] = none) : fs.read path = .error .notFound := by
  have hfile : fs.resolveFile path = .error .notFound := by
    rw [resolveFile_of_accepted haccepted, startOf_of_current hcurrent, hsplit, fileFrom,
      walk_plain (by decide) rfl, Outcome.ok_bind, fileFrom, walk, hd]
    rfl
  rw [FileSystem.read, hfile]
  rfl

theorem read_around {content : Bytes} (hcurrent : fs.current = [])
    (hd : fs.find? ["d"] = some .directory)
    (hbundle : fs.find? ["g.bundle"] = some (.file content)) : fs.read around = .ok content := by
  have hup : fs.walk ["d"] ".." = .ok [] := by
    rw [walk, hd]
    rfl
  have hfile : fs.resolveFile around = .ok (["g.bundle"], content) := by
    rw [resolveFile_of_accepted accepted_around, startOf_of_current hcurrent, splitOn_around,
      fileFrom, walk_plain (by decide) rfl, Outcome.ok_bind, fileFrom, hup, Outcome.ok_bind,
      fileFrom, walk_plain Flat.plain_source rfl, Outcome.ok_bind, fileFrom, hbundle]
  rw [FileSystem.read, hfile]
  rfl

theorem read_repeated {n : Nat} (hcurrent : fs.current = [])
    (hd : fs.find? ["d"] = some .directory) (hlong : maxName < n) (hshort : n ≤ 4093) :
    fs.read ("d" ++ "/" ++ repeated n) = .error tooLong := by
  have hne := repeated_ne hlong
  have hwalk : fs.walk ["d"] (repeated n) = .error tooLong := by
    rw [walk, hd]
    dsimp only
    rw [if_neg (by simp [hne "" (by decide), hne "." (by decide)]), if_neg (hne ".." (by decide)),
      if_pos (by rwa [size_repeated])]
  have hfile : fs.resolveFile ("d" ++ "/" ++ repeated n) = .error tooLong := by
    rw [resolveFile_of_accepted (accepted_repeated hshort), startOf_of_current hcurrent,
      splitOn_repeated, fileFrom, walk_plain (by decide) rfl, Outcome.ok_bind, fileFrom, hwalk]
    rfl
  rw [FileSystem.read, hfile]
  rfl

/-! #### A job that makes the directory -/

theorem splitOn_below : "d/a.mlpack".splitOn "/" = ["d", "a.mlpack"] := by
  rw [Path.splitOn_slash]
  decide

theorem fileName_below : Path.fileName? "d/a.mlpack" = some "a.mlpack" := by
  rw [Path.fileName?, Path.parts, splitOn_below]
  decide

theorem enclosing_below : Path.enclosing? "d/a.mlpack" = some "d" := by
  rw [Path.enclosing?, Path.parent?, Path.parts, splitOn_below]
  decide

theorem run_makeWay : Flat.files.run (makeWay "d/a.mlpack") =
    (.ok (), Flat.files.put ["d"] .directory) := by
  have hd : Path.Plain "d" := by decide
  rw [makeWay, enclosing_below]
  refine run_adapt_eq_ok.2 ?_
  change Flat.files.perform (.createDirectories "d") = _
  rw [FileSystem.perform, if_neg hd.ne.1, if_neg (by simp), if_neg (by decide), hd.splitOn,
    startOf_of_current rfl, createAlong, walk_plain hd rfl]
  rfl

theorem destination_below : Flat.files.destination "d/a.mlpack" = ["a.mlpack", "d"] := by
  rw [FileSystem.destination, startOf_of_current rfl, splitOn_below]
  decide

theorem destination_temporary_below :
    Flat.files.destination (temporary "d/a.mlpack" Flat.files.tag) = ["a.mlpack.tmp7", "d"] :=
  destination_temporary_of (by rw [fileName_below]; rfl) (by decide) destination_below

/-- The job does not depend on one that reads its bundle elsewhere. -/
theorem independent_below (source : String)
    (hsource : ∀ w ∈ [["a.mlpack", "d"], ["a.mlpack.tmp7", "d"]],
      Apart w (Flat.files.destination source)) :
    (jobFrom "a" "g.bundle" "d/a.mlpack").Independent d Flat.files
      (jobFrom "b" source "b.mlpack") := by
  have hstored : ∀ w ∈ [["a.mlpack", "d"], ["a.mlpack.tmp7", "d"]],
      ∀ p ∈ [["b.mlpack"], ["b.mlpack" ++ ".tmp" ++ "7"]], Apart w p := by decide
  apply independent_jobFrom <;>
    rw [destination_below, destination_temporary_below, destination_plain target_second.plain,
      destination_temporary_target target_second]
  · intro w hw
    exact List.forall_mem_cons.2 ⟨hsource w hw, hstored w hw⟩
  · rw [destination_plain Flat.plain_source]
    decide

theorem check_below (source : String) :
    (batch [jobFrom "a" "g.bundle" "d/a.mlpack", jobFrom "b" source "b.mlpack"]).check =
      .ok () := by
  have ha : Text.allBlank "a" = false := by decide
  have hb : Text.allBlank "b" = false := by decide
  have hvalid : Normalization.standard.valid = true := by decide
  simp [batch, check, jobFrom, job, checkJob, Job.ofSource, ha, hb, hvalid, Job.hasBothLabels]

/-- The job leaves the bundle where it is. -/
theorem bundle_after [NumberSource] (jobs : List Job) :
    ((batch jobs).after Flat.files (jobFrom "a" "g.bundle" "d/a.mlpack")).find? ["g.bundle"] =
      some (.file (Bundle.encode Flat.graph)) := by
  have hsteady : (jobFrom "a" "g.bundle" "d/a.mlpack").SteadyIn (batch jobs).defaults Flat.files :=
    steadyIn_jobFrom (.of_plain Flat.plain_source fun _ => id)
      (.of_parts (by rw [splitOn_below]; simp [Upwards]))
  have hwritten : ∀ w ∈ (jobFrom "a" "g.bundle" "d/a.mlpack").writePlaces (batch jobs).defaults
      Flat.files, ¬["g.bundle"] <:+ w := by
    intro w hw
    have hcases := mem_writePlaces_jobFrom hw
    rw [destination_below, destination_temporary_below] at hcases
    rcases hcases with rfl | rfl <;> decide
  have hsame := (changes_after wellFormed_files hsteady).find?_eq
    (fun hF => hwritten _ hF List.suffix_rfl) fun ⟨w, hw, hsuffix⟩ => hwritten w hw hsuffix
  rw [hsame]
  rfl

theorem directory_after [NumberSource] (jobs : List Job) :
    ((batch jobs).after Flat.files (jobFrom "a" "g.bundle" "d/a.mlpack")).find? ["d"] =
      some .directory := by
  have hreplace : (batch jobs).after Flat.files (jobFrom "a" "g.bundle" "d/a.mlpack") =
      (Flat.files.run (replace "d/a.mlpack" (artifact "a").encode)).2 := by
    rw [after, runJob_eq,
      run_bind_of_ok (run_annotated_of_read jobs holds_files.read_source (by decide))]
    exact (Job.cases_persist Prod.mk.eta.symm).2
  have hname : (Path.fileName? "d/a.mlpack").isSome := by
    rw [fileName_below]
    rfl
  rw [hreplace, replace_of_named hname, run_bind_of_ok run_makeWay]
  -- What comes then keeps directories.
  have hmade : (Flat.files.put ["d"] .directory).WellFormed :=
    wellFormed_files.put (by decide) (by rintro _ _ ⟨⟩; rfl) .directory
  have hkept : Keeps (Grown (Flat.files.put ["d"] .directory))
      (writeBeside "d/a.mlpack" (artifact "a").encode) :=
    keeps_writeBeside (fun _ h => h.tag) fun s _ _ h => h.perform s
  exact (hkept _ (.refl hmade)).directories ["d"] (find?_put_self (by simp) _)

theorem current_after [NumberSource] (jobs : List Job) :
    ((batch jobs).after Flat.files (jobFrom "a" "g.bundle" "d/a.mlpack")).current = [] :=
  (grown_after (.refl wellFormed_files)).current

theorem independent_around : (jobFrom "a" "g.bundle" "d/a.mlpack").Independent d Flat.files
    (jobFrom "b" around "b.mlpack") := by
  have hplace : Flat.files.destination around = ["g.bundle"] := by
    rw [FileSystem.destination, startOf_of_current rfl, splitOn_around]
    decide
  exact independent_below _ (by rw [hplace]; decide)

/-- The second job finds its bundle only after the first one. -/
theorem not_commute_around [NumberSource] (jobs : List Job) : ¬(batch jobs).Commute Flat.files
    (jobFrom "a" "g.bundle" "d/a.mlpack") (jobFrom "b" around "b.mlpack") := by
  intro h
  have hbefore : Flat.files.read around = .error .notFound :=
    read_of_missing rfl accepted_around splitOn_around rfl
  have hafter := read_around (current_after jobs) (directory_after jobs) (bundle_after jobs)
  have hstage : stageOf ((batch jobs).outcome ((batch jobs).after Flat.files
      (jobFrom "a" "g.bundle" "d/a.mlpack")) (jobFrom "b" around "b.mlpack")).result ≠
        some .load := stageOf_of_read jobs (by decide) hafter
  rw [h.second, outcome_of_read_error jobs hbefore] at hstage
  exact hstage rfl

theorem independent_repeated : (jobFrom "a" "g.bundle" "d/a.mlpack").Independent d Flat.files
    (jobFrom "b" ("d" ++ "/" ++ repeated 256) "b.mlpack") := by
  have hlong : maxName < 256 := by decide
  have hne := repeated_ne hlong
  have hplace : Flat.files.destination ("d" ++ "/" ++ repeated 256) = [repeated 256, "d"] := by
    rw [FileSystem.destination, startOf_of_current rfl, splitOn_repeated, List.foldl_cons,
      along_name (by decide), List.foldl_cons,
      along_name ⟨hne _ (by decide), hne _ (by decide), hne _ (by decide)⟩]
    rfl
  refine independent_below _ ?_
  rw [hplace, List.forall_mem_cons, List.forall_mem_singleton]
  exact ⟨apart_of_ne (hne _ (by decide)).symm _, apart_of_ne (hne _ (by decide)).symm _⟩

/-- The failure of the second job is another one after the first one. -/
theorem not_commute_repeated [NumberSource] (jobs : List Job) : ¬(batch jobs).Commute Flat.files
    (jobFrom "a" "g.bundle" "d/a.mlpack")
    (jobFrom "b" ("d" ++ "/" ++ repeated 256) "b.mlpack") := by
  intro h
  have hbefore : Flat.files.read ("d" ++ "/" ++ repeated 256) = .error .notFound :=
    read_of_missing rfl (accepted_repeated (by decide)) (splitOn_repeated 256) rfl
  have hafter := read_repeated (current_after jobs) (directory_after jobs)
    (show maxName < 256 by decide) (by decide)
  have hsecond := h.second
  rw [outcome_of_read_error jobs hbefore, outcome_of_read_error jobs hafter] at hsecond
  cases hsecond

end BatchConfig.Pair

namespace BatchConfig

variable {c : BatchConfig} {fs : FileSystem}

/-- How jobs run does not depend on which jobs the batch has. -/
theorem runJobs_with [NumberSource] (c : BatchConfig) (jobs jobs' : List Job) :
    ({ c with jobs := jobs' } : BatchConfig).runJobs jobs =
      (c.runJobs jobs : StateM FileSystem _) := by
  induction jobs with
  | nil => rfl
  | cons job rest ih =>
    rw [runJobs, runJobs, ih]
    rfl

/-- **Independent jobs commute, and the order of a batch of them does not matter.** -/
theorem run_perm_of_independent [NumberSource] (hfs : fs.WellFormed) :
    (∀ a b : Job, a.SteadyIn c.defaults fs → b.SteadyIn c.defaults fs →
      a.Independent c.defaults fs b → c.Commute fs a b) ∧
    ∀ (jobs : List Job) (report : BatchReport) (fs' : FileSystem), jobs.Perm c.jobs →
      IndependentJobs c.defaults fs c.jobs →
      ({ c with jobs := jobs }.run : StateM FileSystem _).run fs = (report, fs') →
      (report.crashed = true ↔ ∃ job ∈ c.jobs, ¬c.Ends fs job) ∧
        (report.crashed = false → report.outcomes = jobs.map (c.outcome fs) ∧
          ∀ q, fs'.find? q = ((c.run : StateM FileSystem _).run fs).2.find? q) := by
  refine ⟨fun a b ha hb h => commute_of_independent hfs ha hb h, ?_⟩
  intro jobs report fs' hperm hjobs hrun
  rw [run_run, runJobs_with] at hrun
  obtain ⟨rfl, rfl⟩ := Prod.mk.inj hrun
  have hjobs' : IndependentJobs c.defaults fs jobs := hjobs.perm hperm.symm
  have hcrashed := crashed_iff_of_independent hfs hjobs'
  simp only [hperm.mem_iff] at hcrashed
  refine ⟨hcrashed, fun hfalse => ?_⟩
  have hends : ∀ job ∈ jobs, c.Ends fs job := by
    intro job hjob
    by_contra hcrash
    rw [hcrashed.2 ⟨job, hperm.mem_iff.1 hjob, hcrash⟩] at hfalse
    cases hfalse
  refine ⟨outcomes_of_independent hfs hjobs' hends, fun q => ?_⟩
  rw [run_run]
  exact find?_of_perm hperm hfs hjobs' hends

attribute [local instance] Export.zeroSource

/-- Two jobs store their artifacts beside one bundle, in the other order as well. -/
theorem run_perm_of_independent_pair :
    (Pair.batch [Pair.job "a" "a.mlpack", Pair.job "b" "b.mlpack"]).Commute Flat.files
        (Pair.job "a" "a.mlpack") (Pair.job "b" "b.mlpack") ∧
      ∃ fs', ((Pair.batch [Pair.job "b" "b.mlpack", Pair.job "a" "a.mlpack"]).run :
          StateM FileSystem _).run Flat.files =
            (⟨[⟨"b", .ok "b.mlpack"⟩, ⟨"a", .ok "a.mlpack"⟩]⟩, fs') ∧
        ∀ q, fs'.find? q = (((Pair.batch [Pair.job "a" "a.mlpack", Pair.job "b" "b.mlpack"]).run :
          StateM FileSystem _).run Flat.files).2.find? q := by
  let c := Pair.batch [Pair.job "a" "a.mlpack", Pair.job "b" "b.mlpack"]
  obtain ⟨hpair, hbatch⟩ := run_perm_of_independent (c := c) Pair.wellFormed_files
  have hsteady : ∀ job ∈ c.jobs, job.SteadyIn c.defaults Flat.files :=
    List.forall_mem_cons.2 ⟨Pair.steadyIn_job Pair.target_first,
      List.forall_mem_singleton.2 (Pair.steadyIn_job Pair.target_second)⟩
  have ha : c.outcome Flat.files (Pair.job "a" "a.mlpack") = ⟨"a", .ok "a.mlpack"⟩ :=
    Pair.outcome_job (by decide) Pair.target_first
  have hb : c.outcome Flat.files (Pair.job "b" "b.mlpack") = ⟨"b", .ok "b.mlpack"⟩ :=
    Pair.outcome_job (by decide) Pair.target_second
  refine ⟨hpair _ _ (Pair.steadyIn_job Pair.target_first) (Pair.steadyIn_job Pair.target_second)
    Pair.independent_job, ?_⟩
  rcases hrun : ((Pair.batch [Pair.job "b" "b.mlpack", Pair.job "a" "a.mlpack"]).run :
    StateM FileSystem _).run Flat.files with ⟨report, fs'⟩
  obtain ⟨hcrashed, hdone⟩ := hbatch _ report fs' (List.Perm.swap _ _ _)
    ⟨hsteady, List.pairwise_pair.2 Pair.independent_job⟩ hrun
  have hfalse : report.crashed = false := by
    rw [Bool.eq_false_iff]
    intro htrue
    obtain ⟨job, hjob, hcrash⟩ := hcrashed.1 htrue
    have hends : ∀ job ∈ c.jobs, c.Ends Flat.files job :=
      List.forall_mem_cons.2 ⟨by simp [Ends, ha], List.forall_mem_singleton.2 (by simp [Ends, hb])⟩
    exact hcrash (hends job hjob)
  obtain ⟨houtcomes, hfiles⟩ := hdone hfalse
  rw [List.map_cons, List.map_singleton, ha, hb] at houtcomes
  exact ⟨fs', congrArg (fun outcomes => (BatchReport.mk outcomes, fs')) houtcomes, hfiles⟩

/-- A path through a directory that another job makes leads somewhere only after that job, and a
name in that directory is too long only then: paths of one job can depend on the other one though
they lead to different places. -/
theorem not_forall_commute :
    (¬∀ (c : BatchConfig) (fs : FileSystem) (a b : Job), fs.WellFormed → c.check = .ok () →
      a ∈ c.jobs → b ∈ c.jobs → a.Independent c.defaults fs b → c.Commute fs a b) ∧
    ¬∀ (c : BatchConfig) (fs : FileSystem) (a b : Job), fs.WellFormed → c.check = .ok () →
      a ∈ c.jobs → b ∈ c.jobs → a.Independent c.defaults fs b →
      (∀ job ∈ [a, b], ∀ path ∈ job.readPaths ++ job.writePaths c.defaults,
        ".." ∉ path.splitOn "/") → c.Commute fs a b := by
  constructor
  · intro h
    exact Pair.not_commute_around _ (h _ _ _ _ Pair.wellFormed_files (Pair.check_below _)
      List.mem_cons_self (List.mem_cons_of_mem _ List.mem_cons_self) Pair.independent_around)
  · intro h
    refine Pair.not_commute_repeated _ (h _ _ _ _ Pair.wellFormed_files (Pair.check_below _)
      List.mem_cons_self (List.mem_cons_of_mem _ List.mem_cons_self) Pair.independent_repeated ?_)
    rw [List.forall_mem_cons, List.forall_mem_singleton]
    constructor
    · intro path hpath
      rcases Pair.mem_paths_jobFrom hpath with rfl | rfl
      · rw [Flat.plain_source.splitOn]
        decide
      · rw [Pair.splitOn_below]
        decide
    · intro path hpath
      rcases Pair.mem_paths_jobFrom hpath with rfl | rfl
      · have hup : Pair.repeated 256 ≠ ".." := Pair.repeated_ne (by decide) _ (by decide)
        rw [Pair.splitOn_repeated]
        simpa using hup.symm
      · rw [Pair.target_second.plain.splitOn]
        decide

end BatchConfig

end NetPack
