import NetPack.Files.Memory

/-!
# Files on which steps fail

A step on files can fail for reasons that do not lie in the files, with a part of it done, and the
program can be stopped at any step. `Unreliable` computations work on files in memory, and the fate
of each of their steps is fixed beforehand, so that a statement about all fates is one about
everything that can happen. A `Trial` also records which steps were made and how they ended.
-/

namespace NetPack

/-- What becomes of a step. One that is cut short has done some of its work. -/
inductive Fate where
  /-- The step is performed. It fails if the files are not fit for it. -/
  | performed
  /-- The step is cut short by a failure. -/
  | failed (cause : FileError) (done : Nat)
  /-- The run ends in the step, before it if nothing of it is done. -/
  | stopped (done : Nat)
deriving DecidableEq

/-- What is behind a step that was cut short: directories along some first parts of a path, or some
first bytes of what was to be added. Any other step is performed as a whole or not at all. -/
def FileSystem.cutShort (fs : FileSystem) (s : FileStep) (done : Nat) : FileSystem :=
  match s with
  | .createDirectories path =>
    (fs.createAlong false (fs.startOf path) ((path.splitOn "/").take done)).2
  | .append path bytes => (fs.perform (.append path (bytes.take done))).2
  | _ => fs

/-- Files in memory on which steps meet their fates. -/
structure Trial where
  /-- The files now. -/
  files : FileSystem
  /-- The fates of the next steps. All steps behind these are performed. -/
  fates : List Fate
  /-- The steps that were made and how they ended, the last one first. -/
  past : List (FileStep × Except FileError Unit)

namespace Trial

/-- Before the first step. -/
def start (fs : FileSystem) (fates : List Fate) : Trial := ⟨fs, fates, []⟩

/-- Makes a step. There is no result if the run is stopped. -/
def perform (t : Trial) (s : FileStep) : Option (Except FileError Unit) × Trial :=
  match t.fates.headD .performed with
  | .performed =>
    let (r, fs) := t.files.perform s
    (some r, ⟨fs, t.fates.tail, (s, r) :: t.past⟩)
  | .failed cause done =>
    (some (.error cause), ⟨t.files.cutShort s done, t.fates.tail, (s, .error cause) :: t.past⟩)
  | .stopped done => (none, ⟨t.files.cutShort s done, t.fates.tail, t.past⟩)

end Trial

/-- Computations on files that may fail or be stopped at any step. -/
abbrev Unreliable := OptionT (StateM Trial)

instance : FileStore Unreliable where
  perform s := OptionT.mk fun t => t.perform s
  read path := OptionT.mk fun t => (some (t.files.read path), t)
  isFile path := OptionT.mk fun t => (some (t.files.isFile path), t)
  tag := OptionT.mk fun t => (some t.files.tag, t)

end NetPack
