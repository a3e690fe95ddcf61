import NetPack.Proofs.Paths

/-!
# What a change to files leaves alone

Where a path leads to can be told from the path and the directory where paths start
(`FileSystem.destination`): files and directories that are missing can only make it lead nowhere. A
change to files keeps that directory and all directories that are there. `FileSystem.Changes` says
at which places the files may have changed and at which ones directories may have been made; at all
other places things are as they were. A step changes what its own paths lead to
(`FileSystem.changes_perform`), and replacing a file changes that file and the temporary one and
makes directories that are missing on the way (`FileSystem.keeps_changes`). The temporary file lies
beside the other one, under another name (`FileSystem.destination_temporary`).

`FileSystem.Spares` is what matters to readers: the files at some places are the same, and so what
is read at a path that leads there (`FileSystem.Spares.resolveFile`).
-/

namespace NetPack

/-- The paths of the files that a step changes or removes. -/
def FileStep.paths : FileStep → List String
  | .createDirectories _ | .sync _ => []
  | .create path | .append path _ | .remove path => [path]
  | .rename source target => [source, target]

namespace FileSystem

open FileStore

variable {ε ε' α β : Type} {fs fs' fs₁ fs₂ : FileSystem} {path : String}
  {place target : Location} {content : Bytes} {F D P : Location → Prop}

/-! ### Where paths lead to if they lead anywhere -/

/-- Where a part of a path leads to. -/
def along (place : Location) (part : String) : Location :=
  if part = "" || part = "." then place
  else if part = ".." then place.drop 1
  else part :: place

/-- Where a path leads to, if all directories on the way are there. -/
def destination (fs : FileSystem) (path : String) : Location :=
  (path.splitOn "/").foldl along (fs.startOf path)

/-- The places on the way along the parts of a path, from where it starts to where it leads. -/
def way (place : Location) : List String → List Location
  | [] => [place]
  | part :: parts => place :: way (along place part) parts

theorem start_mem_way (place : Location) (parts : List String) : place ∈ way place parts := by
  cases parts <;> exact List.mem_cons_self

theorem mem_way_append {q : Location} {parts parts' : List String} :
    q ∈ way place (parts ++ parts') ↔
      q ∈ way place parts ∨ q ∈ way (parts.foldl along place) parts' := by
  induction parts generalizing place with
  | nil =>
    simp only [List.nil_append, way, List.mem_singleton, List.foldl_nil]
    refine ⟨.inr, ?_⟩
    rintro (rfl | hq)
    · exact start_mem_way q parts'
    · exact hq
  | cons part parts ih => simp [way, ih, or_assoc]

/-- The name of a file leads to the directory where paths start. -/
theorem destination_plain {name : String} (h : Path.Plain name) :
    fs.destination name = name :: fs.current := by
  obtain ⟨hempty, hdot, hup⟩ := h.ne
  rw [destination, h.splitOn, startOf, h.isAbsolute]
  simp [along, hempty, hdot, hup]

/-- The name of a file in a directory, where both have plain names. -/
theorem resolve_join_plain {directory name : String} (hdirectory : Path.Plain directory)
    (h : Path.Plain name) (hcurrent : fs.find? fs.current = some .directory)
    (hplace : fs.find? (directory :: fs.current) = some .directory) :
    fs.resolve (Path.join directory name) = .ok (name :: directory :: fs.current) := by
  have hsplit := Path.splitOn_join_plain hdirectory h
  have hne : Path.join directory name ≠ "" := by
    intro hempty
    rw [hempty, Path.splitOn_empty] at hsplit
    cases hsplit
  have haccepted : Accepted (Path.join directory name) := by
    have hdirectory' := hdirectory.short
    have hname := h.short
    have hslash : "/".utf8ByteSize = 1 := rfl
    have hnull : Char.ofNat 0 ∉ directory.toList ∧ Char.ofNat 0 ∉ name.toList := by
      simpa using And.intro hdirectory.noNull h.noNull
    refine ⟨hne, ?_, ?_⟩
    · rw [Path.join_plain hdirectory h]
      simpa using hnull
    · rw [Path.join_plain hdirectory h, String.utf8ByteSize_append, String.utf8ByteSize_append,
        hslash]
      simp only [maxName, maxPath] at *
      omega
  have hrelative : Path.isAbsolute (Path.join directory name) = false := by
    rw [Bool.eq_false_iff, Ne, Path.isAbsolute_iff, hsplit]
    simp [hdirectory.ne.1]
  refine resolve_eq_ok.2 ⟨haccepted, ?_⟩
  rw [hsplit, startOf, hrelative, List.foldlM_cons]
  refine (congrArg (· >>= _) (walk_plain hdirectory hcurrent)).trans ?_
  rw [Outcome.ok_bind, List.foldlM_cons]
  exact congrArg (· >>= _) (walk_plain h hplace)

theorem along_of_walk {next : Location} {part : String} (h : fs.walk place part = .ok next) :
    along place part = next := by
  rw [walk, find?_of_walk h] at h
  dsimp only at h
  unfold along
  split at h
  · rw [if_pos ‹_›]
    exact Except.ok.inj h
  · rw [if_neg ‹_›]
    split at h
    · rw [if_pos ‹_›]
      exact Except.ok.inj h
    · rw [if_neg ‹_›]
      rw [Outcome.ite_eq_ok (by simp)] at h
      exact Except.ok.inj h.2

theorem destination_of_resolve (h : fs.resolve path = .ok target) :
    fs.destination path = target := by
  have hfold := (resolve_eq_ok.1 h).2
  unfold destination
  generalize fs.startOf path = start at hfold ⊢
  generalize path.splitOn "/" = parts at hfold ⊢
  induction parts generalizing start with
  | nil => exact Except.ok.inj hfold
  | cons part parts ih =>
    rw [List.foldlM_cons] at hfold
    obtain ⟨next, hnext, hfold⟩ := Outcome.bind_eq_ok.1 hfold
    rw [List.foldl_cons, along_of_walk hnext]
    exact ih next hfold

/-! ### Where files and their temporary files are -/

theorem along_idle {part : String} (h : Path.Idle part) : along place part = place := by
  unfold along
  exact if_pos (by simpa [Path.Idle] using h)

theorem foldl_along_idle {parts : List String} (h : ∀ p ∈ parts, Path.Idle p) :
    parts.foldl along place = place := by
  induction parts with
  | nil => rfl
  | cons part parts ih =>
    rw [List.foldl_cons, along_idle (h part List.mem_cons_self)]
    exact ih fun p hp => h p (List.mem_cons_of_mem _ hp)

theorem along_name {part : String} (h : part ≠ "" ∧ part ≠ "." ∧ part ≠ "..") :
    along place part = part :: place := by
  simp [along, h.1, h.2.1, h.2.2]

/-- The directory that holds the file to which a path leads. -/
def holder (fs : FileSystem) (l : Path.Layout path) : Location :=
  l.base.foldl along (fs.startOf path)

theorem destination_layout (l : Path.Layout path) :
    fs.destination path = l.name :: fs.holder l := by
  rw [destination, l.parts, List.foldl_append, List.foldl_append, foldl_along_idle l.idle_inner,
    List.foldl_cons, along_name l.proper, foldl_along_idle l.idle_outer]
  rfl

/-- The name of a temporary file is longer than three characters. -/
theorem temporary_proper (name tag : String) :
    name ++ ".tmp" ++ tag ≠ "" ∧ name ++ ".tmp" ++ tag ≠ "." ∧ name ++ ".tmp" ++ tag ≠ ".." := by
  have hne : ∀ other : String, other.length < 4 → name ++ ".tmp" ++ tag ≠ other := by
    rintro _ hshort rfl
    have htmp : ".tmp".length = 4 := rfl
    rw [String.length_append, String.length_append, htmp] at hshort
    omega
  exact ⟨hne "" (by decide), hne "." (by decide), hne ".." (by decide)⟩

theorem splitOn_temporary (l : Path.Layout path) {tag : String} (htag : '/' ∉ tag.toList) :
    (temporary path tag).splitOn "/" = l.base ++ [l.name ++ ".tmp" ++ tag] := by
  rw [temporary, l.fileName?]
  refine l.splitOn_withFileName ?_
  simp [l.noSlash_name, htag]

theorem startOf_temporary (l : Path.Layout path) {tag : String} (htag : '/' ∉ tag.toList) :
    fs.startOf (temporary path tag) = fs.startOf path := by
  have hname := (temporary_proper l.name tag).1
  have hsplit := splitOn_temporary l htag
  have hne : temporary path tag ≠ "" := by
    intro hempty
    have hmem : l.name ++ ".tmp" ++ tag ∈ (temporary path tag).splitOn "/" := by
      rw [hsplit]
      simp
    rw [hempty, Path.splitOn_empty, List.mem_singleton] at hmem
    exact hname hmem
  rw [startOf, startOf, l.isAbsolute_of_base hne hsplit fun _ => by simp]

/-- **The temporary file lies beside the file.** -/
theorem destination_temporary (l : Path.Layout path) {tag : String} (htag : '/' ∉ tag.toList) :
    fs.destination (temporary path tag) = (l.name ++ ".tmp" ++ tag) :: fs.holder l := by
  rw [destination, splitOn_temporary l htag, startOf_temporary l htag, List.foldl_append,
    List.foldl_cons, along_name (temporary_proper l.name tag)]
  rfl

/-- Its name stands in the place of that of the file. -/
theorem destination_temporary_of {name : String} (hname : (Path.fileName? path).isSome)
    (htag : '/' ∉ fs.tag.toList) (h : fs.destination path = name :: place) :
    fs.destination (temporary path fs.tag) = (name ++ ".tmp" ++ fs.tag) :: place := by
  obtain ⟨l⟩ := Path.exists_layout hname
  rw [destination_layout l] at h
  obtain ⟨rfl, rfl⟩ := List.cons.inj h
  exact destination_temporary l htag

/-- It has another name. -/
theorem destination_temporary_ne (l : Path.Layout path) {tag : String} (htag : '/' ∉ tag.toList) :
    fs.destination (temporary path tag) ≠ fs.destination path := by
  rw [destination_temporary l htag, destination_layout l]
  intro h
  have hlength := congrArg String.length (List.cons.inj h).1
  have htmp : ".tmp".length = 4 := rfl
  rw [String.length_append, String.length_append, htmp] at hlength
  omega

/-! ### Changes -/

/-- From the first file system to the second one, paths start at the same place and no directory has
gone. What is at a place that is not in `F` has stayed, except that directories were made at places
in `D` at which nothing was. -/
structure Changes (F D : Location → Prop) (fs fs' : FileSystem) : Prop where
  current : fs'.current = fs.current
  tag : fs'.tag = fs.tag
  directories : ∀ place, fs.find? place = some .directory → fs'.find? place = some .directory
  rest : ∀ place, ¬F place → fs'.find? place = fs.find? place ∨
    fs.find? place = none ∧ fs'.find? place = some .directory ∧ D place

theorem Changes.refl (fs : FileSystem) : Changes F D fs fs :=
  ⟨rfl, rfl, fun _ h => h, fun _ _ => .inl rfl⟩

theorem Changes.trans (h : Changes F D fs fs₁) (h' : Changes F D fs₁ fs₂) :
    Changes F D fs fs₂ where
  current := h'.current.trans h.current
  tag := h'.tag.trans h.tag
  directories place hplace := h'.directories place (h.directories place hplace)
  rest place hF := by
    rcases h.rest place hF with hsame | ⟨hnone, hmade, hD⟩
    · rw [← hsame]
      exact h'.rest place hF
    · exact .inr ⟨hnone, h'.directories place hmade, hD⟩

theorem Changes.mono (h : Changes F D fs fs') {F' D' : Location → Prop} (hF : ∀ q, F q → F' q)
    (hD : ∀ q, D q → D' q) : Changes F' D' fs fs' where
  current := h.current
  tag := h.tag
  directories := h.directories
  rest q hq := (h.rest q fun hF' => hq (hF q hF')).imp_right fun ⟨hnone, hmade, hD'⟩ =>
    ⟨hnone, hmade, hD q hD'⟩

theorem Changes.startOf (h : Changes F D fs fs') (path : String) :
    fs'.startOf path = fs.startOf path := by
  rw [FileSystem.startOf, FileSystem.startOf, h.current]

theorem Changes.destination (h : Changes F D fs fs') (path : String) :
    fs'.destination path = fs.destination path := by
  rw [FileSystem.destination, FileSystem.destination, h.startOf]

/-- The file at a place. -/
def fileAt (fs : FileSystem) (place : Location) : Option Bytes :=
  match fs.find? place with
  | some (.file content) => some content
  | _ => none

/-- At all other places the same files are there, or none as before. -/
theorem Changes.fileAt (h : Changes F D fs fs') (hF : ¬F place) :
    fs'.fileAt place = fs.fileAt place := by
  rcases h.rest place hF with hsame | ⟨hnone, hmade, -⟩
  · rw [FileSystem.fileAt, FileSystem.fileAt, hsame]
  · rw [FileSystem.fileAt, FileSystem.fileAt, hnone, hmade]

theorem fileAt_eq_some :
    fs.fileAt place = some content ↔ fs.find? place = some (.file content) := by
  unfold fileAt
  split
  · simp [*]
  · rename_i hfile
    simpa using hfile content

/-- A new directory is no file. -/
theorem fileAt_put_directory (hplace : fs.find? place = none) (q : Location) :
    (fs.put place .directory).fileAt q = fs.fileAt q := by
  by_cases hq : q = place
  · rw [hq, fileAt, fileAt, find?_put_self (ne_nil_of_find? hplace), hplace]
  · rw [fileAt, fileAt, find?_put_of_ne hq]

/-- What is read at a path that leads to another place. -/
theorem Changes.resolveFile (h : Changes F D fs fs') (hF : ¬F place)
    (hfile : fs.resolveFile path = .ok (place, content)) :
    fs'.resolveFile path = .ok (place, content) := by
  obtain ⟨hplace, hnode⟩ := resolveFile_eq_ok.1 hfile
  refine resolveFile_eq_ok.2 ⟨resolve_mono h.current h.directories hplace, ?_⟩
  rw [← fileAt_eq_some, h.fileAt hF, fileAt_eq_some, hnode]

/-- Where directories are missing on the way along a path, the places are in `D`. -/
def MissingIn (D : Location → Prop) (fs : FileSystem) (path : String) : Prop :=
  ∀ place ∈ way (fs.startOf path) (path.splitOn "/"),
    fs.find? place = some .directory ∨ D place

theorem Changes.missingIn (h : Changes F D fs fs') {D' : Location → Prop}
    (hD : fs.MissingIn D' path) : fs'.MissingIn D' path := by
  intro place hplace
  rw [h.startOf] at hplace
  exact (hD place hplace).imp_left (h.directories place)

/-! ### Steps -/

theorem changes_put (hplace : fs.find? place ≠ some .directory) (hF : F place) :
    Changes F D fs (fs.put place (.file content)) where
  current := rfl
  tag := rfl
  directories _ h := find?_put_of_directory hplace _ h
  rest other hother := by
    have hne : other ≠ place := by
      rintro rfl
      exact hother hF
    exact .inl (find?_put_of_ne hne _)

theorem changes_put_directory (hplace : fs.find? place = none) (hD : D place) :
    Changes F D fs (fs.put place .directory) where
  current := rfl
  tag := rfl
  directories _ h := find?_put_of_directory (by simp [hplace]) _ h
  rest other _ := by
    by_cases hother : other = place
    · subst hother
      exact .inr ⟨hplace, find?_put_self (ne_nil_of_find? hplace) _, hD⟩
    · exact .inl (find?_put_of_ne hother _)

theorem changes_erase (hplace : fs.find? place ≠ some .directory) (hF : F place) :
    Changes F D fs (fs.erase place) where
  current := rfl
  tag := rfl
  directories other h := by
    have hne : other ≠ place := by
      rintro rfl
      exact hplace h
    rw [find?_erase_of_ne hne, h]
  rest other hother := by
    have hne : other ≠ place := by
      rintro rfl
      exact hother hF
    exact .inl (find?_erase_of_ne hne)

theorem changes_attempt {r : Except FileError FileSystem}
    (h : ∀ fs₁, r = .ok fs₁ → Changes F D fs fs₁) : Changes F D fs (fs.attempt r).2 := by
  cases r with
  | error e => exact .refl fs
  | ok fs₁ => exact h fs₁ rfl

theorem changes_putFile (hF : F (fs.destination path)) (h : fs.putFile path content = .ok fs₁) :
    Changes F D fs fs₁ := by
  obtain ⟨place, hplace, h⟩ := Outcome.bind_eq_ok.1 h
  rw [destination_of_resolve hplace] at hF
  split at h
  · cases h
  · rename_i hfile
    obtain rfl := Outcome.pure_eq_ok_iff.1 h
    exact changes_put (fun hdirectory => hfile hdirectory) hF

/-- A place where a path leads to a file is no directory, and the path tells which place it is. -/
theorem not_directory_of_resolveFile (h : fs.resolveFile path = .ok (place, content)) :
    fs.find? place ≠ some .directory ∧ fs.destination path = place := by
  obtain ⟨hplace, hnode⟩ := resolveFile_eq_ok.1 h
  exact ⟨by simp [hnode], destination_of_resolve hplace⟩

theorem changes_createAlong {parts : List String} (missing : Bool) (place : Location)
    (hD : ∀ q ∈ way place parts, fs.find? q = some .directory ∨ D q) :
    Changes F D fs (fs.createAlong missing place parts).2 := by
  induction parts generalizing fs missing place with
  | nil => exact .refl fs
  | cons part parts ih =>
    rw [createAlong]
    split
    · exact .refl fs
    · rename_i next hnext
      obtain rfl := along_of_walk hnext
      have hD' : ∀ q ∈ way (along place part) parts, fs.find? q = some .directory ∨ D q :=
        fun q hq => hD q (List.mem_cons_of_mem _ hq)
      split
      · exact ih _ _ hD'
      · exact .refl fs
      · rename_i hnone
        have hmade : D (along place part) :=
          (hD' _ (start_mem_way _ _)).resolve_left (by simp [hnone])
        have hput : Changes F D fs (fs.put (along place part) .directory) :=
          changes_put_directory hnone hmade
        exact hput.trans (ih _ _ fun q hq => (hD' q hq).imp_left (hput.directories q))

/-- Directories are made along the parts of a path, unless the path alone settles the step: there is
nothing to do for the empty one, and others are refused. -/
theorem perform_createDirectories (path : String) :
    (∃ r, (r = .ok () → path = "") ∧
      ∀ fs : FileSystem, fs.perform (.createDirectories path) = (r, fs)) ∨
      ∀ fs : FileSystem, fs.perform (.createDirectories path) =
        fs.createAlong false (fs.startOf path) (path.splitOn "/") := by
  unfold perform
  dsimp only
  by_cases hempty : path = ""
  · exact .inl ⟨_, fun _ => hempty, fun _ => if_pos hempty⟩
  simp only [if_neg hempty]
  by_cases hnull : path.contains (Char.ofNat 0) = true
  · exact .inl ⟨_, by simp, fun _ => if_pos hnull⟩
  simp only [if_neg hnull]
  by_cases hlong : maxPath < path.utf8ByteSize
  · exact .inl ⟨_, by simp, fun _ => if_pos hlong⟩
  · exact .inr fun _ => if_neg hlong

/-- **A step changes the files to which its paths lead, and it makes directories that are missing on
the way of what it is to make.** -/
theorem changes_perform {s : FileStep} (hF : ∀ p ∈ s.paths, F (fs.destination p))
    (hD : ∀ p, s = .createDirectories p → fs.MissingIn D p) : Changes F D fs (fs.perform s).2 := by
  cases s with
  | createDirectories path =>
    rcases perform_createDirectories path with ⟨r, -, hsettled⟩ | halong
    · rw [hsettled]
      exact .refl fs
    · rw [halong]
      exact changes_createAlong _ _ (hD path rfl)
  | create path =>
    exact changes_attempt fun fs₁ h₁ => changes_putFile (hF path (by simp [FileStep.paths])) h₁
  | append path bytes =>
    refine changes_attempt fun fs₁ h₁ => ?_
    obtain ⟨⟨place, content⟩, hfile, h₁⟩ := Outcome.bind_eq_ok.1 h₁
    obtain rfl := Outcome.pure_eq_ok_iff.1 h₁
    obtain ⟨hplace, hdestination⟩ := not_directory_of_resolveFile hfile
    exact changes_put hplace (hdestination ▸ hF path (by simp [FileStep.paths]))
  | sync path =>
    refine changes_attempt fun fs₁ h₁ => ?_
    obtain ⟨_, -, h₁⟩ := Outcome.bind_eq_ok.1 h₁
    obtain rfl := Outcome.pure_eq_ok_iff.1 h₁
    exact .refl fs
  | rename source target =>
    refine changes_attempt fun fs₁ h₁ => ?_
    obtain ⟨⟨place, content⟩, hfile, h₁⟩ := Outcome.bind_eq_ok.1 h₁
    obtain ⟨hplace, hdestination⟩ := not_directory_of_resolveFile hfile
    have herase : Changes F D fs (fs.erase place) :=
      changes_erase hplace (hdestination ▸ hF source (by simp [FileStep.paths]))
    have htarget : F ((fs.erase place).destination target) := by
      rw [herase.destination]
      exact hF target (by simp [FileStep.paths])
    exact herase.trans (changes_putFile htarget h₁)
  | remove path =>
    refine changes_attempt fun fs₁ h₁ => ?_
    obtain ⟨⟨place, content⟩, hfile, h₁⟩ := Outcome.bind_eq_ok.1 h₁
    obtain rfl := Outcome.pure_eq_ok_iff.1 h₁
    obtain ⟨hplace, hdestination⟩ := not_directory_of_resolveFile hfile
    exact changes_erase hplace (hdestination ▸ hF path (by simp [FileStep.paths]))

/-! ### Computations -/

/-- What follows a computation whose failure is handled is told how that one has ended. -/
theorem run_attempted {x : ExceptT ε (StateM FileSystem) α}
    {settle : Except ε α → ExceptT ε' (StateM FileSystem) β} :
    fs.run (liftM (ExceptT.run x : StateM FileSystem (Except ε α)) >>= settle) =
      (fs.run x).2.run (settle (fs.run x).1) := by
  rw [run_bind, run_liftM]
  rfl

/-- A computation goes on to have a property of the files, wherever it starts with it. -/
def Keeps (Q : FileSystem → Prop) (x : ExceptT ε (StateM FileSystem) α) : Prop :=
  ∀ fs, Q fs → Q (fs.run x).2

section Keeps

variable {Q : FileSystem → Prop}

theorem Keeps.bind {x : ExceptT ε (StateM FileSystem) α}
    {f : α → ExceptT ε (StateM FileSystem) β} (hx : Keeps Q x) (hf : ∀ a, Keeps Q (f a)) :
    Keeps Q (x >>= f) := by
  intro fs h
  have h₂ := hx fs h
  rw [run_bind]
  rcases hrun : fs.run x with ⟨_ | a, fs₂⟩
  · rwa [hrun] at h₂
  · rw [hrun] at h₂
    exact hf a fs₂ h₂

theorem keeps_pure (a : α) : Keeps Q (pure a : ExceptT ε (StateM FileSystem) α) := fun _ h => h

theorem keeps_throw (e : ε) : Keeps Q (throw e : ExceptT ε (StateM FileSystem) α) := fun _ h => h

theorem Keeps.adapt {x : ExceptT ε (StateM FileSystem) α} (hx : Keeps Q x) (f : ε → ε') :
    Keeps Q (ExceptT.adapt f x) := hx

/-- A computation whose failure is handled keeps what it keeps without that. -/
theorem Keeps.attempted {x : ExceptT ε (StateM FileSystem) α} (hx : Keeps Q x) :
    Keeps Q (liftM (ExceptT.run x : StateM FileSystem (Except ε α)) :
      ExceptT ε' (StateM FileSystem) (Except ε α)) := hx

theorem keeps_tag {tag : String} (htag : ∀ fs, Q fs → fs.tag = tag)
    {f : String → ExceptT ε (StateM FileSystem) α} (h : Keeps Q (f tag)) :
    Keeps Q ((liftM (FileStore.tag : StateM FileSystem String) :
      ExceptT ε (StateM FileSystem) String) >>= f) := by
  intro fs hfs
  change Q (fs.run (f fs.tag)).2
  rw [htag fs hfs]
  exact h fs hfs

theorem keeps_step {s : FileStep} (h : ∀ fs, Q fs → Q (fs.perform s).2) :
    Keeps Q (step s : ExceptT FileError (StateM FileSystem) Unit) := h

end Keeps

/-! ### Replacing a file -/

/-- Makes the directories on the way of a path. -/
def makeWay (path : String) : ExceptT ConvertError (StateM FileSystem) Unit :=
  match Path.enclosing? path with
  | some directory => reporting directory (step (.createDirectories directory))
  | none => pure ()

/-- What follows the temporary file: nothing if it was moved, and otherwise it is removed. -/
def conclude (path temp : String) :
    Except FileError Unit → ExceptT ConvertError (StateM FileSystem) Unit
  | .ok () => pure ()
  | .error cause => do
    let _ ← (FileStore.perform (.remove temp) : StateM FileSystem (Except FileError Unit))
    throw (.file path cause)

/-- Fills the temporary file of a path and moves it there. -/
def writeBeside (path : String) (bytes : Bytes) :
    ExceptT ConvertError (StateM FileSystem) Unit := do
  let temp := temporary path (← (FileStore.tag : StateM FileSystem String))
  conclude path temp (← (fillAndMove path temp fun write => write bytes :
    ExceptT FileError (StateM FileSystem) Unit).run)

/-- Replacing a file makes the directories on the way and then writes the file beside its
destination. -/
theorem replace_eq (path : String) (bytes : Bytes) :
    (replace path bytes : ExceptT ConvertError (StateM FileSystem) Unit) =
      if (Path.fileName? path).isNone then throw (.precondition (.notFile path))
      else makeWay path >>= fun _ => writeBeside path bytes := by
  have hrest : (do
      let temp := temporary path (← (FileStore.tag : StateM FileSystem String))
      match ← (fillAndMove path temp fun write => write bytes :
          ExceptT FileError (StateM FileSystem) Unit).run with
      | .ok () => return
      | .error cause =>
        let _ ← (FileStore.perform (.remove temp) : StateM FileSystem (Except FileError Unit))
        throw (.file path cause)) = writeBeside path bytes :=
    bind_congr fun tag => bind_congr fun r => by cases r <;> rfl
  unfold replace replaceWith makeWay
  dsimp only
  split
  · rfl
  · cases Path.enclosing? path with
    | none => exact hrest
    | some directory => exact bind_congr fun _ => hrest

theorem replace_of_named (h : (Path.fileName? path).isSome) (bytes : Bytes) :
    (replace path bytes : ExceptT ConvertError (StateM FileSystem) Unit) =
      makeWay path >>= fun _ => writeBeside path bytes := by
  rw [replace_eq, if_neg (by simpa [Option.ne_none_iff_isSome] using h)]

/-- A path that names no file is refused. -/
theorem replace_of_not_named (h : ¬(Path.fileName? path).isSome) (bytes : Bytes) :
    (replace path bytes : ExceptT ConvertError (StateM FileSystem) Unit) =
      throw (.precondition (.notFile path)) := by
  rw [replace_eq, if_pos (by simpa using h)]

/-- The steps that fill the temporary file of a path and move it there or remove it. -/
def besideSteps (path temp : String) (bytes : Bytes) : List FileStep :=
  [.create temp, .append temp bytes, .sync temp, .rename temp path, .remove temp]

/-- The steps of which replacing a file is made. -/
def replaceSteps (path temp : String) (bytes : Bytes) : List FileStep :=
  (Path.enclosing? path).toList.map .createDirectories ++ besideSteps path temp bytes

theorem keeps_makeWay {Q : FileSystem → Prop}
    (h : ∀ directory, Path.enclosing? path = some directory →
      ∀ fs, Q fs → Q (fs.perform (.createDirectories directory)).2) : Keeps Q (makeWay path) := by
  unfold makeWay
  split
  · rename_i directory henclosing
    exact (keeps_step (h directory henclosing)).adapt _
  · exact keeps_pure _

theorem keeps_writeBeside {Q : FileSystem → Prop} {tag : String} {bytes : Bytes}
    (htag : ∀ fs, Q fs → fs.tag = tag)
    (h : ∀ s ∈ besideSteps path (temporary path tag) bytes, ∀ fs, Q fs → Q (fs.perform s).2) :
    Keeps Q (writeBeside path bytes) := by
  have hstep : ∀ s ∈ besideSteps path (temporary path tag) bytes,
      Keeps Q (step s : ExceptT FileError (StateM FileSystem) Unit) :=
    fun s hs => keeps_step (h s hs)
  have hfill : Keeps Q (fillAndMove path (temporary path tag) fun write => write bytes :
      ExceptT FileError (StateM FileSystem) Unit) :=
    (hstep _ (by simp [besideSteps])).bind fun _ => (hstep _ (by simp [besideSteps])).bind fun _ =>
      (hstep _ (by simp [besideSteps])).bind fun _ => hstep _ (by simp [besideSteps])
  have hconclude : ∀ r, Keeps Q (conclude path (temporary path tag) r) := by
    rintro (cause | _)
    · exact (hstep (.remove _) (by simp [besideSteps])).attempted.bind fun _ => keeps_throw _
    · exact keeps_pure _
  exact keeps_tag htag (hfill.attempted.bind hconclude)

/-- **What all steps of replacing a file keep is kept.** -/
theorem keeps_replace {Q : FileSystem → Prop} {tag : String} {bytes : Bytes}
    (htag : ∀ fs, Q fs → fs.tag = tag)
    (h : ∀ s ∈ replaceSteps path (temporary path tag) bytes, ∀ fs, Q fs → Q (fs.perform s).2) :
    Keeps Q (replace path bytes) := by
  have hway : Keeps Q (makeWay path) :=
    keeps_makeWay fun directory henclosing => h _ (by simp [replaceSteps, henclosing])
  rw [replace_eq]
  split
  · exact keeps_throw _
  · exact hway.bind fun _ => keeps_writeBeside htag fun s hs => h s (List.mem_append_right _ hs)

/-- What is kept by replacing files is kept for paths that name none. -/
theorem keeps_replace_of_named {Q : FileSystem → Prop} {bytes : Bytes}
    (h : (Path.fileName? path).isSome → Keeps Q (replace path bytes)) :
    Keeps Q (replace path bytes) := by
  by_cases hname : (Path.fileName? path).isSome
  · exact h hname
  · rw [replace_of_not_named hname]
    exact keeps_throw _

/-- **Replacing a file changes that file and the temporary one**, and it makes directories that are
missing on the way of the directory that holds them. -/
theorem keeps_changes {bytes : Bytes} (hpath : F (fs.destination path))
    (htemp : F (fs.destination (temporary path fs.tag)))
    (hD : ∀ directory, Path.enclosing? path = some directory → fs.MissingIn D directory) :
    Keeps (Changes F D fs) (replace path bytes) := by
  refine keeps_replace (fun _ h => h.tag) fun s hs fs₁ h₁ => h₁.trans (changes_perform ?_ ?_)
  · intro p hp
    rw [h₁.destination]
    simp only [replaceSteps, besideSteps, List.mem_append, List.mem_map, Option.mem_toList,
      List.mem_cons, List.not_mem_nil, or_false] at hs
    rcases hs with ⟨directory, -, rfl⟩ | rfl | rfl | rfl | rfl | rfl <;>
      simp_all [FileStep.paths]
    rcases hp with rfl | rfl <;> assumption
  · rintro directory rfl
    have henclosing : Path.enclosing? path = some directory := by
      simpa [replaceSteps, besideSteps, eq_comm] using hs
    exact h₁.missingIn (hD directory henclosing)

/-! ### Changes that spare files -/

/-- From the first file system to the second one, paths start at the same place, no directory has
gone, and the files at the places in `P` are the same. -/
structure Spares (P : Location → Prop) (fs fs' : FileSystem) : Prop where
  current : fs'.current = fs.current
  tag : fs'.tag = fs.tag
  directories : ∀ place, fs.find? place = some .directory → fs'.find? place = some .directory
  files : ∀ place content, P place → fs.find? place = some (.file content) →
    fs'.find? place = some (.file content)

theorem Spares.refl (fs : FileSystem) : Spares P fs fs :=
  ⟨rfl, rfl, fun _ h => h, fun _ _ _ h => h⟩

theorem Spares.trans (h : Spares P fs fs₁) (h' : Spares P fs₁ fs₂) : Spares P fs fs₂ where
  current := h'.current.trans h.current
  tag := h'.tag.trans h.tag
  directories place hplace := h'.directories place (h.directories place hplace)
  files place content hP hplace := h'.files place content hP (h.files place content hP hplace)

theorem Changes.spares (h : Changes F D fs fs') (hP : ∀ place, P place → ¬F place) :
    Spares P fs fs' where
  current := h.current
  tag := h.tag
  directories := h.directories
  files place content hplace hfile := by
    rw [← fileAt_eq_some, h.fileAt (hP place hplace), fileAt_eq_some, hfile]

theorem Spares.destination (h : Spares P fs fs') (path : String) :
    fs'.destination path = fs.destination path := by
  rw [FileSystem.destination, FileSystem.destination, FileSystem.startOf, FileSystem.startOf,
    h.current]

/-- What is read at a path that leads to a spared place. -/
theorem Spares.resolveFile (h : Spares P fs fs') (hP : P place)
    (hfile : fs.resolveFile path = .ok (place, content)) :
    fs'.resolveFile path = .ok (place, content) := by
  obtain ⟨hplace, hnode⟩ := resolveFile_eq_ok.1 hfile
  exact resolveFile_eq_ok.2
    ⟨resolve_mono h.current h.directories hplace, h.files place content hP hnode⟩

/-- The path and that of its temporary file lead to no place in `P`. -/
def Avoids (P : Location → Prop) (fs : FileSystem) (path : String) : Prop :=
  ¬P (fs.destination path) ∧ ¬P (fs.destination (temporary path fs.tag))

theorem spares_replace {bytes : Bytes} (h : fs.Avoids P path) :
    Spares P fs (fs.run (replace path bytes)).2 := by
  have hchanges : Changes (fun place => ¬P place) (fun _ => True) fs
      (fs.run (replace path bytes)).2 :=
    keeps_changes h.1 h.2 (fun _ _ _ _ => .inr trivial) fs (.refl fs)
  exact hchanges.spares fun _ hP hF => hF hP

theorem Spares.avoids (h : Spares P fs fs') {Q : Location → Prop} :
    fs'.Avoids Q path ↔ fs.Avoids Q path := by
  rw [Avoids, Avoids, h.destination, h.destination, h.tag]

end FileSystem

end NetPack
