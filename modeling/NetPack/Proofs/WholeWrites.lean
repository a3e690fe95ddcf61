import NetPack.Proofs.Attempts
import NetPack.Proofs.Frames

/-!
# Files are written as a whole or not at all

A file is replaced by filling a temporary file beside it piece by piece and moving that one, and any
of these steps may be cut short by a failure or by the end of the run. Whatever becomes of the
steps, the file then holds all pieces or it is what it was, and no third file has changed
(`Trial.replaceWith_all_or_nothing`). Since a run can end in every step, this is so at every point
of a run.

Before the move only the temporary file and missing directories on the way have changed
(`Trial.Untouched`), and each step keeps it so (`Trial.Untouched.attempts_step`). The move comes
last and brings the file all bytes at once (`Trial.Filled.moved`).

The directories on the way are made first, and a path can lead through the very place to which it
leads. If nothing is there, this makes a directory there, and the write fails
(`Trial.not_forall_all_or_nothing`).
-/

namespace NetPack

open FileStore

/-! ### Changes by steps that are cut short -/

namespace FileSystem

/-- A place that is passed on the way to the directory that holds the file of a path. -/
def OnWay (fs : FileSystem) (path : String) (place : Location) : Prop :=
  ∃ directory, Path.enclosing? path = some directory ∧
    place ∈ way (fs.startOf directory) (directory.splitOn "/")

variable {F D : Location → Prop} {fs : FileSystem}

theorem way_take_subset (place : Location) (parts : List String) (n : Nat) :
    ∀ q ∈ way place (parts.take n), q ∈ way place parts := by
  intro q hq
  rw [← List.take_append_drop n parts, mem_way_append]
  exact .inl hq

/-- A step that was cut short changes no more than the whole step may change. -/
theorem changes_cutShort {s : FileStep} {done : Nat} (hF : ∀ p ∈ s.paths, F (fs.destination p))
    (hD : ∀ p, s = .createDirectories p → fs.MissingIn D p) :
    Changes F D fs (fs.cutShort s done) := by
  cases s with
  | createDirectories path =>
    exact changes_createAlong _ _ fun q hq => hD path rfl q (way_take_subset _ _ _ q hq)
  | append path bytes => exact changes_perform hF (by simp)
  | create path => exact .refl fs
  | sync path => exact .refl fs
  | rename source target => exact .refl fs
  | remove path => exact .refl fs

/-- What is at the destination of a path is the same in both file systems, or nothing was there and
a directory was made there on the way to the directory that holds the file. -/
def Stays (fs : FileSystem) (path : String) (fs' : FileSystem) : Prop :=
  fs'.find? (fs.destination path) = fs.find? (fs.destination path) ∨
    fs.find? (fs.destination path) = none ∧
      fs'.find? (fs.destination path) = some .directory ∧
      fs.OnWay path (fs.destination path)

/-- A move that fails changes nothing. -/
theorem perform_rename_error {source target : String} {e : FileError} {fs' : FileSystem}
    (h : fs.perform (.rename source target) = (.error e, fs')) : fs' = fs :=
  eq_of_attempt_eq_error h

/-- What is put behind a path is put where the path leads to, and there is no directory there. -/
theorem exists_of_putFile {fs' : FileSystem} (h : fs.putFile path content = .ok fs') :
    fs.find? (fs.destination path) ≠ some .directory ∧
      fs' = fs.put (fs.destination path) (.file content) := by
  obtain ⟨place, hplace, h⟩ := Outcome.bind_eq_ok.1 h
  rw [destination_of_resolve hplace]
  split at h
  · cases h
  · rename_i hfile
    exact ⟨fun hdirectory => hfile hdirectory, (Outcome.pure_eq_ok_iff.1 h).symm⟩

end FileSystem

open FileSystem

/-! ### The steps of replacing a file -/

/-- Writes pieces one after the other and then ends as given. -/
def FileStore.writing {m : Type → Type} [Monad m] (pieces : List Bytes)
    (ending : Except FileError Unit) (write : Bytes → ExceptT FileError m Unit) :
    ExceptT FileError m Unit := do
  forM pieces write
  ofResult ending

/-- Bytes that are written at once are written in one piece. -/
theorem FileStore.replace_eq_writing {m : Type → Type} [Monad m] [LawfulMonad m] [FileStore m]
    (path : String) (bytes : Bytes) :
    replace (m := m) path bytes = replaceWith path (writing [bytes] (.ok ())) := by
  refine congrArg (replaceWith path) (funext fun write => ?_)
  have hending : (ofResult (.ok ()) : ExceptT FileError m Unit) = pure () := rfl
  rw [writing, hending, List.forM_cons, List.forM_nil]
  simp

namespace Trial

variable {t : Trial} {fs : FileSystem} {path : String} {s : FileStep} {content : Bytes}

/-- Since `fs`, no file but the temporary one has changed, and directories were only made on the
way. The temporary file was not removed. -/
structure Untouched (fs : FileSystem) (path : String) (t : Trial) : Prop where
  changes : Changes (· = fs.destination (temporary path fs.tag)) (fs.OnWay path) fs t.files
  past : (.remove (temporary path fs.tag), .ok ()) ∉ t.past

/-- The temporary file holds the given bytes, and otherwise nothing has changed. -/
structure Filled (fs : FileSystem) (path : String) (content : Bytes) (t : Trial) : Prop
    extends Untouched fs path t where
  filled : ∃ place, t.files.resolveFile (temporary path fs.tag) = .ok (place, content)

/-- The file holds the given bytes, and the temporary one is gone. -/
structure Moved (fs : FileSystem) (path : String) (content : Bytes) (t : Trial) : Prop where
  changes : Changes (fun place => place = fs.destination (temporary path fs.tag) ∨
    place = fs.destination path) (fs.OnWay path) fs t.files
  target : t.files.find? (fs.destination path) = some (.file content)
  read : t.files.read path = .ok content
  gone : t.files.find? (fs.destination (temporary path fs.tag)) = none

/-- No file but the temporary one has changed, and that one is gone if it was removed. -/
structure Abandoned (fs : FileSystem) (path : String) (t : Trial) : Prop where
  changes : Changes (· = fs.destination (temporary path fs.tag)) (fs.OnWay path) fs t.files
  removed : (.remove (temporary path fs.tag), .ok ()) ∈ t.past →
    t.files.find? (fs.destination (temporary path fs.tag)) = none

theorem Untouched.abandoned (h : Untouched fs path t) : Abandoned fs path t :=
  ⟨h.changes, fun hmem => absurd hmem h.past⟩

theorem untouched_start (fs : FileSystem) (path : String) (fates : List Fate) :
    Untouched fs path (start fs fates) := ⟨.refl fs, by simp [start]⟩

/-- A step on the way to the move: it makes directories on the way or works on the temporary
file. -/
def Preparing (fs : FileSystem) (path : String) (s : FileStep) : Prop :=
  s.paths ⊆ [temporary path fs.tag] ∧ ∀ p, s = .createDirectories p → Path.enclosing? path = some p

theorem Untouched.after_perform (h : Untouched fs path t) (hs : Preparing fs path s) :
    Changes (· = fs.destination (temporary path fs.tag)) (fs.OnWay path) fs
      (t.files.perform s).2 := by
  refine h.changes.trans (changes_perform (fun p hp => ?_) fun p hp => ?_)
  · rw [h.changes.destination, List.mem_singleton.1 (hs.1 hp)]
  · exact h.changes.missingIn fun q hq => .inr ⟨p, hs.2 p hp, hq⟩

theorem Untouched.after_cutShort (h : Untouched fs path t) (hs : Preparing fs path s) (done : Nat) :
    Changes (· = fs.destination (temporary path fs.tag)) (fs.OnWay path) fs
      (t.files.cutShort s done) := by
  refine h.changes.trans (changes_cutShort (fun p hp => ?_) fun p hp => ?_)
  · rw [h.changes.destination, List.mem_singleton.1 (hs.1 hp)]
  · exact h.changes.missingIn fun q hq => .inr ⟨p, hs.2 p hp, hq⟩

/-- A preparing step that is not performed leaves all files but the temporary one alone. -/
theorem Untouched.attempts_step {P : Trial → Prop} {Q : Trial → Prop} (hs : Preparing fs path s)
    (hremove : s ≠ .remove (temporary path fs.tag)) (hP : ∀ t, P t → Untouched fs path t)
    (hok : ∀ t, P t → ∀ fs', t.files.perform s = (.ok (), fs') →
      Untouched fs path ⟨fs', t.fates.tail, (s, .ok ()) :: t.past⟩ →
      Q ⟨fs', t.fates.tail, (s, .ok ()) :: t.past⟩) :
    Attempts P (step s : ExceptT FileError Unreliable Unit) (fun _ => Q) (Untouched fs path) := by
  have hpast : ∀ t r, Untouched fs path t →
      (.remove (temporary path fs.tag), .ok ()) ∉ (s, r) :: t.past := by
    intro t r ht hmem
    rcases List.mem_cons.1 hmem with heq | hmem
    · exact hremove (Prod.mk.inj heq).1.symm
    · exact ht.past hmem
  refine Trial.attempts_step (fun t ht fs' hperform => ?_) (fun t ht e fs' hperform => ?_)
    fun t ht done past hcut => ?_
  · have hchanges := (hP t ht).after_perform hs
    rw [hperform] at hchanges
    exact hok t ht fs' hperform ⟨hchanges, hpast t _ (hP t ht)⟩
  · have hchanges := (hP t ht).after_perform hs
    rw [hperform] at hchanges
    exact ⟨hchanges, hpast t _ (hP t ht)⟩
  · refine ⟨(hP t ht).after_cutShort hs done, ?_⟩
    rcases hcut with rfl | ⟨e, rfl⟩
    · exact (hP t ht).past
    · exact hpast t _ (hP t ht)

theorem attempts_create :
    Attempts (Untouched fs path)
      (step (.create (temporary path fs.tag)) : ExceptT FileError Unreliable Unit)
      (fun _ => Filled fs path []) (Untouched fs path) := by
  refine Untouched.attempts_step ⟨by simp [FileStep.paths], by simp⟩ (by simp) (fun _ h => h) ?_
  intro t ht fs' hperform huntouched
  exact ⟨huntouched, resolveFile_putFile (attempt_eq_ok.1 hperform)⟩

theorem attempts_append (piece written : Bytes) :
    Attempts (Filled fs path written)
      (step (.append (temporary path fs.tag) piece) : ExceptT FileError Unreliable Unit)
      (fun _ => Filled fs path (written ++ piece)) (Untouched fs path) := by
  refine Untouched.attempts_step ⟨by simp [FileStep.paths], by simp⟩ (by simp)
    (fun _ h => h.toUntouched) ?_
  intro t ht fs' hperform huntouched
  obtain ⟨place, hfile⟩ := ht.filled
  exact ⟨huntouched, place, resolveFile_append hfile hperform⟩

theorem attempts_sync :
    Attempts (Filled fs path content)
      (step (.sync (temporary path fs.tag)) : ExceptT FileError Unreliable Unit)
      (fun _ => Filled fs path content) (Untouched fs path) := by
  refine Untouched.attempts_step ⟨by simp [FileStep.paths], by simp⟩ (by simp)
    (fun _ h => h.toUntouched) ?_
  intro t ht fs' hperform huntouched
  obtain rfl := perform_sync hperform
  exact ⟨huntouched, ht.filled⟩

/-- **A move brings the bytes of the temporary file to the file.** -/
theorem Filled.moved {fs' : FileSystem} {past : List (FileStep × Except FileError Unit)}
    {fates : List Fate} (h : Filled fs path content t)
    (htemp : fs.destination (temporary path fs.tag) ≠ fs.destination path)
    (hperform : t.files.perform (.rename (temporary path fs.tag) path) = (.ok (), fs')) :
    Moved fs path content ⟨fs', fates, past⟩ := by
  obtain ⟨place, hfile⟩ := h.filled
  obtain ⟨hplace, hdestination⟩ := not_directory_of_resolveFile hfile
  rw [h.changes.destination] at hdestination
  obtain ⟨⟨place', content'⟩, hfile', hput⟩ := Outcome.bind_eq_ok.1 (attempt_eq_ok.1 hperform)
  rw [hfile, Except.ok.injEq, Prod.mk.injEq] at hfile'
  obtain ⟨rfl, rfl⟩ := hfile'
  subst hdestination
  have hread := read_putFile hput
  have herased := changes_erase (F := fun place => place = fs.destination (temporary path fs.tag) ∨
    place = fs.destination path) (D := fs.OnWay path) hplace (.inl rfl)
  have hchanges := (h.changes.mono (fun _ => .inl) fun _ => id).trans herased
  have hmoved := hchanges.trans (changes_putFile (.inr (hchanges.destination path)) hput)
  obtain ⟨hfree, rfl⟩ := exists_of_putFile hput
  rw [hchanges.destination] at hfree hmoved hread ⊢
  have hroot : ∀ {g : FileSystem} {q : Location}, g.find? q ≠ some .directory → q ≠ [] := by
    rintro g _ hq rfl
    exact hq rfl
  refine ⟨hmoved, find?_put_self (hroot hfree) _, hread, ?_⟩
  rw [find?_put_of_ne htemp, find?_erase_self (hroot hplace)]

/-- A move that is cut short or fails leaves everything as it was. -/
theorem attempts_rename (htemp : fs.destination (temporary path fs.tag) ≠ fs.destination path) :
    Attempts (Filled fs path content)
      (step (.rename (temporary path fs.tag) path) : ExceptT FileError Unreliable Unit)
      (fun _ => Moved fs path content) (Untouched fs path) := by
  refine Trial.attempts_step (fun t ht fs' => ht.moved htemp) (fun t ht e fs' hperform => ?_)
    fun t ht done past hcut => ?_
  · rw [perform_rename_error hperform]
    exact ⟨ht.changes, by simpa using ht.past⟩
  · refine ⟨ht.changes, ?_⟩
    rcases hcut with rfl | ⟨e, rfl⟩
    · exact ht.past
    · simpa using ht.past

/-- **Filling the temporary file and moving it** brings the file all pieces or leaves it alone. -/
theorem attempts_fillAndMove {pieces : List Bytes} {ending : Except FileError Unit}
    (htemp : fs.destination (temporary path fs.tag) ≠ fs.destination path) :
    Attempts (Untouched fs path)
      (fillAndMove path (temporary path fs.tag) (writing pieces ending) :
        ExceptT FileError Unreliable Unit)
      (fun _ t => ending = .ok () ∧ Moved fs path pieces.flatten t) (Untouched fs path) := by
  have hpieces : Attempts (Filled fs path [])
      (forM pieces fun piece => step (.append (temporary path fs.tag) piece) :
        ExceptT FileError Unreliable Unit)
      (fun _ => Filled fs path pieces.flatten) (Untouched fs path) :=
    attempts_forM (fun piece written => attempts_append piece written) pieces []
  have hending : Attempts (Filled fs path pieces.flatten)
      (ofResult ending : ExceptT FileError Unreliable Unit)
      (fun _ t => ending = .ok () ∧ Filled fs path pieces.flatten t) (Untouched fs path) :=
    attempts_settled (fun _ hok _ ht => ⟨hok, ht⟩) fun _ ht => ht.toUntouched
  exact attempts_create.bind fun _ => (hpieces.bind fun _ => hending).bind fun _ =>
    (attempts_sync.bind fun _ => attempts_rename htemp).with

theorem attempts_createDirectories {directory : String}
    (h : Path.enclosing? path = some directory) :
    Attempts (Untouched fs path)
      (step (.createDirectories directory) : ExceptT FileError Unreliable Unit)
      (fun _ => Untouched fs path) (Untouched fs path) :=
  Untouched.attempts_step ⟨by simp [FileStep.paths], fun p hp => by cases hp; exact h⟩ (by simp)
    (fun _ h => h) fun _ _ _ _ h => h

/-- A temporary file whose removal fails or is cut short has not been removed. -/
theorem attempts_remove :
    Attempts (Untouched fs path)
      (step (.remove (temporary path fs.tag)) : ExceptT FileError Unreliable Unit)
      (fun _ => Abandoned fs path) (Abandoned fs path) := by
  have hprepares : Preparing fs path (.remove (temporary path fs.tag)) :=
    ⟨by simp [FileStep.paths], by simp⟩
  refine Trial.attempts_step (fun t ht fs' hperform => ?_) (fun t ht e fs' hperform => ?_)
    fun t ht done past hcut => ?_
  · have hchanges := ht.after_perform hprepares
    rw [hperform] at hchanges
    refine ⟨hchanges, fun _ => ?_⟩
    obtain ⟨⟨place, content⟩, hfile, herase⟩ := Outcome.bind_eq_ok.1 (attempt_eq_ok.1 hperform)
    obtain ⟨hplace, hdestination⟩ := not_directory_of_resolveFile hfile
    obtain rfl := Outcome.pure_eq_ok_iff.1 herase
    rw [ht.changes.destination] at hdestination
    subst hdestination
    refine find?_erase_self ?_
    intro hroot
    rw [hroot] at hplace
    exact hplace rfl
  · have hchanges := ht.after_perform hprepares
    rw [hperform] at hchanges
    exact ⟨hchanges, fun hmem => absurd (by simpa using hmem) ht.past⟩
  · refine ⟨ht.changes, fun hmem => absurd ?_ ht.past⟩
    rcases hcut with rfl | ⟨e, rfl⟩
    · exact hmem
    · simpa using hmem

/-- The part of replacing a file that works with the temporary file. -/
def writeBeside (path : String)
    (fill : (Bytes → ExceptT FileError Unreliable Unit) → ExceptT FileError Unreliable Unit) :
    ExceptT ConvertError Unreliable Unit := do
  let temp := temporary path (← (FileStore.tag : Unreliable String))
  match ← (fillAndMove path temp fill).run with
  | .ok () => return
  | .error cause =>
    let _ ← (FileStore.perform (.remove temp) : Unreliable (Except FileError Unit))
    throw (.file path cause)

/-- The directories on the way are made before that. -/
theorem replaceWith_of_named {name : String}
    {fill : (Bytes → ExceptT FileError Unreliable Unit) → ExceptT FileError Unreliable Unit}
    (hname : Path.fileName? path = some name) :
    replaceWith path fill = match Path.enclosing? path with
      | some directory =>
        reporting directory (step (.createDirectories directory)) >>= fun _ => writeBeside path fill
      | none => writeBeside path fill := by
  unfold replaceWith
  rw [hname]
  cases Path.enclosing? path <;> rfl

/-- A path that names no file is refused before anything is done. -/
theorem replaceWith_of_not_named
    {fill : (Bytes → ExceptT FileError Unreliable Unit) → ExceptT FileError Unreliable Unit}
    (hname : Path.fileName? path = none) :
    replaceWith path fill = throw (.precondition (.notFile path)) := by
  unfold replaceWith
  rw [hname]
  rfl

theorem attempts_writeBeside (pieces : List Bytes) (ending : Except FileError Unit)
    (htemp : fs.destination (temporary path fs.tag) ≠ fs.destination path) :
    Attempts (Untouched fs path) (writeBeside path (writing pieces ending))
      (fun _ t => ending = .ok () ∧ Moved fs path pieces.flatten t) (Abandoned fs path) := by
  refine attempts_tag (fun t (ht : Untouched fs path t) => ht.changes.tag) ?_
  refine (attempts_fillAndMove htemp).attempted (fun _ t ht => ht) (fun cause => ?_)
    fun _ ht => ht.abandoned
  exact attempts_remove.attempted (fun _ => attempts_throw _ fun _ ht => ht)
    (fun _ => attempts_throw _ fun _ ht => ht) fun _ ht => ht

/-- **Replacing a file brings it all pieces or leaves it alone**, whatever becomes of the steps. -/
theorem attempts_replaceWith {name : String} (pieces : List Bytes)
    (ending : Except FileError Unit) (hname : Path.fileName? path = some name)
    (htemp : fs.destination (temporary path fs.tag) ≠ fs.destination path) :
    Attempts (Untouched fs path) (replaceWith path (writing pieces ending))
      (fun _ t => ending = .ok () ∧ Moved fs path pieces.flatten t) (Abandoned fs path) := by
  have hrest := attempts_writeBeside pieces ending htemp
  rw [replaceWith_of_named hname]
  cases henclosing : Path.enclosing? path with
  | none => exact hrest
  | some directory =>
    exact (((attempts_createDirectories henclosing).adapt _).imp fun _ ht => ht.abandoned).bind
      fun _ => hrest

/-! ### Whole writes -/

theorem Abandoned.stays (h : Abandoned fs path t)
    (htemp : fs.destination (temporary path fs.tag) ≠ fs.destination path) :
    fs.Stays path t.files :=
  h.changes.rest (fs.destination path) (Ne.symm htemp)

theorem Abandoned.fileAt (h : Abandoned fs path t) {place : Location}
    (hplace : place ≠ fs.destination (temporary path fs.tag)) :
    t.files.fileAt place = fs.fileAt place :=
  h.changes.fileAt hplace

theorem Moved.fileAt (h : Moved fs path content t) {place : Location}
    (hpath : place ≠ fs.destination path)
    (htemp : place ≠ fs.destination (temporary path fs.tag)) :
    t.files.fileAt place = fs.fileAt place :=
  h.changes.fileAt fun hmem => hmem.elim htemp hpath

/-- **A file is written as a whole or not at all.** -/
theorem replaceWith_all_or_nothing {pieces : List Bytes} {ending : Except FileError Unit}
    {fates : List Fate} {r : Option (Except ConvertError Unit)} {t : Trial}
    (htag : '/' ∉ fs.tag.toList)
    (h : (start fs fates).run (replaceWith path (writing pieces ending)) = (r, t)) :
    (fs.Stays path t.files ∨
      t.files.find? (fs.destination path) = some (.file pieces.flatten)) ∧
    (∀ e, r = some (.error e) → fs.Stays path t.files ∧
      ((.remove (temporary path fs.tag), .ok ()) ∈ t.past →
        t.files.find? (fs.destination (temporary path fs.tag)) = none)) ∧
    (r = some (.ok ()) → ending = .ok () ∧
      t.files.find? (fs.destination path) = some (.file pieces.flatten) ∧
      t.files.read path = .ok pieces.flatten ∧
      t.files.find? (fs.destination (temporary path fs.tag)) = none) ∧
    ∀ place, place ≠ fs.destination path →
      place ≠ fs.destination (temporary path fs.tag) → t.files.fileAt place = fs.fileAt place := by
  cases hname : Path.fileName? path with
  | none =>
    rw [replaceWith_of_not_named hname] at h
    obtain ⟨rfl, rfl⟩ := Prod.mk.inj h
    exact ⟨.inl (.inl rfl), fun _ _ => ⟨.inl rfl, fun hmem => absurd hmem List.not_mem_nil⟩,
      nofun, fun _ _ _ => rfl⟩
  | some name =>
    have hnamed : (Path.fileName? path).isSome := by rw [hname]; rfl
    obtain ⟨l⟩ := Path.exists_layout hnamed
    have htemp : fs.destination (temporary path fs.tag) ≠ fs.destination path :=
      destination_temporary_ne l htag
    have hleft := attempts_replaceWith pieces ending hname htemp _
      (untouched_start fs path fates)
    rw [h] at hleft
    rcases r with _ | e | _
    · exact ⟨.inl (hleft.stays htemp), nofun, nofun,
        fun _ _ hplace => hleft.fileAt hplace⟩
    · exact ⟨.inl (hleft.stays htemp), fun _ _ => ⟨hleft.stays htemp, hleft.removed⟩,
        nofun, fun _ _ hplace => hleft.fileAt hplace⟩
    · obtain ⟨hending, hmoved⟩ := hleft
      exact ⟨.inr hmoved.target, nofun,
        fun _ => ⟨hending, hmoved.target, hmoved.read, hmoved.gone⟩,
        fun _ hpath hplace => hmoved.fileAt hpath hplace⟩

/-! #### A temporary file that was left behind -/

/-- Files with a temporary file of an earlier run. -/
def leftOver : FileSystem := ⟨[(["a"], .file [1]), (["a.tmp7"], .file [2])], [], "7"⟩

theorem temporary_leftOver : temporary "a" leftOver.tag = "a.tmp7" := by
  have ha : Path.Plain "a" := by decide
  rw [temporary, ha.withFileName, ha.fileName?]
  decide

/-- The temporary file cannot be made, and the one that was left behind is removed. -/
theorem run_leftOver :
    (start leftOver [.failed .notFound 0]).run (replaceWith "a" (writing [[3], [4]] (.ok ()))) =
      (some (.error (.file "a" .notFound)), ⟨leftOver.erase ["a.tmp7"], [],
        [(.remove (temporary "a" leftOver.tag), .ok ()),
          (.create (temporary "a" leftOver.tag), .error .notFound)]⟩) := by
  have ha : Path.Plain "a" := by decide
  have htemp : Path.Plain "a.tmp7" := by decide
  have hremove : leftOver.perform (.remove (temporary "a" leftOver.tag)) =
      (.ok (), leftOver.erase ["a.tmp7"]) := by
    rw [temporary_leftOver]
    refine attempt_eq_ok.2 ?_
    rw [resolveFile_eq_ok.2 ⟨resolve_plain htemp rfl, rfl⟩]
    rfl
  have hrun : ∀ r, leftOver.perform (.remove (temporary "a" leftOver.tag)) = r →
      (start leftOver [.failed .notFound 0]).run (writeBeside "a" (writing [[3], [4]] (.ok ()))) =
        (some (.error (.file "a" .notFound)), ⟨r.2, [],
          [(.remove (temporary "a" leftOver.tag), r.1),
            (.create (temporary "a" leftOver.tag), .error .notFound)]⟩) := by
    rintro _ rfl
    rfl
  rw [replaceWith_of_named ha.fileName?, ha.enclosing?]
  exact hrun _ hremove

theorem replaceWith_all_or_nothing_leftOver :
    '/' ∉ leftOver.tag.toList ∧
      ∃ t, (start leftOver [.failed .notFound 0]).run
          (replaceWith "a" (writing [[3], [4]] (.ok ()))) =
        (some (.error (.file "a" .notFound)), t) ∧
      leftOver.Stays "a" t.files ∧
      t.files.find? (leftOver.destination (temporary "a" leftOver.tag)) = none := by
  have htag : '/' ∉ leftOver.tag.toList := by decide
  obtain ⟨-, hfailed, -, -⟩ := replaceWith_all_or_nothing htag run_leftOver
  obtain ⟨hstays, hremoved⟩ := hfailed _ rfl
  exact ⟨htag, _, run_leftOver, hstays, hremoved (by simp)⟩

/-! #### A path that leads through its own destination -/

theorem splitOn_through : "a/../a".splitOn "/" = ["a", "..", "a"] := by
  rw [Path.splitOn_slash]
  decide

theorem fileName_through : Path.fileName? "a/../a" = some "a" := by
  rw [Path.fileName?, Path.parts, splitOn_through]
  decide

theorem enclosing_through : Path.enclosing? "a/../a" = some "a/.." := by
  rw [Path.enclosing?, Path.parent?, Path.parts, splitOn_through]
  decide

theorem destination_through (fs : FileSystem) (h : fs.current = []) :
    fs.destination "a/../a" = ["a"] := by
  have hstart : fs.startOf "a/../a" = [] := by
    rw [startOf, h, ite_self]
  rw [destination, hstart, splitOn_through]
  decide

/-- Making the directories on the way makes one at the destination. -/
theorem perform_through : (FileSystem.empty "7").perform (.createDirectories "a/..") =
    (.ok (), (FileSystem.empty "7").put ["a"] .directory) := by
  have hsplit : "a/..".splitOn "/" = ["a", ".."] := by
    rw [Path.splitOn_slash]
    decide
  rw [FileSystem.perform, if_neg (by decide), if_neg (by simp), if_neg (by decide), hsplit]
  have hstart : (FileSystem.empty "7").startOf "a/.." = [] := ite_self _
  rw [hstart]
  rfl

/-- The directory stays there, whatever is done afterwards. -/
theorem find?_through {pieces : List Bytes} {ending : Except FileError Unit} :
    ((start (FileSystem.empty "7") []).run
      (replaceWith "a/../a" (writing pieces ending))).2.files.find? ["a"] = some .directory := by
  let made := (FileSystem.empty "7").put ["a"] .directory
  let t : Trial := ⟨made, [], [(.createDirectories "a/..", .ok ())]⟩
  have hrun : (start (FileSystem.empty "7") []).run
      (replaceWith "a/../a" (writing pieces ending)) =
        t.run (writeBeside "a/../a" (writing pieces ending)) := by
    have hway : (start (FileSystem.empty "7") []).run (reporting "a/.."
        (step (.createDirectories "a/..") : ExceptT FileError Unreliable Unit)) =
          (some (.ok ()), t) := by
      have hstep : ∀ r, (FileSystem.empty "7").perform (.createDirectories "a/..") = r →
          (start (FileSystem.empty "7") []).run
            (step (.createDirectories "a/..") : ExceptT FileError Unreliable Unit) =
              (some r.1, ⟨r.2, [], [(.createDirectories "a/..", r.1)]⟩) := by
        rintro _ rfl
        rfl
      rw [reporting, run_adapt, hstep _ perform_through]
      rfl
    rw [replaceWith_of_named fileName_through, enclosing_through]
    dsimp only
    rw [run_bind, hway]
  have huntouched : Untouched made "a/../a" t := ⟨.refl made, by simp [t]⟩
  have hnamed : (Path.fileName? "a/../a").isSome := by rw [fileName_through]; rfl
  obtain ⟨l⟩ := Path.exists_layout hnamed
  have htemp : made.destination (temporary "a/../a" made.tag) ≠ made.destination "a/../a" :=
    destination_temporary_ne l (by decide)
  have hleft := attempts_writeBeside pieces ending htemp t huntouched
  have hplace : made.find? ["a"] = some .directory := rfl
  rw [hrun]
  rcases hend : t.run (writeBeside "a/../a" (writing pieces ending)) with ⟨_ | _ | _, t'⟩ <;>
    rw [hend] at hleft
  · exact hleft.changes.directories _ hplace
  · exact hleft.changes.directories _ hplace
  · exact hleft.2.changes.directories _ hplace

/-- It is not so that a file always holds all bytes or is what it was. -/
theorem not_forall_all_or_nothing :
    ¬∀ (fs : FileSystem) (path : String) (pieces : List Bytes) (ending : Except FileError Unit)
      (fates : List Fate) (r : Option (Except ConvertError Unit)) (t : Trial),
      '/' ∉ fs.tag.toList →
      (start fs fates).run (replaceWith path (writing pieces ending)) = (r, t) →
      t.files.find? (fs.destination path) = fs.find? (fs.destination path) ∨
        t.files.find? (fs.destination path) = some (.file pieces.flatten) := by
  intro h
  have hleft := h (FileSystem.empty "7") "a/../a" [[1]] (.ok ()) [] _ _ (by decide)
    (Prod.mk.eta (p := (start (FileSystem.empty "7") []).run _)).symm
  have hnone : (FileSystem.empty "7").find? ["a"] = none := rfl
  rw [destination_through _ rfl, find?_through, hnone] at hleft
  simp at hleft

end Trial

end NetPack
