import NetPack.Proofs.Trees

/-!
# Computations that agree on files

Two runs of a computation agree if they end alike and leave files that are related as those were
with which they started (`FileSystem.Agrees`). Here the second run starts with files that have
changed somewhere else, so that files there can differ and directories can be there that the first
run misses (`FileSystem.Changes`).

A read agrees if no file has changed at the place to which its path leads or at what holds it
(`FileSystem.Changes.resolveFile_eq`): a directory that is there in one of the runs only leads to
nothing. Replacing a file agrees under the same condition (`FileSystem.agrees_replace`). Once the
directories on the way are made, both runs see the same on the way to the file and the temporary
one, and what a step does depends on nothing else (`FileSystem.agrees_step`).
-/

namespace NetPack

/-- All paths of a step. -/
def FileStep.mentioned : FileStep → List String
  | .createDirectories path | .create path | .append path _ | .sync path | .remove path => [path]
  | .rename source target => [source, target]

namespace FileSystem

open FileStore

variable {ε ε' α β : Type} {base g g' g₁ g₁' : FileSystem} {path : String}
  {place q : Location} {parts : List String} {content bytes : Bytes} {F D : Location → Prop}

/-! ### Two runs -/

section Agrees

variable {R R' : FileSystem → FileSystem → Prop}

/-- Two runs of a computation end alike, with related files. -/
def AgreesFrom (R : FileSystem → FileSystem → Prop) (x : ExceptT ε (StateM FileSystem) α)
    (g g' : FileSystem) : Prop :=
  (g'.run x).1 = (g.run x).1 ∧ R (g.run x).2 (g'.run x).2

/-- All runs of a computation that start with related files do. -/
def Agrees (R : FileSystem → FileSystem → Prop) (x : ExceptT ε (StateM FileSystem) α) : Prop :=
  ∀ g g', R g g' → AgreesFrom R x g g'

theorem AgreesFrom.mono {x : ExceptT ε (StateM FileSystem) α} (hx : AgreesFrom R x g g')
    (h : ∀ g g', R g g' → R' g g') : AgreesFrom R' x g g' :=
  ⟨hx.1, h _ _ hx.2⟩

theorem AgreesFrom.bind {x : ExceptT ε (StateM FileSystem) α}
    {f : α → ExceptT ε (StateM FileSystem) β} (hx : AgreesFrom R x g g')
    (hf : ∀ a g₁ g₁', g.run x = (.ok a, g₁) → g'.run x = (.ok a, g₁') → R g₁ g₁' →
      AgreesFrom R (f a) g₁ g₁') : AgreesFrom R (x >>= f) g g' := by
  obtain ⟨hsame, hrel⟩ := hx
  rw [AgreesFrom, run_bind, run_bind]
  rcases hrun : g.run x with ⟨e | a, g₁⟩ <;> rcases hrun' : g'.run x with ⟨e' | a', g₁'⟩ <;>
    rw [hrun, hrun'] at hsame hrel
  · obtain rfl := Except.error.inj hsame
    exact ⟨rfl, hrel⟩
  · cases hsame
  · cases hsame
  · obtain rfl := Except.ok.inj hsame
    exact hf a' g₁ g₁' hrun hrun' hrel

theorem Agrees.bind {x : ExceptT ε (StateM FileSystem) α}
    {f : α → ExceptT ε (StateM FileSystem) β} (hx : Agrees R x) (hf : ∀ a, Agrees R (f a)) :
    Agrees R (x >>= f) :=
  fun g g' h => (hx g g' h).bind fun a _ _ _ _ h₁ => hf a _ _ h₁

theorem agrees_pure (a : α) : Agrees R (pure a : ExceptT ε (StateM FileSystem) α) :=
  fun _ _ h => ⟨rfl, h⟩

theorem agrees_throw (e : ε) : Agrees R (throw e : ExceptT ε (StateM FileSystem) α) :=
  fun _ _ h => ⟨rfl, h⟩

theorem agrees_mk_pure (r : Except ε α) :
    Agrees R (ExceptT.mk (pure r) : ExceptT ε (StateM FileSystem) α) :=
  fun _ _ h => ⟨rfl, h⟩

theorem AgreesFrom.adapt {x : ExceptT ε (StateM FileSystem) α} (hx : AgreesFrom R x g g')
    (f : ε → ε') : AgreesFrom R (ExceptT.adapt f x) g g' :=
  ⟨congrArg (Except.mapError f) hx.1, hx.2⟩

theorem Agrees.adapt {x : ExceptT ε (StateM FileSystem) α} (hx : Agrees R x) (f : ε → ε') :
    Agrees R (ExceptT.adapt f x) :=
  fun g g' h => (hx g g' h).adapt f

/-- Runs of a computation whose failure is handled agree if they do without that. -/
theorem Agrees.attempted {x : ExceptT ε (StateM FileSystem) α} (hx : Agrees R x) :
    Agrees R (liftM (ExceptT.run x : StateM FileSystem (Except ε α)) :
      ExceptT ε' (StateM FileSystem) (Except ε α)) :=
  fun g g' h => ⟨congrArg Except.ok (hx g g' h).1, (hx g g' h).2⟩

theorem agrees_tag {f : String → ExceptT ε (StateM FileSystem) α}
    (h : AgreesFrom R (f g.tag) g g') (htag : g'.tag = g.tag) :
    AgreesFrom R ((liftM (FileStore.tag : StateM FileSystem String) :
      ExceptT ε (StateM FileSystem) String) >>= f) g g' := by
  have hrun : ∀ fs : FileSystem, fs.run ((liftM (FileStore.tag : StateM FileSystem String) :
      ExceptT ε (StateM FileSystem) String) >>= f) = fs.run (f fs.tag) := fun _ => rfl
  rw [AgreesFrom, hrun, hrun, htag]
  exact h

theorem agreesFrom_step {s : FileStep} :
    AgreesFrom R (step s : ExceptT FileError (StateM FileSystem) Unit) g g' ↔
      (g'.perform s).1 = (g.perform s).1 ∧ R (g.perform s).2 (g'.perform s).2 := Iff.rfl

end Agrees

/-! ### Changes that both runs make -/

/-- Places at which both sides are the same do not count among the changes. -/
theorem Changes.off (h : Changes F D g g') {W : Location → Prop}
    (hW : ∀ q, W q → g'.find? q = g.find? q) :
    Changes (fun q => F q ∧ ¬W q) (fun q => D q ∧ ¬W q) g g' where
  current := h.current
  tag := h.tag
  directories := h.directories
  rest q hq := by
    by_cases hsame : W q
    · exact .inl (hW q hsame)
    · exact (h.rest q fun hF => hq ⟨hF, hsame⟩).imp_right fun ⟨hnone, hmade, hD⟩ =>
        ⟨hnone, hmade, hD, hsame⟩

theorem Changes.find?_eq (h : Changes F D g g') (hF : ¬F q) (hD : ¬D q) :
    g'.find? q = g.find? q :=
  (h.rest q hF).resolve_right fun hmade => hD hmade.2.2

/-- Both sides become the same at one place and stay as they are at the others. -/
theorem Changes.of_same_at (h : Changes F D g g') {g₁ g₁' : FileSystem} {place : Location}
    (hcurrent : g₁'.current = g₁.current) (htag : g₁'.tag = g₁.tag)
    (hsame : g₁'.find? place = g₁.find? place) (hg : ∀ q, q ≠ place → g₁.find? q = g.find? q)
    (hg' : ∀ q, q ≠ place → g₁'.find? q = g'.find? q) : Changes F D g₁ g₁' := by
  refine ⟨hcurrent, htag, fun q hq => ?_, fun q hF => ?_⟩
  · by_cases hself : q = place
    · rw [hself] at hq ⊢
      rwa [hsame]
    · rw [hg q hself] at hq
      rw [hg' q hself]
      exact h.directories q hq
  · by_cases hself : q = place
    · rw [hself]
      exact .inl hsame
    · rw [hg q hself, hg' q hself]
      exact h.rest q hF

theorem Changes.put (h : Changes F D g g') (place : Location) (node : FileNode) :
    Changes F D (g.put place node) (g'.put place node) := by
  have hsame : (g'.put place node).find? place = (g.put place node).find? place := by
    cases place with
    | nil => rfl
    | cons part rest => rw [find?_put_self (by simp), find?_put_self (by simp)]
  exact h.of_same_at h.current h.tag hsame (fun _ hne => find?_put_of_ne hne _)
    fun _ hne => find?_put_of_ne hne _

theorem Changes.erase (h : Changes F D g g') (place : Location) :
    Changes F D (g.erase place) (g'.erase place) := by
  have hsame : (g'.erase place).find? place = (g.erase place).find? place := by
    cases place with
    | nil => rfl
    | cons part rest => rw [find?_erase_self (by simp), find?_erase_self (by simp)]
  exact h.of_same_at h.current h.tag hsame (fun _ hne => find?_erase_of_ne hne)
    fun _ hne => find?_erase_of_ne hne

/-- The first side gets a directory that the second one has. -/
theorem Changes.put_found (h : Changes F D g g') (hnone : g.find? place = none)
    (hmade : g'.find? place = some .directory) : Changes F D (g.put place .directory) g' := by
  have hself : (g.put place .directory).find? place = some .directory :=
    find?_put_self (ne_nil_of_find? hnone) _
  exact h.of_same_at h.current h.tag (hmade.trans hself.symm)
    (fun _ hne => find?_put_of_ne hne _) fun _ _ => rfl

/-! ### Steps that see no change -/

/-- No change is on the way along a path. -/
def Unseen (F D : Location → Prop) (fs : FileSystem) (path : String) : Prop :=
  ∀ q ∈ way (fs.startOf path) (path.splitOn "/"), ¬F q ∧ ¬D q

theorem Changes.foldlM_walk (h : Changes F D g g') (hunseen : ∀ q ∈ way place parts, ¬F q ∧ ¬D q) :
    parts.foldlM g'.walk place = parts.foldlM g.walk place := by
  induction parts generalizing place with
  | nil => rfl
  | cons part parts ih =>
    obtain ⟨hF, hD⟩ := hunseen place List.mem_cons_self
    have hwalk : g'.walk place part = g.walk place part := by
      rw [walk, walk, h.find?_eq hF hD]
    rw [List.foldlM_cons, List.foldlM_cons, hwalk]
    cases hnext : g.walk place part with
    | error e => rfl
    | ok next =>
      obtain rfl := along_of_walk hnext
      exact ih fun q hq => hunseen q (List.mem_cons_of_mem _ hq)

theorem Changes.resolve_unseen (h : Changes F D g g') (hunseen : Unseen F D g path) :
    g'.resolve path = g.resolve path := by
  rw [resolve, resolve, h.startOf, h.foldlM_walk hunseen]

/-- Where a path leads is on its way. -/
theorem mem_way_of_resolve (h : g.resolve path = .ok place) :
    place ∈ way (g.startOf path) (path.splitOn "/") :=
  destination_of_resolve h ▸ end_mem_way _ _

theorem Changes.resolveFile_unseen (h : Changes F D g g') (hunseen : Unseen F D g path) :
    g'.resolveFile path = g.resolveFile path := by
  rw [FileSystem.resolveFile, FileSystem.resolveFile, h.resolve_unseen hunseen]
  cases hplace : g.resolve path with
  | error e => rfl
  | ok place =>
    obtain ⟨hF, hD⟩ := hunseen place (mem_way_of_resolve hplace)
    rw [Outcome.ok_bind, Outcome.ok_bind, h.find?_eq hF hD]

/-- Two attempts fail alike or give related files. -/
def Alike (R : FileSystem → FileSystem → Prop) :
    Except FileError FileSystem → Except FileError FileSystem → Prop
  | .ok g, .ok g' => R g g'
  | .error e, .error e' => e' = e
  | _, _ => False

theorem Changes.attempt (h : Changes F D g g') {r r' : Except FileError FileSystem}
    (hr : Alike (Changes F D) r r') :
    (g'.attempt r').1 = (g.attempt r).1 ∧ Changes F D (g.attempt r).2 (g'.attempt r').2 := by
  match r, r', hr with
  | .ok g₁, .ok g₁', hr => exact ⟨rfl, hr⟩
  | .error e, .error e', hr => exact ⟨congrArg Except.error hr, h⟩

theorem Changes.putFile (h : Changes F D g g') (hunseen : Unseen F D g path) (content : Bytes) :
    Alike (Changes F D) (g.putFile path content) (g'.putFile path content) := by
  rw [FileSystem.putFile, FileSystem.putFile, h.resolve_unseen hunseen]
  cases hplace : g.resolve path with
  | error e => exact rfl
  | ok place =>
    obtain ⟨hF, hD⟩ := hunseen place (mem_way_of_resolve hplace)
    rw [Outcome.ok_bind, Outcome.ok_bind, h.find?_eq hF hD]
    split
    · exact rfl
    · exact h.put place _

/-- **What a step does depends on what is on the way along its paths.** -/
theorem Changes.perform (h : Changes F D g g') {s : FileStep}
    (hs : ∀ p, s ≠ .createDirectories p) (hunseen : ∀ p ∈ s.mentioned, Unseen F D g p) :
    (g'.perform s).1 = (g.perform s).1 ∧ Changes F D (g.perform s).2 (g'.perform s).2 := by
  cases s with
  | createDirectories path => exact absurd rfl (hs path)
  | create path => exact h.attempt (h.putFile (hunseen path (List.mem_singleton_self _)) [])
  | append path bytes =>
    refine h.attempt ?_
    rw [h.resolveFile_unseen (hunseen path (List.mem_singleton_self _))]
    cases g.resolveFile path with
    | error e => exact rfl
    | ok found => exact h.put found.1 _
  | sync path =>
    refine h.attempt ?_
    rw [h.resolveFile_unseen (hunseen path (List.mem_singleton_self _))]
    cases g.resolveFile path with
    | error e => exact rfl
    | ok found => exact h
  | rename source target =>
    refine h.attempt ?_
    rw [h.resolveFile_unseen (hunseen source (by simp [FileStep.mentioned]))]
    cases g.resolveFile source with
    | error e => exact rfl
    | ok found =>
      have htarget : Unseen F D (g.erase found.1) target :=
        hunseen target (by simp [FileStep.mentioned])
      exact (h.erase found.1).putFile htarget _
  | remove path =>
    refine h.attempt ?_
    rw [h.resolveFile_unseen (hunseen path (List.mem_singleton_self _))]
    cases g.resolveFile path with
    | error e => exact rfl
    | ok found => exact h.erase found.1

/-- Files that came from the same ones by steps, and that differ by changes. -/
structure Beside (base : FileSystem) (F D : Location → Prop) (g g' : FileSystem) : Prop where
  grown : Grown base g
  changes : Changes F D g g'

theorem Beside.unseen (h : Beside base F D g g') (hunseen : Unseen F D base path) :
    Unseen F D g path := by
  rw [Unseen, h.grown.startOf]
  exact hunseen

theorem agrees_step {s : FileStep} (hs : ∀ p, s ≠ .createDirectories p)
    (hunseen : ∀ p ∈ s.mentioned, Unseen F D base p) :
    Agrees (Beside base F D) (step s : ExceptT FileError (StateM FileSystem) Unit) := by
  intro g g' h
  obtain ⟨hsame, hchanges⟩ := h.changes.perform hs fun p hp => h.unseen (hunseen p hp)
  exact ⟨hsame, h.grown.perform s, hchanges⟩

/-! ### Making directories -/

/-- When all directories on a way could be made, they are there. -/
theorem directory_of_createAlong {missing : Bool} (hplace : g.find? place = some .directory)
    (h : (g.createAlong missing place parts).1 = .ok ()) (hq : q ∈ way place parts) :
    (g.createAlong missing place parts).2.find? q = some .directory := by
  have hkept : ∀ (fs : FileSystem) (missing : Bool) (next : Location) (rest : List String),
      Changes (fun _ => True) (fun _ => True) fs (fs.createAlong missing next rest).2 :=
    fun fs missing next rest => changes_createAlong missing next fun _ _ => .inr trivial
  induction parts generalizing g missing place with
  | nil => rwa [List.mem_singleton.1 hq]
  | cons part parts ih =>
    rcases List.mem_cons.1 hq with rfl | hq
    · exact (hkept g missing q (part :: parts)).directories q hplace
    · rw [createAlong] at h ⊢
      split at h
      · cases h
      · rename_i next hnext
        obtain rfl := along_of_walk hnext
        split at h
        · exact ih ‹_› h hq
        · cases h
        · rename_i hnone
          exact ih (find?_put_self (ne_nil_of_find? hnone) _) h hq

/-- **Behind a missing directory there is no file**, unless the way goes back from there. -/
theorem WellFormed.fileAt_eq_none (hg : g.WellFormed) {target next : Location}
    (hnone : g.find? next = none) (hheld : g.Held next) (hnext : next <:+ target)
    (hq : g.find? q = some .directory ∨ q <:+ target) : g.fileAt q = none := by
  refine Option.eq_none_iff_forall_ne_some.2 fun content hfile => ?_
  have hnode : g.find? q = some (.file content) := fileAt_eq_some.1 hfile
  have hne : q ≠ next := by
    rintro rfl
    simp [hnone] at hnode
  replace hq : q <:+ target := hq.resolve_left (by simp [hnode])
  -- One of the two places holds the other one, so it is a directory.
  rcases List.suffix_or_suffix_of_suffix hq hnext with hinside | hinside
  · cases next with
    | nil => exact hne (List.suffix_nil.1 hinside)
    | cons part rest =>
      have hbelow := (List.suffix_cons_iff.1 hinside).resolve_left hne
      simp [hg.directory_of_suffix (hheld part rest rfl) hbelow] at hnode
  · cases q with
    | nil => exact hne (List.suffix_nil.1 hinside).symm
    | cons part rest =>
      have hbelow := (List.suffix_cons_iff.1 hinside).resolve_left hne.symm
      have hrest := hg.parent part rest (by simp [hnode])
      simp [hg.directory_of_suffix hrest hbelow] at hnone

/-- **Directories are made alike** if no file on the way has changed: the second run finds some of
them already there. So one of the runs may have made directories where the other one has not, and
this would tell if there were a file on the way. -/
theorem Changes.createAlong {target : Location} {missing missing' : Bool} (h : Changes F D g g')
    (hg : g.WellFormed) (hplace : g.find? place = some .directory)
    (hway : ∀ q ∈ way place parts, g.find? q = some .directory ∨ q <:+ target)
    (hF : ∀ q, q <:+ target → ¬F q)
    (hmissing : missing' = missing ∨ ∀ q ∈ way place parts, g.fileAt q = none) :
    (g'.createAlong missing' place parts).1 = (g.createAlong missing place parts).1 ∧
      Changes F D (g.createAlong missing place parts).2
        (g'.createAlong missing' place parts).2 := by
  induction parts generalizing g g' missing missing' place with
  | nil => exact ⟨rfl, h⟩
  | cons part parts ih =>
    have hwalk : g'.walk place part = g.walk place part := by
      rw [walk, walk, hplace, h.directories place hplace]
    rw [FileSystem.createAlong, FileSystem.createAlong, hwalk]
    cases hnext : g.walk place part with
    | error e => exact ⟨rfl, h⟩
    | ok next =>
      have hheld := hg.held_of_walk hnext
      obtain rfl := along_of_walk hnext
      have hway' : ∀ q ∈ way (along place part) parts,
          g.find? q = some .directory ∨ q <:+ target :=
        fun q hq => hway q (List.mem_cons_of_mem _ hq)
      have hmissing' := hmissing.imp_right fun hfiles q hq => hfiles q (List.mem_cons_of_mem _ hq)
      dsimp only
      cases hnode : g.find? (along place part) with
      | none =>
        have htarget := (hway' _ (start_mem_way _ _)).resolve_left (by simp [hnode])
        have hput : (g.put (along place part) .directory).WellFormed :=
          hg.put (by simp [hnode]) hheld _
        have hfound : (g.put (along place part) .directory).find? (along place part) =
            some .directory := find?_put_self (ne_nil_of_find? hnode) _
        have hway₁ : ∀ q ∈ way (along place part) parts,
            (g.put (along place part) .directory).find? q = some .directory ∨ q <:+ target :=
          fun q hq => (hway' q hq).imp_left (find?_put_of_directory (by simp [hnode]) _)
        rcases h.rest _ (hF _ htarget) with hsame | ⟨-, hmade, -⟩
        · rw [hsame, hnode]
          exact ih (h.put _ .directory) hput hfound hway₁ (.inl rfl)
        · -- The directory is already there in the second run.
          rw [hmade]
          refine ih (h.put_found hnode hmade) hput hfound hway₁ (.inr fun q hq => ?_)
          rw [fileAt_put_directory hnode]
          exact hg.fileAt_eq_none hnode hheld htarget (hway' q hq)
      | some node =>
        cases node with
        | directory =>
          rw [h.directories _ hnode]
          exact ih h hg hnode hway' hmissing'
        | file content =>
          have htarget := (hway' _ (start_mem_way _ _)).resolve_left (by simp [hnode])
          rcases h.rest _ (hF _ htarget) with hsame | ⟨hnone, -, -⟩
          · rw [hsame, hnode]
            have hfile := fileAt_eq_some.2 hnode
            obtain rfl := hmissing'.resolve_right fun hfiles => by
              simp [hfiles _ (start_mem_way _ _)] at hfile
            exact ⟨rfl, h⟩
          · rw [hnode] at hnone
            cases hnone

theorem WellFormed.directory_start (h : g.WellFormed) (path : String) :
    g.find? (g.startOf path) = some .directory := by
  unfold startOf
  split
  · rfl
  · exact h.current

/-- When the directories on the way to a file could be made, they are there. -/
theorem directory_of_makeWay (hg : g.WellFormed) (l : Path.Layout path)
    (h : g.run (makeWay path) = (.ok (), g₁)) (hq : q ∈ way (g.startOf path) l.base) :
    g₁.find? q = some .directory := by
  rcases l.enclosing_cases with ⟨hbase, hnone⟩ | ⟨directory, idle, hbase, hsome, hne, -⟩
  · rw [makeWay, hnone] at h
    obtain rfl : g = g₁ := congrArg Prod.snd h
    rw [hbase, way, List.mem_singleton] at hq
    exact hq ▸ hg.directory_start path
  · rw [← mem_way_enclosing l hsome] at hq
    rw [makeWay, hsome] at h
    have hperform : g.perform (.createDirectories directory) = (.ok (), g₁) :=
      run_adapt_eq_ok.1 h
    rcases perform_createDirectories directory with ⟨r, hr, hsettled⟩ | halong
    · exact absurd (hr (congrArg Prod.fst ((hsettled g).symm.trans hperform))) hne
    · rw [halong] at hperform
      have hmade := directory_of_createAlong (hg.directory_start directory)
        (congrArg Prod.fst hperform) hq
      rwa [hperform] at hmade

/-- Making the directories on the way of a file agrees if nothing that holds the file has
changed. -/
theorem Changes.makeWay (h : Changes F D g g') (hg : g.WellFormed) (l : Path.Layout path)
    (hup : g.Steady Upwards path) (hF : ∀ q, q <:+ g.destination path → ¬F q) :
    AgreesFrom (Changes F D) (makeWay path) g g' := by
  unfold FileSystem.makeWay
  split
  · rename_i directory henclosing
    refine AgreesFrom.adapt ?_ _
    rw [agreesFrom_step]
    rcases perform_createDirectories directory with ⟨r, -, hsettled⟩ | halong
    · rw [hsettled, hsettled]
      exact ⟨rfl, h⟩
    · rw [halong, halong, h.startOf]
      refine h.createAlong hg (hg.directory_start directory) (fun q hq => ?_) hF (.inl rfl)
      rw [mem_way_enclosing l henclosing] at hq
      exact hup.way_base hg l hq
  · exact ⟨rfl, h⟩

/-! ### Replacing a file -/

/-- Files at a place and what holds it have not changed, and nothing was made there. -/
def Clear (F D : Location → Prop) (place : Location) : Prop :=
  (∀ q, q <:+ place → ¬F q) ∧ ¬D place

theorem agrees_writeBeside (hpath : Unseen F D base path)
    (htemp : Unseen F D base (temporary path base.tag)) :
    Agrees (Beside base F D) (writeBeside path bytes) := by
  have hstep : ∀ s ∈ besideSteps path (temporary path base.tag) bytes,
      Agrees (Beside base F D) (step s : ExceptT FileError (StateM FileSystem) Unit) := by
    intro s hs
    simp only [besideSteps, List.mem_cons, List.not_mem_nil, or_false] at hs
    rcases hs with rfl | rfl | rfl | rfl | rfl <;>
      exact agrees_step (by simp) (by simp [FileStep.mentioned, hpath, htemp])
  have hfill : Agrees (Beside base F D)
      (fillAndMove path (temporary path base.tag) fun write => write bytes :
        ExceptT FileError (StateM FileSystem) Unit) :=
    (hstep _ (by simp [besideSteps])).bind fun _ => (hstep _ (by simp [besideSteps])).bind fun _ =>
      (hstep _ (by simp [besideSteps])).bind fun _ => hstep _ (by simp [besideSteps])
  have hconclude : ∀ r, Agrees (Beside base F D) (conclude path (temporary path base.tag) r) := by
    rintro (cause | _)
    · exact (hstep (.remove _) (by simp [besideSteps])).attempted.bind fun _ => agrees_throw _
    · exact agrees_pure _
  intro g g' h
  refine agrees_tag ?_ h.changes.tag
  rw [h.grown.tag]
  exact hfill.attempted.bind hconclude g g' h

/-- **Replacing a file agrees** if no file has changed at its place or that of the temporary one or
at what holds them. -/
theorem agrees_replace (hup : base.Steady Upwards path)
    (hpath : Clear F D (base.destination path))
    (htemp : Clear F D (base.destination (temporary path base.tag))) :
    Agrees (Beside base F D) (replace path bytes) := by
  intro g g' h
  have hgrown : Grown base (g.run (replace path bytes : ExceptT ConvertError _ Unit)).2 :=
    keeps_grown base path bytes g h.grown
  suffices hchanges : AgreesFrom (Changes F D) (replace path bytes) g g' from
    ⟨hchanges.1, hgrown, hchanges.2⟩
  by_cases hname : (Path.fileName? path).isSome
  swap
  · rw [replace_of_not_named hname]
    exact agrees_throw _ g g' h.changes
  rw [replace_of_named hname]
  obtain ⟨l⟩ := Path.exists_layout hname
  have hway : AgreesFrom (Changes F D) (makeWay path) g g' := by
    refine h.changes.makeWay h.grown.wellFormed l (hup.grown h.grown) fun q hq => hpath.1 q ?_
    rwa [← h.grown.destination]
  refine hway.bind fun _ g₁ g₁' hrun _ h₁ => ?_
  have hgrown₁ : Grown base g₁ := by
    have hkept : Keeps (Grown base) (makeWay path) := keeps_makeWay fun _ _ _ h => h.perform _
    have hg₁ := hkept g h.grown
    rwa [hrun] at hg₁
  -- On the way to the file and the temporary one there is no difference left.
  let W : Location → Prop := fun q => q ∈ way (base.startOf path) l.base ∨
    q = base.destination path ∨ q = base.destination (temporary path base.tag)
  have hsame : ∀ q, W q → g₁'.find? q = g₁.find? q := by
    rintro q (hq | rfl | rfl)
    · rw [← h.grown.startOf] at hq
      have hmade := directory_of_makeWay h.grown.wellFormed l hrun hq
      rw [hmade, h₁.directories q hmade]
    · exact h₁.find?_eq (hpath.1 _ List.suffix_rfl) hpath.2
    · exact h₁.find?_eq (htemp.1 _ List.suffix_rfl) htemp.2
  have hunseen : Unseen (fun q => F q ∧ ¬W q) (fun q => D q ∧ ¬W q) base path := by
    intro q hq
    have hW : W q := (mem_way_layout l hq).imp_right .inl
    exact ⟨fun hF => hF.2 hW, fun hD => hD.2 hW⟩
  have htag : '/' ∉ base.tag.toList := h.grown.tag ▸ h.grown.wellFormed.tag
  have hunseen' : Unseen (fun q => F q ∧ ¬W q) (fun q => D q ∧ ¬W q) base
      (temporary path base.tag) := by
    intro q hq
    have hW : W q := (mem_way_temporary l htag hq).imp_right .inr
    exact ⟨fun hF => hF.2 hW, fun hD => hD.2 hW⟩
  exact (agrees_writeBeside hunseen hunseen' g₁ g₁' ⟨hgrown₁, h₁.off hsame⟩).mono fun _ _ h =>
    h.changes.mono (fun _ => And.left) fun _ => And.left

/-! ### Reading files -/

/-- The file to which parts lead from a place. -/
def fileFrom (fs : FileSystem) (place : Location) : List String →
    Except FileError (Location × Bytes)
  | [] =>
    match fs.find? place with
    | some (.file content) => .ok (place, content)
    | some .directory => .error .isDirectory
    | none => .error .notFound
  | part :: parts => do fs.fileFrom (← fs.walk place part) parts

theorem foldlM_bind_fileFrom :
    (parts.foldlM g.walk place >>= fun q => g.fileFrom q []) = g.fileFrom place parts := by
  induction parts generalizing place with
  | nil => rfl
  | cons part parts ih =>
    rw [List.foldlM_cons, fileFrom]
    cases g.walk place part with
    | error e => rfl
    | ok next => exact ih

theorem resolveFile_eq_fileFrom :
    g.resolveFile path =
      if path = "" then .error .notFound
      else if path.contains (Char.ofNat 0) then .error zeroByte
      else if maxPath < path.utf8ByteSize then .error tooLong
      else g.fileFrom (g.startOf path) (path.splitOn "/") := by
  rw [resolveFile, resolve, ← foldlM_bind_fileFrom]
  split_ifs <;> rfl

theorem resolveFile_of_accepted (h : Accepted path) :
    g.resolveFile path = g.fileFrom (g.startOf path) (path.splitOn "/") := by
  obtain ⟨hne, hnull, hshort⟩ := h
  rw [resolveFile_eq_fileFrom, if_neg hne, if_neg (by rw [hnull]; simp), if_neg hshort.not_gt]

theorem walk_of_ordinary {part : String} (hplace : g.find? place = some .directory)
    (hpart : ¬Unnamable part) : g.walk place part = .ok (along place part) := by
  rw [Unnamable, not_or] at hpart
  rw [walk, hplace, along]
  dsimp only
  split
  · rfl
  · rw [if_neg hpart.1, if_neg hpart.1, if_neg hpart.2]

/-- Nothing is below a place that is missing. -/
theorem WellFormed.find?_along_of_none {part : String} (h : g.WellFormed) (hpart : part ≠ "..")
    (hnone : g.find? place = none) : g.find? (along place part) = none := by
  unfold along
  rw [if_neg hpart]
  split
  · exact hnone
  · by_contra hfound
    have hholder := h.parent part place hfound
    rw [hnone] at hholder
    cases hholder

/-- **From a place that is missing in the first run the second run finds no file either.** It goes
through directories that were made, and these do not reach the place where the parts lead. -/
theorem Changes.fileFrom_missing (h : Changes F D g g') (hg : g.WellFormed)
    (hsteady : g.SteadyFrom Unnamable place parts) (hclear : Clear F D (parts.foldl along place))
    (hnone : g.find? place = none) : g'.fileFrom place parts = .error .notFound := by
  induction parts generalizing place with
  | nil =>
    rw [fileFrom, h.find?_eq (hclear.1 place List.suffix_rfl) hclear.2, hnone]
  | cons part parts ih =>
    have hsuffix : place <:+ (part :: parts).foldl along place :=
      (hsteady.suffix hg (.inl rfl)).resolve_left (by simp [hnone])
    rcases h.rest place (hclear.1 place hsuffix) with hsame | ⟨-, hmade, -⟩
    · rw [fileFrom, walk, hsame, hnone]
      rfl
    · have hpart : ¬Unnamable part := fun hpart => by simp [hsteady.1 hpart] at hnone
      rw [fileFrom, walk_of_ordinary hmade hpart]
      exact ih hsteady.2 hclear (hg.find?_along_of_none (fun hup => hpart (.inl hup)) hnone)

/-- **From a place that is there the runs find the same.** -/
theorem Changes.fileFrom_eq (h : Changes F D g g') (hg : g.WellFormed)
    (hsteady : g.SteadyFrom Unnamable place parts) (hclear : Clear F D (parts.foldl along place)) :
    g'.fileFrom place parts = g.fileFrom place parts := by
  induction parts generalizing place with
  | nil =>
    rw [fileFrom, fileFrom, h.find?_eq (hclear.1 place List.suffix_rfl) hclear.2]
  | cons part parts ih =>
    cases hplace : g.find? place with
    | none =>
      rw [h.fileFrom_missing hg hsteady hclear hplace, fileFrom, walk, hplace]
      rfl
    | some node =>
      have hsame : g'.find? place = g.find? place := by
        rcases hsteady.suffix hg (.inl rfl) with hdirectory | hsuffix
        · rw [hdirectory, h.directories place hdirectory]
        · exact (h.rest place (hclear.1 place hsuffix)).resolve_right (by simp [hplace])
      have hwalk : g'.walk place part = g.walk place part := by
        rw [walk, walk, hsame]
      rw [fileFrom, fileFrom, hwalk]
      cases hnext : g.walk place part with
      | error e => rfl
      | ok next =>
        obtain rfl := along_of_walk hnext
        exact ih hsteady.2 hclear

/-- **A path leads to the same file** if no file has changed at its place or at what holds it. -/
theorem Changes.resolveFile_eq (h : Changes F D g g') (hg : g.WellFormed)
    (hsteady : g.Steady Unnamable path) (hclear : Clear F D (g.destination path)) :
    g'.resolveFile path = g.resolveFile path := by
  rw [resolveFile_eq_fileFrom, resolveFile_eq_fileFrom, h.startOf,
    h.fileFrom_eq hg hsteady hclear]

theorem agrees_bytes (hsteady : base.Steady Unnamable path)
    (hclear : Clear F D (base.destination path)) :
    Agrees (Beside base F D)
      (FileStore.bytes path : ExceptT FileError (StateM FileSystem) Bytes) := by
  intro g g' h
  have hfile : g'.resolveFile path = g.resolveFile path :=
    h.changes.resolveFile_eq h.grown.wellFormed (hsteady.grown h.grown)
      (h.grown.destination path ▸ hclear)
  refine ⟨?_, h⟩
  rw [run_bytes, run_bytes, FileSystem.read, FileSystem.read, hfile]

end FileSystem

end NetPack
