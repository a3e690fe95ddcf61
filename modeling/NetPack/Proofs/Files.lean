import Mathlib.Data.String.Basic
import NetPack.Files.Formats
import NetPack.Files.Memory
import NetPack.Proofs.Outcomes

/-!
# Files that were replaced

What a computation does to a file system in memory is read off its result and the file system that
it leaves (`FileSystem.run`). Putting a file where there is no directory does not change where paths
lead to (`FileSystem.resolve_put`), so what was put behind a path is read there
(`FileSystem.read_putFile`). A file that was replaced as a whole, through a temporary one, holds
exactly the new bytes (`FileSystem.read_of_replace`); one that is named without directories can be
replaced, and nothing else changes (`FileSystem.run_replace`).
-/

namespace NetPack

/-! ### Paths of one part -/

namespace Path

open String

theorem splitOnAux_of_not_mem {sep : String} (l r : List Char) (h : (0 : Pos.Raw).get sep ∉ r) :
    splitOnAux (ofList (l ++ r)) sep 0 ⟨utf8Len l⟩ 0 [] = [ofList (l ++ r)] := by
  induction r generalizing l with
  | nil =>
    rw [splitOnAux, if_pos ((atEnd_of_valid l []).2 rfl)]
    simpa using extract_of_valid [] l []
  | cons c r ih =>
    rw [List.mem_cons, not_or] at h
    have hend : ¬Pos.Raw.atEnd (ofList (l ++ c :: r)) ⟨utf8Len l⟩ := fun h =>
      List.cons_ne_nil c r ((atEnd_of_valid l (c :: r)).1 h)
    have hne : ¬(c == (0 : Pos.Raw).get sep) = true := by simpa using Ne.symm h.1
    have hback : Pos.Raw.unoffsetBy ⟨utf8Len l⟩ 0 = ⟨utf8Len l⟩ := by simp [Pos.Raw.unoffsetBy]
    have hlength : utf8Len l + c.utf8Size = utf8Len (l ++ [c]) := by simp
    rw [splitOnAux, if_neg hend, get_of_valid, List.headD_cons, if_neg hne, hback, next_of_valid,
      hlength]
    simpa using ih (l ++ [c]) h.2

/-- A text in which the first character of a separator does not occur is not split. -/
theorem splitOn_of_not_mem {text sep : String} (hsep : sep ≠ "")
    (h : (0 : Pos.Raw).get sep ∉ text.toList) : text.splitOn sep = [text] := by
  rw [splitOn, if_neg (by simpa using hsep)]
  simpa using splitOnAux_of_not_mem [] text.toList h

/-- A path that is the name of a file. -/
structure Plain (name : String) : Prop where
  noSlash : '/' ∉ name.toList
  noNull : name.contains (Char.ofNat 0) = false
  proper : ["", ".", ".."].contains name = false
  short : name.utf8ByteSize ≤ FileSystem.maxName

namespace Plain

variable {name : String}

instance : Decidable (Plain name) :=
  decidable_of_iff ('/' ∉ name.toList ∧ Char.ofNat 0 ∉ name.toList ∧
      ["", ".", ".."].contains name = false ∧ name.utf8ByteSize ≤ FileSystem.maxName)
    ⟨fun ⟨h₁, h₂, h₃, h₄⟩ => ⟨h₁, by simpa using h₂, h₃, h₄⟩,
      fun h => ⟨h.1, by simpa using h.2, h.3, h.4⟩⟩

theorem ne (h : Plain name) : name ≠ "" ∧ name ≠ "." ∧ name ≠ ".." := by
  simpa using h.proper

theorem splitOn (h : Plain name) : name.splitOn "/" = [name] := by
  have hslash : (0 : Pos.Raw).get "/" = '/' := by decide +kernel
  exact splitOn_of_not_mem (by decide) (hslash ▸ h.noSlash)

theorem parts (h : Plain name) : Path.parts name = [name] := by
  rw [Path.parts, h.splitOn]
  rfl

theorem fileName? (h : Plain name) : Path.fileName? name = some name := by
  rw [Path.fileName?, h.parts]
  exact if_neg (ne_true_of_eq_false h.proper)

theorem parent? (h : Plain name) : Path.parent? name = some "" := by
  rw [Path.parent?, h.parts]
  exact if_neg h.ne.1

theorem isAbsolute (h : Plain name) : Path.isAbsolute name = false := by
  have hslash : ¬['/'] <+: name.toList := fun hslash => h.noSlash (hslash.subset (by simp))
  simpa [Path.isAbsolute] using hslash

theorem enclosing? (h : Plain name) : Path.enclosing? name = none := by
  rw [Path.enclosing?, h.parent?]
  rfl

theorem withFileName (h : Plain name) {other : String} : Path.withFileName name other = other := by
  simp [Path.withFileName, h.fileName?, h.parent?, join]

end Plain

end Path

namespace FileSystem

open FileStore

variable {ε ε' α β : Type} {fs fs' : FileSystem} {path : String}

/-! ### Computations on files in memory -/

/-- The result of a computation and the file system that it leaves. -/
def run (fs : FileSystem) (x : ExceptT ε (StateM FileSystem) α) : Except ε α × FileSystem :=
  x.run.run fs

@[simp] theorem run_ofResult (r : Except ε α) :
    fs.run (ofResult r : ExceptT ε (StateM FileSystem) α) = (r, fs) := rfl

@[simp] theorem run_mk_pure (r : Except ε α) :
    fs.run (ExceptT.mk (pure r) : ExceptT ε (StateM FileSystem) α) = (r, fs) := rfl

@[simp] theorem run_bytes (path : String) :
    fs.run (bytes path : ExceptT FileError (StateM FileSystem) Bytes) = (fs.read path, fs) := rfl

theorem run_liftM (x : StateM FileSystem α) :
    fs.run (liftM x : ExceptT ε (StateM FileSystem) α) = (.ok (x.run fs).1, (x.run fs).2) := rfl

theorem run_bind (x : ExceptT ε (StateM FileSystem) α)
    (f : α → ExceptT ε (StateM FileSystem) β) :
    fs.run (x >>= f) =
      match fs.run x with
      | (.ok a, fs₁) => fs₁.run (f a)
      | (.error e, fs₁) => (.error e, fs₁) := by
  simp only [run, ExceptT.run_bind, StateT.run_bind]
  rcases x.run.run fs with ⟨_ | a, fs₁⟩ <;> rfl

theorem run_bind_of_ok {x : ExceptT ε (StateM FileSystem) α}
    {f : α → ExceptT ε (StateM FileSystem) β} {a : α} (h : fs.run x = (.ok a, fs')) :
    fs.run (x >>= f) = fs'.run (f a) := by
  rw [run_bind, h]

theorem run_bind_of_error {x : ExceptT ε (StateM FileSystem) α}
    {f : α → ExceptT ε (StateM FileSystem) β} {e : ε} (h : fs.run x = (.error e, fs')) :
    fs.run (x >>= f) = (.error e, fs') := by
  rw [run_bind, h]

theorem run_bind_eq_ok {x : ExceptT ε (StateM FileSystem) α}
    {f : α → ExceptT ε (StateM FileSystem) β} {b : β} :
    fs.run (x >>= f) = (.ok b, fs') ↔
      ∃ a fs₁, fs.run x = (.ok a, fs₁) ∧ fs₁.run (f a) = (.ok b, fs') := by
  rw [run_bind]
  split
  · rename_i a fs₁ hx
    simp [hx]
  · rename_i e fs₁ hx
    simp [hx]

theorem run_adapt_eq_ok {f : ε → ε'} {x : ExceptT ε (StateM FileSystem) α} {a : α} :
    fs.run (ExceptT.adapt f x) = (.ok a, fs') ↔ fs.run x = (.ok a, fs') := by
  have h : fs.run (ExceptT.adapt f x) = ((fs.run x).1.mapError f, (fs.run x).2) := rfl
  rw [h]
  rcases fs.run x with ⟨_ | b, fs₁⟩ <;> simp [Except.mapError]

theorem run_adapt_of_error {f : ε → ε'} {x : ExceptT ε (StateM FileSystem) α} {e : ε}
    (h : fs.run x = (.error e, fs')) : fs.run (ExceptT.adapt f x) = (.error (f e), fs') := by
  have hadapt : fs.run (ExceptT.adapt f x) = ((fs.run x).1.mapError f, (fs.run x).2) := rfl
  rw [hadapt, h]
  rfl

/-! ### Where paths lead to -/

theorem lookup_filter_of_ne {nodes : List (Location × FileNode)} {place other : Location}
    (h : other ≠ place) :
    (nodes.filter fun n => n.1 != place).lookup other = nodes.lookup other := by
  induction nodes with
  | nil => rfl
  | cons n nodes ih =>
    by_cases hn : n.1 = place
    · have hne : (other == n.1) = false := beq_false_of_ne (hn ▸ h)
      rw [List.filter_cons_of_neg (by simp [hn]), List.lookup_cons, hne, ih]
    · rw [List.filter_cons_of_pos (by simpa using hn), List.lookup_cons, List.lookup_cons, ih]

theorem ne_nil_of_find? {place : Location} (h : fs.find? place = none) : place ≠ [] := by
  rintro rfl
  simp [find?] at h

theorem find?_put_self {place : Location} (h : place ≠ []) (node : FileNode) :
    (fs.put place node).find? place = some node := by
  cases place with
  | nil => exact absurd rfl h
  | cons part rest => simp [put, find?]

theorem find?_put_of_ne {place other : Location} (h : other ≠ place) (node : FileNode) :
    (fs.put place node).find? other = fs.find? other := by
  cases other with
  | nil => rfl
  | cons part rest =>
    have hne : (part :: rest == place) = false := beq_false_of_ne h
    simp only [put, find?, erase, List.lookup_cons, hne, lookup_filter_of_ne h]

variable {place : Location} {content content' : Bytes}

theorem find?_of_walk {start next : Location} {part : String} (h : fs.walk start part = .ok next) :
    fs.find? start = some .directory := by
  unfold walk at h
  split at h
  · cases h
  · cases h
  · assumption

/-- A path that can lead somewhere: it is not empty, not too long and has no zero byte. -/
def Accepted (path : String) : Prop :=
  path ≠ "" ∧ path.contains (Char.ofNat 0) = false ∧ path.utf8ByteSize ≤ maxPath

theorem resolve_eq_ok {target : Location} :
    fs.resolve path = .ok target ↔
      Accepted path ∧ (path.splitOn "/").foldlM fs.walk (fs.startOf path) = .ok target := by
  rw [resolve, Outcome.ite_eq_ok (by simp), Outcome.ite_eq_ok (by simp),
    Outcome.ite_eq_ok (by simp), Accepted, Bool.not_eq_true, Nat.not_lt, and_assoc, and_assoc]

/-- A path leads to the same place as long as the directories are still there. -/
theorem resolve_mono (hcurrent : fs'.current = fs.current)
    (hdirectory : ∀ place, fs.find? place = some .directory → fs'.find? place = some .directory)
    {target : Location} (h : fs.resolve path = .ok target) : fs'.resolve path = .ok target := by
  obtain ⟨haccepted, hfold⟩ := resolve_eq_ok.1 h
  refine resolve_eq_ok.2 ⟨haccepted, ?_⟩
  rw [show fs'.startOf path = fs.startOf path by rw [startOf, startOf, hcurrent]]
  generalize fs.startOf path = start at hfold ⊢
  generalize path.splitOn "/" = parts at hfold ⊢
  induction parts generalizing start with
  | nil => exact hfold
  | cons part parts ih =>
    rw [List.foldlM_cons] at hfold ⊢
    obtain ⟨next, hnext, hfold⟩ := Outcome.bind_eq_ok.1 hfold
    -- Every place on the way is a directory, and looks the same in both file systems.
    have hstart := find?_of_walk hnext
    have hwalk : fs'.walk start part = .ok next := by
      rw [← hnext, walk, walk, hdirectory start hstart, hstart]
    rw [hwalk]
    exact ih next hfold

theorem find?_put_of_directory (hplace : fs.find? place ≠ some .directory) (node : FileNode)
    {other : Location} (h : fs.find? other = some .directory) :
    (fs.put place node).find? other = some .directory := by
  have hne : other ≠ place := by
    rintro rfl
    exact hplace h
  rw [find?_put_of_ne hne, h]

/-- A path leads to the same place after a file was put somewhere that is no directory. -/
theorem resolve_put (hplace : fs.find? place ≠ some .directory) {target : Location}
    (h : fs.resolve path = .ok target) :
    (fs.put place (.file content)).resolve path = .ok target := by
  refine resolve_mono ?_ (fun _ => find?_put_of_directory hplace _) h
  rfl

theorem resolveFile_eq_ok :
    fs.resolveFile path = .ok (place, content) ↔
      fs.resolve path = .ok place ∧ fs.find? place = some (.file content) := by
  unfold resolveFile
  constructor
  · intro h
    obtain ⟨target, htarget, h⟩ := Outcome.bind_eq_ok.1 h
    split at h
    · rename_i found hfound
      rw [Outcome.pure_eq_ok_iff, Prod.mk.injEq] at h
      obtain ⟨rfl, rfl⟩ := h
      exact ⟨htarget, hfound⟩
    · cases h
    · cases h
  · rintro ⟨hplace, hfile⟩
    rw [hplace, Outcome.ok_bind, hfile]
    rfl

theorem resolveFile_put (hplace : fs.find? place ≠ some .directory)
    (h : fs.resolve path = .ok place) :
    (fs.put place (.file content)).resolveFile path = .ok (place, content) := by
  refine resolveFile_eq_ok.2 ⟨resolve_put hplace h, find?_put_self ?_ _⟩
  rintro rfl
  exact hplace rfl

theorem read_eq_ok {bytes : Bytes} :
    fs.read path = .ok bytes ↔ ∃ place, fs.resolveFile path = .ok (place, bytes) := by
  rw [read, Outcome.map_eq_ok]
  constructor
  · rintro ⟨⟨place, _⟩, h, rfl⟩
    exact ⟨place, h⟩
  · rintro ⟨place, h⟩
    exact ⟨_, h, rfl⟩

/-! ### Steps -/

theorem attempt_eq_ok {r : Except FileError FileSystem} :
    fs.attempt r = (.ok (), fs') ↔ r = .ok fs' := by
  cases r <;> simp [attempt]

/-- An attempt that fails changes nothing. -/
theorem eq_of_attempt_eq_error {r : Except FileError FileSystem} {e : FileError}
    (h : fs.attempt r = (.error e, fs')) : fs' = fs := by
  cases r with
  | error e' => exact (Prod.mk.inj h).2.symm
  | ok fs₁ => cases (Prod.mk.inj h).1

/-- What was put behind a path is read there. -/
theorem resolveFile_putFile (h : fs.putFile path content = .ok fs') :
    ∃ place, fs'.resolveFile path = .ok (place, content) := by
  obtain ⟨place, hplace, h⟩ := Outcome.bind_eq_ok.1 h
  refine ⟨place, ?_⟩
  split at h
  · cases h
  · rename_i hfile
    obtain rfl := Outcome.pure_eq_ok_iff.1 h
    exact resolveFile_put (fun hdirectory => hfile hdirectory) hplace

theorem read_putFile (h : fs.putFile path content = .ok fs') : fs'.read path = .ok content :=
  read_eq_ok.2 (resolveFile_putFile h)

theorem resolveFile_append (hfile : fs.resolveFile path = .ok (place, content))
    (h : fs.perform (.append path content') = (.ok (), fs')) :
    fs'.resolveFile path = .ok (place, content ++ content') := by
  obtain ⟨⟨place', found⟩, hfound, h⟩ := Outcome.bind_eq_ok.1 (attempt_eq_ok.1 h)
  rw [hfile, Except.ok.injEq, Prod.mk.injEq] at hfound
  obtain ⟨rfl, rfl⟩ := hfound
  obtain rfl := Outcome.pure_eq_ok_iff.1 h
  obtain ⟨hplace, hnode⟩ := resolveFile_eq_ok.1 hfile
  exact resolveFile_put (by simp [hnode]) hplace

theorem perform_sync (h : fs.perform (.sync path) = (.ok (), fs')) : fs' = fs := by
  obtain ⟨_, -, h⟩ := Outcome.bind_eq_ok.1 (attempt_eq_ok.1 h)
  exact (Outcome.pure_eq_ok_iff.1 h).symm

theorem read_rename {source : String} (hfile : fs.resolveFile source = .ok (place, content))
    (h : fs.perform (.rename source path) = (.ok (), fs')) : fs'.read path = .ok content := by
  obtain ⟨⟨place', found⟩, hfound, h⟩ := Outcome.bind_eq_ok.1 (attempt_eq_ok.1 h)
  rw [hfile, Except.ok.injEq, Prod.mk.injEq] at hfound
  obtain ⟨rfl, rfl⟩ := hfound
  exact read_putFile h

/-! ### Replacing a file -/

theorem read_of_fillAndMove {temp : String} {bytes : Bytes}
    (h : fs.run (fillAndMove path temp fun write => write bytes) = (.ok (), fs')) :
    fs'.read path = .ok bytes := by
  -- The temporary file is made empty, filled, stored and moved.
  obtain ⟨_, fs₁, hcreate, h⟩ := run_bind_eq_ok.1 h
  obtain ⟨_, fs₂, happend, h⟩ := run_bind_eq_ok.1 h
  obtain ⟨_, fs₃, hsync, hrename⟩ := run_bind_eq_ok.1 h
  obtain ⟨place, hfile⟩ := resolveFile_putFile (attempt_eq_ok.1 hcreate)
  have hfilled := resolveFile_append hfile happend
  obtain rfl := perform_sync hsync
  exact read_rename hfilled hrename

/-- What follows the temporary file: nothing if it was moved, and a failure otherwise. -/
theorem read_of_settled {temp : String} {bytes : Bytes}
    {settle : Except FileError Unit → ExceptT ConvertError (StateM FileSystem) Unit}
    (hok : ∀ fs : FileSystem, fs.run (settle (.ok ())) = (.ok (), fs))
    (herror : ∀ cause (fs : FileSystem), (fs.run (settle (.error cause))).1 ≠ .ok ())
    (h : fs.run (liftM (ExceptT.run (fillAndMove path temp fun write => write bytes) :
      StateM FileSystem (Except FileError Unit)) >>= settle) = (.ok (), fs')) :
    fs'.read path = .ok bytes := by
  obtain ⟨result, fs₁, hfill, h⟩ := run_bind_eq_ok.1 h
  rw [run_liftM, Prod.mk.injEq, Except.ok.injEq] at hfill
  cases result with
  | ok u =>
    obtain rfl : fs₁ = fs' := congrArg Prod.snd ((hok fs₁).symm.trans h)
    exact read_of_fillAndMove (Prod.ext hfill.1 hfill.2)
  | error cause => exact (herror cause fs₁ (congrArg Prod.fst h)).elim

/-- **A file that was replaced holds the new bytes.** -/
theorem read_of_replace {bytes : Bytes} (h : fs.run (replace path bytes) = (.ok (), fs')) :
    fs'.read path = .ok bytes := by
  have herror : ∀ temp cause (fs : FileSystem), (fs.run ((liftM (FileStore.perform (.remove temp) :
      StateM FileSystem (Except FileError Unit)) >>= fun _ => throw (.file path cause) :
      ExceptT ConvertError (StateM FileSystem) Unit))).1 ≠ .ok () := by
    intro temp cause fs h
    obtain ⟨_, _, -, h⟩ := run_bind_eq_ok.1 (Prod.ext h rfl)
    cases congrArg Prod.fst h
  unfold replace replaceWith at h
  dsimp only at h
  split at h
  · cases congrArg Prod.fst h
  · split at h
    · obtain ⟨_, fs₁, -, h⟩ := run_bind_eq_ok.1 h
      obtain ⟨_, fs₂, -, h⟩ := run_bind_eq_ok.1 h
      exact read_of_settled (fun _ => rfl) (herror _) h
    · obtain ⟨_, fs₁, -, h⟩ := run_bind_eq_ok.1 h
      exact read_of_settled (fun _ => rfl) (herror _) h

/-! ### Files that can be replaced -/

section Plain

variable {name temp : String} {other : Location} {node : FileNode}

theorem walk_plain (h : Path.Plain name) (hplace : fs.find? place = some .directory) :
    fs.walk place name = .ok (name :: place) := by
  obtain ⟨hempty, hdot, hup⟩ := h.ne
  rw [walk, hplace]
  dsimp only
  rw [if_neg (by simp [hempty, hdot]), if_neg hup, if_neg (Nat.not_lt.2 h.short)]

/-- The name of a file leads to the directory where paths start. -/
theorem resolve_plain (h : Path.Plain name) (hcurrent : fs.find? fs.current = some .directory) :
    fs.resolve name = .ok (name :: fs.current) := by
  refine resolve_eq_ok.2 ⟨⟨h.ne.1, h.noNull, h.short.trans (by decide)⟩, ?_⟩
  rw [h.splitOn, startOf, h.isAbsolute, List.foldlM_cons]
  exact congrArg (· >>= _) (walk_plain h hcurrent)

theorem find?_erase_of_ne (h : other ≠ place) : (fs.erase place).find? other = fs.find? other := by
  cases other with
  | nil => rfl
  | cons part rest => exact lookup_filter_of_ne h

theorem find?_erase_self (h : place ≠ []) : (fs.erase place).find? place = none := by
  cases place with
  | nil => exact absurd rfl h
  | cons part rest =>
    simp only [find?, erase, List.lookup_eq_none_iff]
    intro n hn
    have hne : n.1 ≠ part :: rest := by simpa using (List.mem_filter.1 hn).2
    simpa using Ne.symm hne

theorem erase_put : (fs.put place node).erase place = fs.erase place := by
  simp [put, erase, List.filter_filter]

theorem putFile_eq (h : fs.resolve path = .ok place) (hplace : fs.find? place ≠ some .directory) :
    fs.putFile path content = .ok (fs.put place (.file content)) := by
  rw [putFile, h, Outcome.ok_bind]
  split
  · exact absurd ‹_› hplace
  · rfl

theorem run_fillAndMove (content : Bytes) (hname : Path.Plain name) (htemp : Path.Plain temp)
    (hne : name ≠ temp) (hcurrent : fs.find? fs.current = some .directory)
    (hfree : fs.find? (name :: fs.current) ≠ some .directory)
    (hfree' : fs.find? (temp :: fs.current) ≠ some .directory) :
    fs.run (fillAndMove name temp fun write => write content) =
      (.ok (), (fs.erase (temp :: fs.current)).put (name :: fs.current) (.file content)) := by
  have hself : ∀ part : String, fs.current ≠ part :: fs.current := fun part =>
    (List.cons_ne_self part fs.current).symm
  -- The temporary file is empty, and then it is full.
  let fs₁ := fs.put (temp :: fs.current) (.file [])
  let fs₂ := fs₁.put (temp :: fs.current) (.file content)
  have hcreate : fs.perform (.create temp) = (.ok (), fs₁) :=
    attempt_eq_ok.2 (putFile_eq (resolve_plain htemp hcurrent) hfree')
  have hcurrent₁ : fs₁.find? fs₁.current = some .directory :=
    (find?_put_of_ne (hself temp) _).trans hcurrent
  have hfile₁ : fs₁.resolveFile temp = .ok (temp :: fs.current, []) :=
    resolveFile_eq_ok.2 ⟨resolve_plain htemp hcurrent₁, find?_put_self (by simp) _⟩
  have happend : fs₁.perform (.append temp content) = (.ok (), fs₂) := by
    refine attempt_eq_ok.2 ?_
    rw [hfile₁]
    rfl
  have hfile₂ : fs₂.resolveFile temp = .ok (temp :: fs.current, content) :=
    resolveFile_append hfile₁ happend
  have hsync : fs₂.perform (.sync temp) = (.ok (), fs₂) := by
    refine attempt_eq_ok.2 ?_
    rw [hfile₂]
    rfl
  -- Without the temporary file everything is as it was.
  let fs₃ := fs.erase (temp :: fs.current)
  have herase : fs₂.erase (temp :: fs.current) = fs₃ := by rw [erase_put, erase_put]
  have hcurrent₃ : fs₃.find? fs₃.current = some .directory :=
    (find?_erase_of_ne (hself temp)).trans hcurrent
  have hfree₃ : fs₃.find? (name :: fs.current) ≠ some .directory := by
    rwa [find?_erase_of_ne (by simp [hne])]
  have hrename : fs₂.perform (.rename temp name) =
      (.ok (), fs₃.put (name :: fs.current) (.file content)) := by
    refine attempt_eq_ok.2 ?_
    rw [hfile₂, Outcome.ok_bind]
    dsimp only
    rw [herase]
    exact putFile_eq (resolve_plain hname hcurrent₃) hfree₃
  exact run_bind_eq_ok.2 ⟨(), fs₁, hcreate, run_bind_eq_ok.2 ⟨(), fs₂, happend,
    run_bind_eq_ok.2 ⟨(), fs₂, hsync, hrename⟩⟩⟩

/-- A file in the directory where paths start is replaced unless there is a directory in its place
or that of its temporary file. Nothing else changes. -/
theorem run_replace (content : Bytes) (hname : Path.Plain name)
    (htemp : Path.Plain (temporary name fs.tag)) (hcurrent : fs.find? fs.current = some .directory)
    (hfree : fs.find? (name :: fs.current) ≠ some .directory)
    (hfree' : fs.find? (temporary name fs.tag :: fs.current) ≠ some .directory) :
    fs.run (replace name content) = (.ok (),
      (fs.erase (temporary name fs.tag :: fs.current)).put (name :: fs.current)
        (.file content)) := by
  have hne : name ≠ temporary name fs.tag := by
    intro h
    rw [temporary, hname.withFileName, hname.fileName?] at h
    have hlength : name.length = (name ++ ".tmp" ++ fs.tag).length := congrArg String.length h
    have htmp : ".tmp".length = 4 := rfl
    rw [String.length_append, String.length_append, htmp] at hlength
    omega
  have hfill := run_fillAndMove content hname htemp hne hcurrent hfree hfree'
  unfold replace replaceWith
  rw [hname.fileName?, hname.enclosing?]
  exact run_bind_eq_ok.2 ⟨fs.tag, fs, rfl, run_bind_eq_ok.2
    ⟨.ok (), _, congrArg (fun r => (Except.ok r.1, r.2)) hfill, rfl⟩⟩

end Plain

end FileSystem

end NetPack
