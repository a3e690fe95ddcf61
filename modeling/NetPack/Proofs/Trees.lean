import NetPack.Proofs.Frames

/-!
# File systems that are trees

In a tree everything lies in a directory (`FileSystem.WellFormed`), and steps keep it one
(`FileSystem.WellFormed.perform`). All that steps do to a tree is said by `FileSystem.Grown`: paths
lead to the same places as before, and the directories stay.

A path can pass places that do not hold the one where it leads, because it goes back. It is steady
if it goes back only from directories that are there (`FileSystem.Steady`). Then every place on its
way is a directory or holds the place where it leads (`FileSystem.SteadyFrom.way`), so directories
are only made where they are to hold a file (`FileSystem.Steady.missingIn`).
-/

namespace NetPack

namespace FileSystem

open FileStore

variable {fs fs' base : FileSystem} {path : String} {place q : Location} {parts : List String}
  {content : Bytes}

/-! ### Trees -/

/-- What is there lies in a directory, paths start in a directory, and what tells temporary files
apart is part of a name. -/
structure WellFormed (fs : FileSystem) : Prop where
  current : fs.find? fs.current = some .directory
  parent : ∀ part place, fs.find? (part :: place) ≠ none → fs.find? place = some .directory
  tag : '/' ∉ fs.tag.toList

/-- A place lies in a directory, unless it is the root. -/
def Held (fs : FileSystem) (place : Location) : Prop :=
  ∀ part rest, place = part :: rest → fs.find? rest = some .directory

theorem WellFormed.held (h : fs.WellFormed) (hplace : fs.find? place ≠ none) : fs.Held place := by
  rintro part rest rfl
  exact h.parent part rest hplace

/-- Whatever holds a directory is a directory. -/
theorem WellFormed.directory_of_suffix (h : fs.WellFormed)
    (hplace : fs.find? place = some .directory) (hq : q <:+ place) :
    fs.find? q = some .directory := by
  induction place with
  | nil => rwa [List.suffix_nil.1 hq]
  | cons part place ih =>
    rcases List.suffix_cons_iff.1 hq with rfl | hq
    · exact hplace
    · exact ih (h.parent part place (by simp [hplace])) hq

/-! ### What steps do to trees -/

theorem WellFormed.put (h : fs.WellFormed) (hplace : fs.find? place ≠ some .directory)
    (hheld : fs.Held place) (node : FileNode) : (fs.put place node).WellFormed where
  current := find?_put_of_directory hplace node h.current
  tag := h.tag
  parent part rest hfound := by
    by_cases hself : part :: rest = place
    · exact find?_put_of_directory hplace node (hheld part rest hself.symm)
    · rw [find?_put_of_ne hself] at hfound
      exact find?_put_of_directory hplace node (h.parent part rest hfound)

theorem WellFormed.erase (h : fs.WellFormed) (hplace : fs.find? place ≠ some .directory) :
    (fs.erase place).WellFormed := by
  have hkept : ∀ other, fs.find? other = some .directory →
      (fs.erase place).find? other = some .directory := by
    intro other hother
    have hne : other ≠ place := by
      rintro rfl
      exact hplace hother
    rw [find?_erase_of_ne hne, hother]
  refine ⟨hkept _ h.current, fun part rest hfound => hkept _ (h.parent part rest ?_), h.tag⟩
  by_cases hself : part :: rest = place
  · subst hself
    rw [find?_erase_self (by simp)] at hfound
    exact absurd rfl hfound
  · rwa [find?_erase_of_ne hself] at hfound

theorem WellFormed.held_of_walk {next : Location} {part : String} (h : fs.WellFormed)
    (hnext : fs.walk place part = .ok next) : fs.Held next := by
  have hplace := find?_of_walk hnext
  rw [← along_of_walk hnext]
  unfold along
  split
  · exact h.held (by simp [hplace])
  · split
    · refine h.held ?_
      rw [h.directory_of_suffix hplace (List.drop_suffix 1 place)]
      simp
    · rintro _ _ ⟨⟩
      exact hplace

theorem WellFormed.held_of_resolve (h : fs.WellFormed) (hplace : fs.resolve path = .ok place) :
    fs.Held place := by
  have hstart : fs.Held (fs.startOf path) := by
    unfold startOf
    split
    · rintro _ _ ⟨⟩
    · exact h.held (by simp [h.current])
  exact Outcome.of_foldlM (fun _ _ _ _ _ hnext => h.held_of_walk hnext) hstart
    (resolve_eq_ok.1 hplace).2

theorem WellFormed.putFile (h : fs.WellFormed) (hput : fs.putFile path content = .ok fs') :
    fs'.WellFormed := by
  obtain ⟨place, hplace, hput⟩ := Outcome.bind_eq_ok.1 hput
  split at hput
  · cases hput
  · rename_i hfile
    obtain rfl := Outcome.pure_eq_ok_iff.1 hput
    exact h.put (fun hdirectory => hfile hdirectory) (h.held_of_resolve hplace) _

theorem WellFormed.attempt {r : Except FileError FileSystem} (h : fs.WellFormed)
    (hr : ∀ fs₁, r = .ok fs₁ → fs₁.WellFormed) : (fs.attempt r).2.WellFormed := by
  cases r with
  | error e => exact h
  | ok fs₁ => exact hr fs₁ rfl

theorem WellFormed.createAlong (h : fs.WellFormed) (missing : Bool) (place : Location)
    (parts : List String) : (fs.createAlong missing place parts).2.WellFormed := by
  induction parts generalizing fs missing place with
  | nil => exact h
  | cons part parts ih =>
    rw [FileSystem.createAlong]
    split
    · exact h
    · rename_i next hnext
      split
      · exact ih h _ _
      · exact h
      · exact ih (h.put (by simp [*]) (h.held_of_walk hnext) _) _ _

/-- **A tree stays a tree in every step.** -/
theorem WellFormed.perform (h : fs.WellFormed) (s : FileStep) : (fs.perform s).2.WellFormed := by
  cases s with
  | createDirectories path =>
    rcases perform_createDirectories path with ⟨r, -, hsettled⟩ | halong
    · rw [hsettled]
      exact h
    · rw [halong]
      exact h.createAlong _ _ _
  | create path => exact h.attempt fun fs₁ h₁ => h.putFile h₁
  | append path bytes =>
    refine h.attempt fun fs₁ h₁ => ?_
    obtain ⟨⟨place, content⟩, hfile, h₁⟩ := Outcome.bind_eq_ok.1 h₁
    obtain rfl := Outcome.pure_eq_ok_iff.1 h₁
    have hplace := (not_directory_of_resolveFile hfile).1
    exact h.put hplace (h.held_of_resolve (resolveFile_eq_ok.1 hfile).1) _
  | sync path =>
    refine h.attempt fun fs₁ h₁ => ?_
    obtain ⟨_, -, h₁⟩ := Outcome.bind_eq_ok.1 h₁
    obtain rfl := Outcome.pure_eq_ok_iff.1 h₁
    exact h
  | rename source target =>
    refine h.attempt fun fs₁ h₁ => ?_
    obtain ⟨⟨place, content⟩, hfile, h₁⟩ := Outcome.bind_eq_ok.1 h₁
    exact (h.erase (not_directory_of_resolveFile hfile).1).putFile h₁
  | remove path =>
    refine h.attempt fun fs₁ h₁ => ?_
    obtain ⟨⟨place, content⟩, hfile, h₁⟩ := Outcome.bind_eq_ok.1 h₁
    obtain rfl := Outcome.pure_eq_ok_iff.1 h₁
    exact h.erase (not_directory_of_resolveFile hfile).1

/-- A file system that came from another one by steps: it is a tree, paths start at the same place,
and the directories are still there. -/
structure Grown (base fs : FileSystem) : Prop where
  wellFormed : fs.WellFormed
  current : fs.current = base.current
  tag : fs.tag = base.tag
  directories : ∀ place, base.find? place = some .directory → fs.find? place = some .directory

theorem Grown.refl (h : base.WellFormed) : Grown base base := ⟨h, rfl, rfl, fun _ h => h⟩

theorem Grown.startOf (h : Grown base fs) (path : String) :
    fs.startOf path = base.startOf path := by
  rw [FileSystem.startOf, FileSystem.startOf, h.current]

theorem Grown.destination (h : Grown base fs) (path : String) :
    fs.destination path = base.destination path := by
  rw [FileSystem.destination, FileSystem.destination, h.startOf]

theorem Grown.perform (h : Grown base fs) (s : FileStep) : Grown base (fs.perform s).2 := by
  have hchanges : Changes (fun _ => True) (fun _ => True) fs (fs.perform s).2 :=
    changes_perform (fun _ _ => trivial) fun _ _ _ _ => .inr trivial
  exact ⟨h.wellFormed.perform s, hchanges.current.trans h.current, hchanges.tag.trans h.tag,
    fun place hplace => hchanges.directories place (h.directories place hplace)⟩

theorem keeps_grown (base : FileSystem) (path : String) (bytes : Bytes) :
    Keeps (Grown base) (replace path bytes : ExceptT ConvertError (StateM FileSystem) Unit) :=
  keeps_replace (fun _ h => h.tag) fun s _ _ h => h.perform s

/-! ### Paths that do not wander off -/

/-- Wherever one of the parts is special, the place is a directory. -/
def SteadyFrom (fs : FileSystem) (special : String → Prop) (place : Location) :
    List String → Prop
  | [] => True
  | part :: parts =>
    (special part → fs.find? place = some .directory) ∧
      fs.SteadyFrom special (along place part) parts

/-- Wherever a part of the path is special, it comes after directories that are there. -/
def Steady (fs : FileSystem) (special : String → Prop) (path : String) : Prop :=
  fs.SteadyFrom special (fs.startOf path) (path.splitOn "/")

/-- A part that leads back to the directory above. -/
def Upwards (part : String) : Prop := part = ".."

/-- A part that leads back or is too long for a name. -/
def Unnamable (part : String) : Prop := part = ".." ∨ maxName < part.utf8ByteSize

section Steady

variable {special : String → Prop}

/-- Directories that are there stay. -/
theorem SteadyFrom.grown (h : base.SteadyFrom special place parts) (hgrown : Grown base fs) :
    fs.SteadyFrom special place parts := by
  induction parts generalizing place with
  | nil => trivial
  | cons part parts ih => exact ⟨fun hpart => hgrown.directories place (h.1 hpart), ih h.2⟩

theorem Steady.grown (h : base.Steady special path) (hgrown : Grown base fs) :
    fs.Steady special path := by
  rw [Steady, hgrown.startOf]
  exact SteadyFrom.grown h hgrown

/-- A path without special parts is steady wherever it starts. -/
theorem Steady.of_parts (h : ∀ part ∈ path.splitOn "/", ¬special part) :
    fs.Steady special path := by
  unfold Steady
  generalize fs.startOf path = place
  generalize path.splitOn "/" = parts at h
  induction parts generalizing place with
  | nil => trivial
  | cons part parts ih =>
    obtain ⟨hpart, hparts⟩ := List.forall_mem_cons.1 h
    exact ⟨fun hspecial => absurd hspecial hpart, ih _ hparts⟩

theorem Steady.of_plain (h : Path.Plain path) (hspecial : ∀ part, special part → Unnamable part) :
    fs.Steady special path := by
  refine Steady.of_parts ?_
  rw [h.splitOn, List.forall_mem_singleton]
  intro hpart
  rcases hspecial path hpart with hup | hlong
  · exact h.ne.2.2 hup
  · exact Nat.not_lt.2 h.short hlong

theorem steadyFrom_append {parts' : List String} :
    fs.SteadyFrom special place (parts ++ parts') ↔
      fs.SteadyFrom special place parts ∧
        fs.SteadyFrom special (parts.foldl along place) parts' := by
  induction parts generalizing place with
  | nil => simp [SteadyFrom]
  | cons part parts ih => simp [SteadyFrom, ih, and_assoc]

/-- **A steady path passes directories that are there and what holds the place where it leads.** -/
theorem SteadyFrom.suffix (h : fs.SteadyFrom special place parts) (hfs : fs.WellFormed)
    (hup : special "..") :
    fs.find? place = some .directory ∨ place <:+ parts.foldl along place := by
  induction parts generalizing place with
  | nil => exact .inr (List.suffix_refl place)
  | cons part parts ih =>
    have hnext := ih h.2
    rw [List.foldl_cons]
    by_cases hpart : part = ".."
    · exact .inl (h.1 (hpart ▸ hup))
    · -- The part leads nowhere or one level down.
      have hbelow : place <:+ along place part := by
        unfold along
        rw [if_neg hpart]
        split
        · exact List.suffix_refl place
        · exact List.suffix_cons part place
      exact hnext.imp (fun hdirectory => hfs.directory_of_suffix hdirectory hbelow)
        hbelow.trans

theorem SteadyFrom.way (h : fs.SteadyFrom special place parts) (hfs : fs.WellFormed)
    (hup : special "..") (hq : q ∈ way place parts) :
    fs.find? q = some .directory ∨ q <:+ parts.foldl along place := by
  induction parts generalizing place with
  | nil =>
    obtain rfl := List.mem_singleton.1 hq
    exact .inr (List.suffix_refl q)
  | cons part parts ih =>
    rcases List.mem_cons.1 hq with rfl | hq
    · exact h.suffix hfs hup
    · exact ih h.2 hq

end Steady

/-! ### The way to a file -/

theorem end_mem_way (place : Location) (parts : List String) :
    parts.foldl along place ∈ way place parts := by
  induction parts generalizing place with
  | nil => exact List.mem_singleton_self place
  | cons part parts ih => exact List.mem_cons_of_mem _ (ih _)

theorem mem_way_idle (h : ∀ p ∈ parts, Path.Idle p) (hq : q ∈ way place parts) : q = place := by
  induction parts with
  | nil => exact List.mem_singleton.1 hq
  | cons part parts ih =>
    rw [FileSystem.way, along_idle (h part List.mem_cons_self), List.mem_cons] at hq
    exact hq.elim id (ih fun p hp => h p (List.mem_cons_of_mem _ hp))

/-- On the way to a file there are the directories in front of its name and the file. -/
theorem mem_way_layout (l : Path.Layout path)
    (hq : q ∈ way (fs.startOf path) (path.splitOn "/")) :
    q ∈ way (fs.startOf path) l.base ∨ q = fs.destination path := by
  have hholder : fs.holder l ∈ way (fs.startOf path) l.base := end_mem_way _ _
  rw [l.parts, mem_way_append, mem_way_append, List.foldl_append, foldl_along_idle l.idle_inner]
    at hq
  rcases hq with (hq | hq) | hq
  · exact .inl hq
  · exact .inl (mem_way_idle l.idle_inner hq ▸ hholder)
  · rw [FileSystem.way, List.mem_cons, along_name l.proper] at hq
    rcases hq with rfl | hq
    · exact .inl hholder
    · rw [destination_layout l]
      exact .inr (mem_way_idle l.idle_outer hq)

theorem mem_way_temporary (l : Path.Layout path) {tag : String} (htag : '/' ∉ tag.toList)
    (hq : q ∈ way (fs.startOf (temporary path tag)) ((temporary path tag).splitOn "/")) :
    q ∈ way (fs.startOf path) l.base ∨ q = fs.destination (temporary path tag) := by
  have hholder : fs.holder l ∈ way (fs.startOf path) l.base := end_mem_way _ _
  rw [splitOn_temporary l htag, startOf_temporary l htag, mem_way_append] at hq
  rcases hq with hq | hq
  · exact .inl hq
  · rw [way, along_name (temporary_proper l.name tag), way, List.mem_cons, List.mem_singleton] at hq
    rw [destination_temporary l htag]
    rcases hq with rfl | hq
    · exact .inl hholder
    · exact .inr hq

/-- In front of its name a steady path passes directories that are there and what is to hold the
file. -/
theorem Steady.way_base (h : fs.Steady Upwards path) (hfs : fs.WellFormed) (l : Path.Layout path)
    (hq : q ∈ way (fs.startOf path) l.base) :
    fs.find? q = some .directory ∨ q <:+ fs.destination path := by
  rw [Steady, l.parts, List.append_assoc, steadyFrom_append] at h
  rw [destination_layout l]
  exact (h.1.way hfs rfl hq).imp_right fun hsuffix => hsuffix.trans (List.suffix_cons _ _)

/-- The way to the directory that holds a file. -/
theorem mem_way_enclosing (l : Path.Layout path) {directory : String}
    (h : Path.enclosing? path = some directory) :
    q ∈ way (fs.startOf directory) (directory.splitOn "/") ↔ q ∈ way (fs.startOf path) l.base := by
  rcases l.enclosing_cases with ⟨-, hnone⟩ | ⟨found, idle, hbase, hsome, hne, hsplit, hidle⟩
  · rw [hnone] at h
    cases h
  · obtain rfl : found = directory := Option.some.inj (hsome.symm.trans h)
    have hstart : fs.startOf found = fs.startOf path := by
      rw [startOf, startOf, l.isAbsolute_of_base hne hsplit fun h => absurd h hbase]
    rw [hsplit, hstart, mem_way_append]
    refine ⟨fun hq => hq.elim id fun hq => ?_, .inl⟩
    exact mem_way_idle hidle hq ▸ end_mem_way _ _

/-- **Along a steady path, directories are missing only where they are to hold the file.** -/
theorem Steady.missingIn (hfs : fs.WellFormed) (h : fs.Steady Upwards path) {directory : String}
    (hname : (Path.fileName? path).isSome) (henclosing : Path.enclosing? path = some directory) :
    fs.MissingIn (· <:+ fs.destination path) directory := by
  obtain ⟨l⟩ := Path.exists_layout hname
  intro q hq
  rw [mem_way_enclosing l henclosing] at hq
  exact h.way_base hfs l hq

end FileSystem

end NetPack
