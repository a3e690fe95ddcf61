import NetPack.Files.Store

/-!
# Files in memory

A `FileSystem` is a tree of directories and files as a plain value. Every step on it is a function:
it gives the next file system and says whether the step failed.
-/

namespace NetPack

/-- Where something is: the names on the way from the root, innermost first. -/
abbrev Location := List String

/-- What is at a location. -/
inductive FileNode where
  | directory
  | file (content : Bytes)
deriving DecidableEq

/-- A tree of directories and files. -/
structure FileSystem where
  /-- Everything below the root. -/
  nodes : List (Location × FileNode)
  /-- Where paths start that do not start at the root. -/
  current : Location
  /-- What tells temporary files from those of others. -/
  tag : String

namespace FileSystem

/-- The empty file system. -/
def empty (tag : String) : FileSystem := ⟨[], [], tag⟩

/-- What is at a location. -/
def find? (fs : FileSystem) (place : Location) : Option FileNode :=
  match place with
  | [] => some .directory
  | _ => fs.nodes.lookup place

/-- Removes what is at a location. -/
def erase (fs : FileSystem) (place : Location) : FileSystem :=
  { fs with nodes := fs.nodes.filter fun n => n.1 != place }

/-- Puts something at a location. -/
def put (fs : FileSystem) (place : Location) (node : FileNode) : FileSystem :=
  { fs with nodes := (place, node) :: (fs.erase place).nodes }

/-- The longest name, in bytes. -/
def maxName : Nat := 255

/-- The longest path, in bytes. -/
def maxPath : Nat := 4095

/-- What a name or a path that is too long leads to. -/
def tooLong : FileError := .other "File name too long (os error 36)"

/-- What a path with a zero byte leads to, whatever is there. -/
def zeroByte : FileError := .other "file name contained an unexpected NUL byte"

/-- Goes from a directory along one part of a path. -/
def walk (fs : FileSystem) (place : Location) (part : String) : Except FileError Location :=
  match fs.find? place with
  | none => .error .notFound
  | some (.file _) => .error .notDirectory
  | some .directory =>
    if part = "" || part = "." then .ok place
    else if part = ".." then .ok (place.drop 1)
    else if maxName < part.utf8ByteSize then .error tooLong
    else .ok (part :: place)

/-- Where a path starts. -/
def startOf (fs : FileSystem) (path : String) : Location :=
  if Path.isAbsolute path then [] else fs.current

/-- Where a path leads to. All but its last part have to be there. -/
def resolve (fs : FileSystem) (path : String) : Except FileError Location :=
  if path = "" then .error .notFound
  else if path.contains (Char.ofNat 0) then .error zeroByte
  else if maxPath < path.utf8ByteSize then .error tooLong
  else (path.splitOn "/").foldlM fs.walk (fs.startOf path)

/-- Where a path leads to a file. -/
def resolveFile (fs : FileSystem) (path : String) : Except FileError (Location × Bytes) := do
  let place ← fs.resolve path
  match fs.find? place with
  | some (.file content) => return (place, content)
  | some .directory => throw .isDirectory
  | none => throw .notFound

/-- The contents of a file. -/
def read (fs : FileSystem) (path : String) : Except FileError Bytes :=
  (·.2) <$> fs.resolveFile path

/-- Does a path lead to a file? -/
def isFile (fs : FileSystem) (path : String) : Bool := (fs.resolveFile path).isOk

/-- Puts a file where a path leads to, which is no directory. -/
def putFile (fs : FileSystem) (path : String) (content : Bytes) :
    Except FileError FileSystem := do
  let place ← fs.resolve path
  match fs.find? place with
  | some .directory => throw .isDirectory
  | _ => return fs.put place (.file content)

/-- What a file leads to where a directory is needed, with the parts behind it. There is no way on
from it. But where a directory was missing all others are made one at a time, and then the file is
where the next one should be. -/
def inTheWay (missing : Bool) (parts : List String) : FileError :=
  if missing || parts.all (· = "") then .exists else .notDirectory

/-- Makes the directories along the parts of a path, of which one was missing already or none. What
was made before a failure stays. -/
def createAlong (fs : FileSystem) (missing : Bool) (place : Location) :
    List String → Except FileError Unit × FileSystem
  | [] => (.ok (), fs)
  | part :: parts =>
    match fs.walk place part with
    | .error e => (.error e, fs)
    | .ok next =>
      match fs.find? next with
      | some .directory => fs.createAlong missing next parts
      | some (.file _) => (.error (inTheWay missing parts), fs)
      | none => (fs.put next .directory).createAlong true next parts

/-- A step that changes nothing when it fails. -/
def attempt (fs : FileSystem) (r : Except FileError FileSystem) :
    Except FileError Unit × FileSystem :=
  match r with
  | .ok fs => (.ok (), fs)
  | .error e => (.error e, fs)

/-- Performs a step. -/
def perform (fs : FileSystem) : FileStep → Except FileError Unit × FileSystem
  | .createDirectories path =>
    if path = "" then (.ok (), fs)
    else if path.contains (Char.ofNat 0) then (.error zeroByte, fs)
    else if maxPath < path.utf8ByteSize then (.error tooLong, fs)
    else fs.createAlong false (fs.startOf path) (path.splitOn "/")
  | .create path => fs.attempt (fs.putFile path [])
  | .append path bytes => fs.attempt do
    let (place, content) ← fs.resolveFile path
    return fs.put place (.file (content ++ bytes))
  | .sync path => fs.attempt do
    let _ ← fs.resolveFile path
    return fs
  | .rename source target => fs.attempt do
    let (place, content) ← fs.resolveFile source
    (fs.erase place).putFile target content
  | .remove path => fs.attempt do
    let (place, _) ← fs.resolveFile path
    return fs.erase place

instance : FileStore (StateM FileSystem) where
  perform s := fun fs => fs.perform s
  read path := fun fs => (fs.read path, fs)
  isFile path := fun fs => (fs.isFile path, fs)
  tag := fun fs => (fs.tag, fs)

end FileSystem

end NetPack
