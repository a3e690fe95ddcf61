import NetPack.Bytes
import NetPack.Files.Error
import NetPack.Files.Path

/-!
# Working with files

Changes to files are made of steps, each of which happens as a whole or fails. A `FileStore` is a
monad that performs such steps and reads files, whatever the files really are. Everything that works
with files is written for any `FileStore`.
-/

namespace NetPack

/-- A step of a change to files. -/
inductive FileStep where
  /-- Makes a directory and those that hold it, as far as they are missing. -/
  | createDirectories (path : String)
  /-- Makes an empty file, in place of one that is there. -/
  | create (path : String)
  /-- Adds bytes at the end of a file. -/
  | append (path : String) (bytes : Bytes)
  /-- Waits until a file is stored for good. -/
  | sync (path : String)
  /-- Moves a file, in place of one that is there. -/
  | rename (source target : String)
  /-- Removes a file. -/
  | remove (path : String)
deriving DecidableEq

/-- Monads that work with files. -/
class FileStore (m : Type → Type) where
  /-- Performs a step. -/
  perform : FileStep → m (Except FileError Unit)
  /-- The contents of a file. -/
  read : String → m (Except FileError Bytes)
  /-- Does a path lead to a file? -/
  isFile : String → m Bool
  /-- What tells the temporary files of this run from those of others. -/
  tag : m String

namespace FileStore

variable {m : Type → Type} [FileStore m]

/-- Performs a step; its failure ends the computation. -/
def step (s : FileStep) : ExceptT FileError m Unit := ExceptT.mk (perform s)

/-- The contents of a file; a failure ends the computation. -/
def bytes (path : String) : ExceptT FileError m Bytes := ExceptT.mk (read path)

/-- The text in a file. -/
def text [Monad m] (path : String) : ExceptT FileError m String := do
  match Bytes.toString? (← bytes path) with
  | some s => return s
  | none => throw .notText

end FileStore

end NetPack
