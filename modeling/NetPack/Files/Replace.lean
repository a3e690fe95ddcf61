import NetPack.Convert.Error
import NetPack.Files.Store

/-!
# Replacing files as a whole

A file is written under a temporary name beside its destination and then moved there, so that the
destination holds its old content or all of the new one and nothing in between. A write that fails
removes the temporary file.
-/

namespace NetPack

namespace FileStore

variable {m : Type → Type} [Monad m] [FileStore m]

/-- A computation on files whose failure is reported for a path. -/
def reporting {α : Type} (path : String) (x : ExceptT FileError m α) :
    ExceptT ConvertError m α :=
  ExceptT.adapt (.file path) x

/-- The name of the temporary file of a destination. -/
def temporary (path tag : String) : String :=
  Path.withFileName path ((Path.fileName? path).getD "" ++ ".tmp" ++ tag)

/-- Fills a temporary file and moves it to its destination. -/
def fillAndMove (path temp : String)
    (fill : (Bytes → ExceptT FileError m Unit) → ExceptT FileError m Unit) :
    ExceptT FileError m Unit := do
  step (.create temp)
  fill fun bytes => step (.append temp bytes)
  step (.sync temp)
  step (.rename temp path)

/-- Replaces a file by what `fill` writes. The directories on the way are made. -/
def replaceWith (path : String)
    (fill : (Bytes → ExceptT FileError m Unit) → ExceptT FileError m Unit) :
    ExceptT ConvertError m Unit := do
  if (Path.fileName? path).isNone then throw (.precondition (.notFile path))
  if let some directory := Path.enclosing? path then
    reporting directory (step (.createDirectories directory))
  let temp := temporary path (← (tag : m String))
  match ← (fillAndMove path temp fill).run with
  | .ok () => return
  | .error cause =>
    let _ ← (perform (.remove temp) : m (Except FileError Unit))
    throw (.file path cause)

/-- Replaces a file by the given bytes. -/
def replace (path : String) (bytes : Bytes) : ExceptT ConvertError m Unit :=
  replaceWith path fun write => write bytes

end FileStore

end NetPack
