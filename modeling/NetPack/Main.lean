import NetPack.CommandLine.Run

/-!
# The program

Runs a command on the files of the machine.
-/

namespace NetPack

namespace Main

/-- An error of the machine as an error of a file. -/
def fileError : IO.Error → FileError
  | .noFileOrDirectory .. => .notFound
  | .alreadyExists .. => .exists
  | .inappropriateType .. => .notDirectory
  | e => .other (toString e)

/-- The result of an action, with errors as values. -/
def settled {α : Type} (x : IO α) : IO (Except FileError α) := do
  match ← x.toBaseIO with
  | .ok a => return .ok a
  | .error e => return .error (fileError e)

/-- The action of a step. -/
def action : FileStep → IO Unit
  | .createDirectories path => IO.FS.createDirAll path
  | .create path => IO.FS.writeBinFile path ByteArray.empty
  | .append path bytes => do
    let file ← IO.FS.Handle.mk path .append
    file.write ⟨bytes.toArray⟩
  | .sync path => do
    let file ← IO.FS.Handle.mk path .append
    file.flush
  | .rename source target => IO.FS.rename source target
  | .remove path => IO.FS.removeFile path

/-- Can a byte be read behind the path, or the end of a file? -/
def opens (path : String) : IO Bool := do
  let file ← IO.FS.Handle.mk path .read
  let _ ← file.read 1
  return true

/-- Numbers from zero up to one for synthetic inputs. -/
instance : NumberSource where
  number i := .ofNat ((i * 7919 + 104729) % 65521) / .ofNat 65536

instance : FileStore IO where
  perform step := settled (action step)
  read path := settled do return (← IO.FS.readBinFile path).data.toList
  isFile path := do return (← settled (opens path)).toOption.getD false
  tag := do return toString (← IO.monoNanosNow)

end Main

end NetPack

/-- Runs the command that the arguments ask for. -/
def main (arguments : List String) : IO UInt32 := do
  let report : NetPack.CommandLine.Report ← NetPack.CommandLine.run arguments
  (← IO.getStdout).putStr report.printed
  (← IO.getStderr).putStr report.errors
  return report.code.toUInt32
