/-!
# Errors of file operations
-/

namespace NetPack

/-- Why a file operation fails. -/
inductive FileError where
  /-- There is no file of this name. -/
  | notFound
  /-- A part of the path is no directory. -/
  | notDirectory
  /-- The path names a directory. -/
  | isDirectory
  /-- The path names something already. -/
  | exists
  /-- The contents are no text. -/
  | notText
  /-- Any other reason, in the words of the system. -/
  | other (text : String)
deriving DecidableEq

namespace FileError

/-- The text of an error. -/
def message : FileError → String
  | notFound => "No such file or directory (os error 2)"
  | notDirectory => "Not a directory (os error 20)"
  | isDirectory => "Is a directory (os error 21)"
  | .exists => "File exists (os error 17)"
  | notText => "stream did not contain valid UTF-8"
  | other text => text

end FileError

end NetPack
