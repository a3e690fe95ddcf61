/-!
# Paths

A path is a text whose parts are separated by slashes. Empty parts and parts that are a single point
do not count, except a point at the very start. Functions on paths work on the text alone; no file
has to exist.
-/

namespace NetPack

namespace Path

/-- The parts of a path, innermost first, without those at its end that do not count. The first part
of a path stays in any case; it is empty where the path starts at the root. -/
def trimmed : List String → List String
  | [first] => [first]
  | part :: rest => if part = "" || part = "." then trimmed rest else part :: rest
  | [] => []

/-- The parts of a path, innermost first. -/
def parts (path : String) : List String := trimmed (path.splitOn "/").reverse

/-- The path of parts, innermost first. -/
def ofParts (ps : List String) : String :=
  match ps with
  | [""] => "/"
  | _ => "/".intercalate ps.reverse

/-- Does the path start at the root? -/
def isAbsolute (path : String) : Bool := path.startsWith "/"

/-- The name of the file that a path leads to. -/
def fileName? (path : String) : Option String :=
  match parts path with
  | name :: _ => if ["", ".", ".."].contains name then none else some name
  | [] => none

/-- The directory that holds what a path leads to. It is empty for a path of one part, and the root
and the empty path have none. -/
def parent? (path : String) : Option String :=
  match parts path with
  | [] => none
  | [part] => if part = "" then none else some ""
  | _ :: rest => some (ofParts (trimmed rest))

/-- The directory that holds what a path leads to, if the path names one. -/
def enclosing? (path : String) : Option String := (parent? path).filter fun d => d ≠ ""

/-- The path of something in a directory. -/
def join (directory path : String) : String :=
  if isAbsolute path || directory = "" then path
  else if directory.endsWith "/" then directory ++ path
  else directory ++ "/" ++ path

/-- The path with another file name. -/
def withFileName (path name : String) : String :=
  match fileName? path, parent? path with
  | some _, some directory => join directory name
  | _, _ => join path name

/-- A file name without its extension. A point at the start starts no extension. -/
def stem (name : String) : String :=
  match (name.splitOn ".").reverse with
  | _ :: before =>
    let s := ".".intercalate before.reverse
    if s = "" then name else s
  | [] => name

/-- The path with another extension. A path without a file name stays as it is. Where nothing but
two points would be left in front of the new extension, they name the directory above and get
none. -/
def withExtension (path extension : String) : String :=
  match parts path, fileName? path with
  | _ :: rest, some name =>
    let s := stem name
    let renamed := if s = "." && path.endsWith name then ".." else s ++ "." ++ extension
    "/".intercalate (rest.reverse ++ [renamed])
  | _, _ => path

end Path

end NetPack
