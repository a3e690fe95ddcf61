import NetPack.Convert.Error
import NetPack.Files.Store
import NetPack.Url.Parse

/-!
# Sources of weights

Weights are in a file that is there already, or behind an address and to be stored in a file. A file
that is there is not fetched again.
-/

namespace NetPack

/-- Where weights come from. -/
inductive WeightSource where
  /-- A file. -/
  | present (path : String)
  /-- An address, and the file that its contents go to. -/
  | remote (url : Url) (path : String)
deriving DecidableEq

namespace WeightSource

/-- The file that the weights end up in. -/
def path : WeightSource → String
  | present path => path
  | remote _ path => path

/-- Reads an address. -/
def address (text : String) : Except ConfigError Url :=
  match Url.parse? text with
  | some u => .ok u
  | none => .error (.url text)

/-- The weights behind an address, stored at a path. The address is one of the web. -/
def atPath (text path : String) : Except ConfigError WeightSource := do
  let u ← address text
  if ["http", "https"].contains u.scheme then return remote u path
  else throw (.scheme u.scheme u.render)

/-- The weights behind an address, stored in a directory under the name in the address. -/
def inDirectory (text directory : String) : Except ConfigError WeightSource := do
  let u ← address text
  let some name := u.fileName? | throw (.noFileName text)
  atPath text (Path.join directory name)

variable {m : Type → Type} [Monad m] [FileStore m]

/-- The file with the weights. Nothing is transferred: a file that is missing is an error. -/
def fetch (source : WeightSource) : ExceptT ConvertError m String := do
  if ← (FileStore.isFile source.path : m Bool) then return source.path
  else
    match source with
    | present path => throw (.file path .notFound)
    | remote _ path => throw (.file path (.other "the file cannot be transferred"))

end WeightSource

end NetPack
