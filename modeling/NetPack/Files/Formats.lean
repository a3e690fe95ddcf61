import NetPack.Artifact.Codec
import NetPack.Exchange.Lift
import NetPack.Exchange.Lower
import NetPack.Files.Replace
import NetPack.Model.Basic

/-!
# Files of each format

Reading and writing the files of a conversion: checkpoints, bundles, artifacts, exchange files and
labels. A checkpoint is a directory with a manifest and a container of weights, of which only those
are read that the manifest lists. Bundles are written in place, artifacts and exchange files are
replaced as a whole.
-/

namespace NetPack

open FileStore

variable {m : Type → Type} [Monad m] [FileStore m]

/-- A result as a computation on files. -/
def ofResult {ε α : Type} (r : Except ε α) : ExceptT ε m α := ExceptT.mk (pure r)

/-- The contents of a file, whose failure is an error of a model. -/
def modelBytes (path : String) : ExceptT ModelError m Bytes :=
  ExceptT.adapt (.file path) (bytes path)

namespace SequentialModel

/-- The name of the manifest in a checkpoint. -/
def manifestFile : String := "model.json"

/-- The name of the container of weights in a checkpoint. -/
def weightsFile : String := "model.safetensors"

/-- The weight of a name in a container. -/
def weightOf (ix : Container.Index) (name : String) : Except ModelError (Tensor Binary32) := do
  let some entry := ix.entries.lookup name | throw (.weightNotFound name)
  match entry.dtype with
  | .error cause => throw (.container cause)
  | .ok dtype =>
    match Tensor.ofBytes entry.shape dtype (ix.bytesOf entry) with
    | .error cause => throw (.layer name (.tensor cause))
    | .ok t => return t

/-- The weights that a manifest lists, from the container at a path. -/
def weightsOf (manifest : Manifest) (path : String) (container : Bytes) :
    Except ModelError (Table (Tensor Binary32)) := do
  match Container.index container with
  | .error cause => throw (.container (.inFile path cause))
  | .ok ix =>
    (manifest.layers.flatMap (·.weights)).foldlM (fun weights name => do
      if weights.contains name then return weights
      return weights.insert name (← weightOf ix name)) Table.empty

/-- Loads the model of a checkpoint. -/
def load (directory : String) : ExceptT ModelError m (SequentialModel Binary32) := do
  let manifestPath := Path.join directory manifestFile
  let weightsPath := Path.join directory weightsFile
  let contents ← ExceptT.adapt (.file manifestPath) (text manifestPath)
  let manifest ← ofResult (Manifest.parse contents)
  ofResult manifest.validate
  let weights ← ofResult (weightsOf manifest weightsPath (← modelBytes weightsPath))
  ofResult (build manifest weights)

end SequentialModel

namespace Bundle

/-- Writes a bundle. The directories on the way are made. -/
def write (g : Graph Binary32) (path : String) : ExceptT ModelError m Unit :=
  ExceptT.adapt (.file path) do
    if let some directory := Path.enclosing? path then
      step (.createDirectories directory)
    step (.create path)
    step (.append path (encode g))

/-- Loads and checks a bundle. -/
def load (path : String) : ExceptT (Fault ModelError) m (Graph Binary32) := do
  let contents ← ExceptT.adapt .reported (modelBytes path)
  ofResult do
    let g ← decode contents
    g.validate

end Bundle

namespace Artifact

/-- Writes an artifact. -/
def save (a : Artifact) (path : String) : ExceptT ConvertError m Unit := replace path a.encode

/-- Loads an artifact. -/
def load (path : String) : ExceptT (Fault ConvertError) m Artifact := do
  ofResult (decode (← ExceptT.adapt (fun cause => .reported (.ofModel cause)) (modelBytes path)))

end Artifact

namespace Labels

/-- Loads labels, one per line. -/
def load (path : String) : ExceptT ConvertError m Labels := do
  return parse (← reporting path (text path))

end Labels

namespace Exchange

/-- Writes a graph as an exchange file. -/
def write (g : NetPack.Graph Binary32) (path : String) : ExceptT ConvertError m Unit :=
  replace path (encodeGraph g)

/-- Loads and checks an exchange file. -/
def load (path : String) (batch : Nat) :
    ExceptT (Fault ConvertError) m (NetPack.Graph Binary32 × Report) := do
  ofResult (validate (← ExceptT.adapt .reported (reporting path (bytes path))) batch)

end Exchange

end NetPack
