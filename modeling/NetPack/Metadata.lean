import NetPack.Options

/-!
# Metadata and presets

What is said about a model: author, licence, description and version. The description is a template
in which the name of the model is filled in. A preset is a name for compile options and metadata
that go together.
-/

namespace NetPack

variable {δ : Type} [Document δ]

/-- Author, licence, description and version. -/
structure Metadata where
  author : String
  license : Option String
  description : String
  version : String
deriving DecidableEq, Inhabited

namespace Metadata

/-- Where the name of the model goes in a description. -/
def placeholder : String := "\x7bmodel\x7d"

/-- The description of a model, with its name filled in. -/
def renderDescription (m : Metadata) (model : String) : String :=
  model.intercalate (m.description.splitOn placeholder)

/-- The metadata of a model, whose name is filled into the description. -/
def describe (m : Metadata) (model : String) : Metadata :=
  { m with description := m.renderDescription model }

/-- The document of metadata. -/
def toJson (m : Metadata) : Json :=
  Json.object ([("author", .string m.author)] ++
    (match m.license with
      | some l => [("license", .string l)]
      | none => []) ++
    [("description", .string m.description), ("version", .string m.version)])

/-- Reads metadata. -/
def read : Decoder δ Metadata := fun d => do
  let r ← Document.record ["author", "license", "description", "version"] d
  return ⟨← r.required "author" Document.string, ← r.optional "license" Document.string,
    ← r.required "description" Document.string, ← r.required "version" Document.string⟩

/-- The metadata of classifiers. -/
def standard : Metadata where
  author := "SteinsAlbum"
  license := some "MIT"
  description := "Image classification model for " ++ placeholder
  version := "1.0"

end Metadata

/-- Options and metadata that go together. -/
inductive Preset where
  /-- A classifier for the neural engine in half precision. -/
  | classifier
  /-- Single precision on all engines, without a licence. -/
  | portable
deriving DecidableEq, Inhabited

namespace Preset

/-- The name used in every text. -/
def name : Preset → String
  | classifier => "classifier"
  | portable => "portable"

/-- The preset of a name. -/
def ofName? (s : String) : Option Preset := [classifier, portable].find? fun p => p.name == s

/-- Reads a name in any mixture of small and capital letters. A name that is not known comes back
in small letters. -/
def parse (s : String) : Except String Preset :=
  let lower := Text.lowercase s
  match ofName? lower with
  | some p => .ok p
  | none => .error lower

/-- Reads the name of a preset. -/
def read : Decoder δ Preset := Document.name ofName? "a preset"

/-- The options of a preset. -/
def options : Preset → CompileOptions
  | classifier => ⟨.iOS15, .cpuAndNeuralEngine, .mlProgram, .float16⟩
  | portable => ⟨.iOS15, .all, .mlProgram, .float32⟩

/-- The metadata of a preset. -/
def metadata : Preset → Metadata
  | classifier => .standard
  | portable => { Metadata.standard with license := none }

end Preset

end NetPack
