import NetPack.Config.Read
import NetPack.Toml.Writer

/-!
# Writing batch configurations

The TOML document of a configuration has all that a configuration says; what is left open is left
out. Statistics are written in double precision, which holds them exactly.
-/

namespace NetPack

namespace Toml

/-- An array of texts. -/
def strings (ss : List String) : Toml := array (ss.map string)

/-- An array of single-precision numbers. -/
def singles (xs : List Binary32) : Toml := array (xs.map fun x => float x.toFloat)

/-- An array of numbers, if they all are integers of the format. -/
def naturals (ns : List Nat) : Except ConfigError Toml :=
  match ns.find? (maxInteger < ·) with
  | some _ => .error .unwritable
  | none => .ok (array (ns.map fun n => integer (Int.ofNat n)))

/-- The members that have a value. -/
def members (fields : List (String × Option Toml)) : List (String × Toml) :=
  fields.filterMap fun (name, value) => value.map (name, ·)

end Toml

namespace Defaults

/-- The table of defaults. -/
def toToml (d : Defaults) : Toml :=
  .table (Toml.members
    [("preset", some (.string d.preset.name)),
     ("target", d.target.map fun t => .string t.name),
     ("compute_units", d.units.map fun u => .string u.name),
     ("format", d.format.map fun f => .string f.name),
     ("precision", d.precision.map fun p => .string p.name),
     ("output_dir", d.outputDirectory.map .string)])

end Defaults

namespace Metadata

/-- The table of metadata. -/
def toToml (m : Metadata) : Toml :=
  .table (Toml.members
    [("author", some (.string m.author)), ("license", m.license.map .string),
     ("description", some (.string m.description)), ("version", some (.string m.version))])

end Metadata

namespace Normalization

/-- The table of a normalisation. -/
def toToml (n : Normalization) : Toml :=
  .table [("mean", .singles n.mean.toList), ("std", .singles n.std.toList)]

end Normalization

namespace Job

/-- The table of a job. -/
def toToml (job : Job) : Except ConfigError Toml := do
  let shape ← job.inputShape.mapM Toml.naturals
  return .table (Toml.members
    [("name", some (.string job.name)),
     ("route", some (.string job.route.name)),
     ("source", some (.string job.source)),
     ("input_shape", shape),
     ("preset", job.preset.map fun p => .string p.name),
     ("input", some (.string job.input.name)),
     ("color_layout", some (.string job.layout.name)),
     ("labels", job.labels.map .strings),
     ("labels_file", job.labelsFile.map .string),
     ("output", job.output.map .string),
     ("exchange_path", job.exchange.map .string)])

end Job

namespace BatchConfig

/-- The members of the document of a configuration. -/
def tomlMembers (c : BatchConfig) : Except ConfigError (List (String × Toml)) := do
  let jobs ← c.jobs.mapM Job.toToml
  return Toml.members
    [("defaults", some c.defaults.toToml),
     ("metadata", c.metadata.map Metadata.toToml),
     ("normalization", some c.normalization.toToml),
     ("model", some (.array jobs))]

/-- The document of a configuration. -/
def toToml (c : BatchConfig) : Except ConfigError Toml := Toml.table <$> c.tomlMembers

/-- The text of a configuration. -/
def render (c : BatchConfig) : Except ConfigError String := Toml.render <$> c.tomlMembers

end BatchConfig

end NetPack
