import NetPack.CommandLine.Arguments
import NetPack.CommandLine.Number

/-!
# Commands

What the program can be told to do, and how it is told.
-/

namespace NetPack

namespace CommandLine

/-- What a conversion is told: a configuration, or a checkpoint and how to convert it. -/
structure ConvertArguments where
  config : Option String
  model : Option String
  name : Option String
  shape : String
  labels : Option String
  preset : String
  exchange : Bool
  output : Option String
  outputDirectory : Option String
deriving DecidableEq

/-- What the program is told to do. -/
inductive Command where
  | convert (arguments : ConvertArguments)
  | «export» (model shape out : String)
  | validate (path : String) (batch : Nat)
  | inspect (path : String)
  | fetch (url directory : String)
deriving DecidableEq

/-- A setting with any text. -/
def textOption (long : String) (short : Option Char) : CommandOption :=
  ⟨long, short, .setting fun _ => true⟩

/-- A setting with a path, which is not empty. -/
def pathOption (long : String) (short : Option Char) : CommandOption :=
  ⟨long, short, .setting fun s => !s.isEmpty⟩

/-- A setting with a number. -/
def numberOption (long : String) (short : Option Char) : CommandOption :=
  ⟨long, short, .setting fun s => (readNumber s).isOk⟩

/-- The options that every command knows. -/
def commonOptions : List CommandOption :=
  [⟨"verbose", some 'v', .repeatable⟩, ⟨"help", some 'h', .help⟩]

/-- The options in front of a command. -/
def rootOptions : List CommandOption := ⟨"version", some 'V', .version⟩ :: commonOptions

/-- The shape that is taken if none is given. -/
def defaultShape : String := "1,3,224,224"

/-- Reads the arguments of a command with some options and words. -/
def readGiven (options : List CommandOption) (words : Nat) (arguments : List String) :
    Except Halt Given := do
  let (g, _) ← scan (options ++ commonOptions) false .none arguments
  if g.words.length = words && g.words.all fun w => !w.isEmpty then return g
  else throw .usage

/-- A setting that has to be given. -/
def required (g : Given) (long : String) : Except Halt String :=
  match g.value? long with
  | some v => .ok v
  | none => .error .usage

/-- Reads the arguments of a conversion. -/
def readConvert (arguments : List String) : Except Halt Command := do
  let g ← readGiven
    [pathOption "config" (some 'c'), pathOption "model" (some 'm'), textOption "name" (some 'n'),
     textOption "shape" (some 's'), pathOption "labels" (some 'l'), textOption "preset" (some 'p'),
     ⟨"exchange", none, .switch⟩, pathOption "output" (some 'o'), pathOption "output-dir" none]
    0 arguments
  let config := g.value? "config"
  let model := g.value? "model"
  if config.isSome = model.isSome then throw .usage
  return .convert {
    config
    model
    name := g.value? "name"
    shape := (g.value? "shape").getD defaultShape
    labels := g.value? "labels"
    preset := (g.value? "preset").getD "classifier"
    exchange := g.has "exchange"
    output := g.value? "output"
    outputDirectory := g.value? "output-dir" }

/-- Reads the arguments of an export. -/
def readExport (arguments : List String) : Except Halt Command := do
  let g ← readGiven
    [pathOption "model" (some 'm'), textOption "shape" (some 's'), pathOption "out" (some 'o')]
    0 arguments
  return .export (← required g "model") ((g.value? "shape").getD defaultShape)
    (← required g "out")

/-- Reads the arguments of a validation. -/
def readValidate (arguments : List String) : Except Halt Command := do
  let g ← readGiven [numberOption "batch" (some 'b')] 1 arguments
  match readNumber ((g.value? "batch").getD "1") with
  | .ok batch => return .validate (g.words.headD "") batch
  | .error _ => throw .usage

/-- Reads the arguments of an inspection. -/
def readInspect (arguments : List String) : Except Halt Command := do
  let g ← readGiven [] 1 arguments
  return .inspect (g.words.headD "")

/-- Reads the arguments of a transfer. -/
def readFetch (arguments : List String) : Except Halt Command := do
  let g ← readGiven [textOption "url" (some 'u'), pathOption "dest-dir" (some 'd')] 0 arguments
  return .fetch (← required g "url") ((g.value? "dest-dir").getD ".")

/-- The commands and how their arguments are read. -/
def commands : List (String × (List String → Except Halt Command)) :=
  [("convert", readConvert), ("export-onnx", readExport), ("validate", readValidate),
   ("inspect", readInspect), ("fetch", readFetch)]

/-- Reads what follows the word that asks for an explanation: nothing, or the name of a command. -/
def readHelp : List String → Halt
  | [] => .help
  | [name] => if name = "help" || (commands.lookup name).isSome then .help else .usage
  | _ => .usage

/-- Reads what the program is told to do. -/
def readCommand (arguments : List String) : Except Halt Command := do
  match ← scan rootOptions true .none arguments with
  | (_, []) => throw .usage
  | (_, word :: rest) =>
    if word = "help" then throw (readHelp rest)
    match commands.lookup word with
    | some read => read rest
    | none => throw .usage

end CommandLine

end NetPack
