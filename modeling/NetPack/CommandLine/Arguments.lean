/-!
# Arguments of a command

A command knows some options: switches, and settings with a value. An option is given by its long
name after two dashes or by one letter after one dash; letters of switches can be joined. A value is
the rest of the argument, with or without an equals sign, or else the next argument, which must not
look like an option. All other arguments are words, as is everything after two dashes alone. A
setting is given once at most.

`Given.scan` reads arguments from left to right and stops at the first one that decides how the
reading ends.
-/

namespace NetPack

namespace CommandLine

/-- What an option is for. -/
inductive OptionForm where
  /-- A switch that can be given any number of times. -/
  | repeatable
  /-- A switch that can be given once. -/
  | switch
  /-- A setting whose value has to pass a test. -/
  | setting (accepts : String → Bool)
  /-- Asks for an explanation. -/
  | help
  /-- Asks for the version. -/
  | version

/-- An option of a command. -/
structure CommandOption where
  long : String
  short : Option Char
  form : OptionForm

/-- How the reading of arguments ends without a command. -/
inductive Halt where
  /-- The arguments are wrong. -/
  | usage
  /-- An explanation is asked for. -/
  | help
  /-- The version is asked for. -/
  | version
deriving DecidableEq

/-- What was given so far. -/
structure Given where
  /-- The values of settings by their long names. -/
  settings : List (String × String)
  /-- The long names of switches. -/
  switches : List String
  /-- The words. -/
  words : List String

namespace Given

/-- Nothing given. -/
def none : Given := ⟨[], [], []⟩

/-- The value of a setting. -/
def value? (g : Given) (long : String) : Option String := g.settings.lookup long

/-- Was a switch given? -/
def has (g : Given) (long : String) : Bool := g.switches.contains long

/-- Gives a switch. -/
def turnOn (g : Given) (o : CommandOption) : Except Halt Given :=
  match o.form with
  | .repeatable => .ok { g with switches := g.switches ++ [o.long] }
  | .switch =>
    if g.has o.long then .error .usage else .ok { g with switches := g.switches ++ [o.long] }
  | .help => .error .help
  | .version => .error .version
  | .setting _ => .error .usage

/-- Gives a setting. -/
def set (g : Given) (o : CommandOption) (value : String) : Except Halt Given :=
  match o.form with
  | .setting accepts =>
    if (g.value? o.long).isSome || !accepts value then .error .usage
    else .ok { g with settings := g.settings ++ [(o.long, value)] }
  | _ => .error .usage

end Given

namespace CommandOption

/-- Does the option have a value? -/
def hasValue (o : CommandOption) : Bool :=
  match o.form with
  | .setting _ => true
  | _ => false

end CommandOption

/-- Does an argument look like an option? -/
def looksLikeOption (argument : String) : Bool := argument.startsWith "-" && argument ≠ "-"

/-- Splits a long option into its name and the value after an equals sign. -/
def splitLong (argument : String) : String × Option String :=
  match (argument.drop 2).toString.splitOn "=" with
  | name :: value :: rest => (name, some ("=".intercalate (value :: rest)))
  | parts => (parts.headD "", none)

/-- Reads joined letters. An option that is left is one whose value is in the next argument. -/
def letters (options : List CommandOption) (g : Given) :
    List Char → Except Halt (Given × Option CommandOption)
  | [] => .ok (g, none)
  | c :: rest =>
    match options.find? fun o => o.short = some c with
    | none => .error .usage
    | some o =>
      if o.hasValue then
        match rest with
        | [] => .ok (g, some o)
        | '=' :: value => (g.set o (String.ofList value)).map (·, none)
        | value => (g.set o (String.ofList value)).map (·, none)
      else do letters options (← g.turnOn o) rest

/-- Reads one argument that looks like an option. An option that is left is one whose value is in
the next argument. -/
def readOption (options : List CommandOption) (g : Given) (argument : String) :
    Except Halt (Given × Option CommandOption) :=
  if argument.startsWith "--" then
    let (name, value) := splitLong argument
    match options.find? fun o => o.long = name, value with
    | none, _ => .error .usage
    | some o, some v => if o.hasValue then (g.set o v).map (·, none) else .error .usage
    | some o, none => if o.hasValue then .ok (g, some o) else (g.turnOn o).map (·, none)
  else letters options g (argument.toList.drop 1)

/-- Reads arguments up to their end, or up to the first word. -/
def scan (options : List CommandOption) (stopAtWord : Bool) :
    Given → List String → Except Halt (Given × List String)
  | g, [] => .ok (g, [])
  | g, argument :: rest =>
    if argument = "--" then
      if stopAtWord then .error .usage else .ok ({ g with words := g.words ++ rest }, [])
    else if looksLikeOption argument then do
      match ← readOption options g argument with
      | (g, none) => scan options stopAtWord g rest
      | (g, some o) =>
        match rest with
        | [] => .error .usage
        | value :: rest =>
          if looksLikeOption value then .error .usage
          else scan options stopAtWord (← g.set o value) rest
    else if stopAtWord then .ok (g, argument :: rest)
    else scan options stopAtWord { g with words := g.words ++ [argument] } rest

end CommandLine

end NetPack
