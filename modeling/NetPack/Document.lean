import NetPack.Binary32

/-!
# Reading values from documents

A document is a tree of texts, numbers, truth values, arrays and objects, whatever the format of its
text. `Document` lists what a format has to offer, and a `Decoder` reads a value of some type from a
document of any format. Records are read from an object, whose unknown members do not matter and
whose known members may occur once, or from an array of the fields in their order. Fields differ in
what their absence means: an error, `none`, or a default value.
-/

namespace NetPack

/-- Why a document does not hold a value of the wanted type. -/
inductive DecodeError where
  /-- The text is no document. -/
  | malformed
  /-- A value of another type was expected. -/
  | mismatch (expected : String)
  /-- A field is absent. -/
  | missing (field : String)
  /-- A field is given twice. -/
  | repeated (field : String)
deriving DecidableEq

namespace DecodeError

/-- The text of an error. -/
def message : DecodeError → String
  | malformed => "the text is not a document"
  | mismatch expected => s!"expected {expected}"
  | missing field => s!"missing field '{field}'"
  | repeated field => s!"field '{field}' is given twice"

end DecodeError

/-- The trees of a document format. -/
class Document (δ : Type) where
  /-- The value of a number that is a word. -/
  nat? : δ → Option Nat
  /-- The value of a number in single precision. -/
  single? : δ → Option Binary32
  /-- The text of a string. -/
  string? : δ → Option String
  /-- The value of a truth value. -/
  bool? : δ → Option Bool
  /-- Stands for an absent value. -/
  isNull : δ → Bool
  /-- Holds nothing beside the name it is given to. -/
  isEmpty : δ → Bool
  /-- The elements of an array. -/
  elements? : δ → Option (List δ)
  /-- The members of an object. -/
  members? : δ → Option (List (String × δ))
  /-- May an array be longer than what is read of it? -/
  allowsSurplus : δ → Bool
  /-- The form of a value that is kept until it is known what it is read as. Only values of which
  every part can be read are kept. -/
  kept? : δ → Option δ

/-- Reads a value from a document. -/
abbrev Decoder (δ α : Type) := δ → Except DecodeError α

namespace Document

variable {δ α : Type} [Document δ]

/-- A part that has to be there. -/
def expect (expected : String) : Option α → Except DecodeError α
  | some a => .ok a
  | none => .error (.mismatch expected)

/-- Reads a word. -/
def nat : Decoder δ Nat := fun d => expect "an unsigned integer" (nat? d)

/-- Reads a single-precision number. -/
def single : Decoder δ Binary32 := fun d => expect "a number" (single? d)

/-- Reads a text. -/
def string : Decoder δ String := fun d => expect "a string" (string? d)

/-- Reads a truth value. -/
def bool : Decoder δ Bool := fun d => expect "a boolean" (bool? d)

/-- Reads the elements of an array. -/
def list (element : Decoder δ α) : Decoder δ (List α) := fun d => do
  (← expect "an array" (elements? d)).mapM element

/-- The elements of an array that has to hold `count` of them. -/
def exactly (count : Nat) : Decoder δ (List δ) := fun d => do
  let es ← expect "an array" (elements? d)
  if es.length = count || (count < es.length && allowsSurplus d) then return es.take count
  else throw (.mismatch s!"{count} elements")

/-- Reads two elements. -/
def pair (element : Decoder δ α) : Decoder δ (α × α) := fun d => do
  match ← (← exactly 2 d).mapM element with
  | [a, b] => return (a, b)
  | _ => throw (.mismatch "two elements")

/-- Reads three elements. -/
def triple (element : Decoder δ α) : Decoder δ (α × α × α) := fun d => do
  match ← (← exactly 3 d).mapM element with
  | [a, b, c] => return (a, b, c)
  | _ => throw (.mismatch "three elements")

/-- Reads an absent value as `none`. -/
def option (value : Decoder δ α) : Decoder δ (Option α) := fun d =>
  if isNull d then .ok none else some <$> value d

/-- Reads one of finitely many names: a string, or an object whose only member has that name and
nothing in it. -/
def name (ofName? : String → Option α) (expected : String) : Decoder δ α := fun d => do
  let text ←
    match string? d, members? d with
    | some s, _ => pure s
    | none, some [(s, content)] => if isEmpty content then pure s else throw (.mismatch expected)
    | none, _ => throw (.mismatch expected)
  expect expected (ofName? text)

/-! ### Records -/

/-- The contents of a record before its fields are found. -/
inductive Contents (δ : Type) where
  /-- Members with names. -/
  | named (members : List (String × δ))
  /-- Elements in the order of the fields, and whether there may be more of them than fields. -/
  | positional (elements : List δ) (surplus : Bool)

/-- The contents of an object or an array. -/
def contents : Decoder δ (Contents δ) := fun d =>
  match members? d, elements? d with
  | some ms, _ => .ok (.named ms)
  | none, some es => .ok (.positional es (allowsSurplus d))
  | none, none => .error (.mismatch "a record")

/-- The fields of a record that were found. -/
structure Record (δ : Type) where
  /-- The known fields by name. -/
  fields : List (String × δ)

/-- Finds the fields with the given names. -/
def Contents.record (names : List String) : Contents δ → Except DecodeError (Record δ)
  | .named members => do
    let known := members.filter fun m => names.contains m.1
    match names.find? fun n => 1 < (known.filter fun m => m.1 == n).length with
    | some n => throw (.repeated n)
    | none => return ⟨known⟩
  | .positional elements surplus =>
    if names.length < elements.length && !surplus then .error (.mismatch "fewer elements")
    else .ok ⟨names.zip elements⟩

/-- Reads the fields of a record with the given names. -/
def record (names : List String) : Decoder δ (Record δ) := fun d => do
  (← contents d).record names

namespace Record

/-- A field that has to be there. -/
def required (r : Record δ) (field : String) (value : Decoder δ α) : Except DecodeError α :=
  match r.fields.lookup field with
  | some d => value d
  | none => .error (.missing field)

/-- A field whose absence means a default value. -/
def withDefault (r : Record δ) (field : String) (value : Decoder δ α) (absent : α) :
    Except DecodeError α :=
  match r.fields.lookup field with
  | some d => value d
  | none => .ok absent

/-- A field that may be absent. -/
def optional (r : Record δ) (field : String) (value : Decoder δ α) :
    Except DecodeError (Option α) :=
  r.withDefault field (option value) none

end Record

/-! ### Tagged alternatives -/

/-- Splits an alternative into its tag and its fields: the tag is a member of the object, or the
first element of the array. The fields are kept until the tag says what they are. -/
def tagged (tag : String) : Decoder δ (String × Contents δ) := fun d => do
  match ← contents (← expect "values that can be kept" (kept? d)) with
  | .named members =>
    match members.filter fun m => m.1 == tag with
    | [(_, t)] => return (← string t, .named (members.filter fun m => m.1 != tag))
    | [] => throw (.missing tag)
    | _ => throw (.repeated tag)
  | .positional (t :: fields) surplus => return (← string t, .positional fields surplus)
  | .positional [] _ => throw (.missing tag)

/-- Checks that an alternative without fields is given none by position. -/
def Contents.noFields : Contents δ → Except DecodeError Unit
  | .named _ => .ok ()
  | .positional fields surplus =>
    if fields.isEmpty || surplus then .ok () else .error (.mismatch "no fields")

end Document

end NetPack
